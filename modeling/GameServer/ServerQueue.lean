import GameServer.QueueCalls
import GameServer.ServerInvariant

namespace GameServer

def Action.queueInstant : Action → Option Int
  | .joinPush now | .queueTick now => some now
  | _ => none

namespace MatchQueue

def settled (q : MatchQueue) : MatchQueue :=
  match q.holder with
  | .free | .joining _ _ => { q with holder := .free }
  | .pairing | .creating _ _ => { q.pairIfPossible.1 with holder := .free }

def coming (q : MatchQueue) : List (List SessionParticipant) :=
  match q.holder with
  | .free | .joining _ _ => []
  | .pairing => q.pairIfPossible.2.map MatchQueueService.participants
  | .creating first second =>
    Server.pairParticipants first second :: q.pairIfPossible.2.map MatchQueueService.participants

theorem settled_free {q : MatchQueue} (h : q.holder = .free) : q.settled = q := by
  obtain ⟨queue, userIndex, nextAddr, timerActive, holder⟩ := q
  cases h
  rfl

theorem coming_free {q : MatchQueue} (h : q.holder = .free) : q.coming = [] := by rw [coming, h]

theorem settled_pairing {q : MatchQueue} (h : q.holder = .free) :
    ({ q with holder := .pairing } : MatchQueue).settled = q.pairIfPossible.1 := by
  obtain ⟨queue, userIndex, nextAddr, timerActive, holder⟩ := q
  cases h
  rfl

theorem pairIfPossible_pop {q r : MatchQueue} {first second : AuthUser} (h : q.popPair = some (r, first, second)) :
    q.pairIfPossible.1 = r.pairIfPossible.1 ∧ q.pairIfPossible.2.map MatchQueueService.participants =
      Server.pairParticipants first second :: r.pairIfPossible.2.map MatchQueueService.participants := by
  obtain ⟨queue, userIndex, nextAddr, timerActive, holder⟩ := q
  rw [popPair] at h
  split at h
  next hq =>
    cases h
    cases hq
    exact ⟨rfl, rfl⟩
  next => cases h

theorem pairIfPossible_none {q : MatchQueue} (h : q.popPair = none) : q.pairIfPossible = (q, []) := by
  rw [popPair] at h
  split at h
  next => cases h
  next hshort =>
    have hstay : pairUp q.queue q.userIndex = (q.queue, q.userIndex, []) := by
      rw [pairUp]
      exact hshort
    rw [pairIfPossible, hstay]

end MatchQueue

namespace Server

variable {D : Type} {cfg : Config D}

/-- The queue service is where the call under way on the server takes it. -/
structure Queues (s : Server) (q : MatchQueueService) : Prop where
  queue : q.queue = s.queue.settled
  sessions : q.sessions = s.contexts.map (·.participants) ++ s.queue.coming
  errors : q.errors = s.timeoutErrors.map fun uid => (uid, MatchQueueService.queueTimeout)

theorem queues_empty (start : Int) : Queues {} { clock := start } where
  queue := rfl
  sessions := rfl
  errors := rfl

theorem participants_frame {s t : Server} (he : Effect cfg s t) (hlen : t.contexts.length = s.contexts.length) :
    t.contexts.map (·.participants) = s.contexts.map (·.participants) := by
  apply List.ext_getElem?
  intro j
  rw [List.getElem?_map, List.getElem?_map]
  cases hj : s.contexts[j]? with
  | none =>
      have hout : t.contexts.length ≤ j := hlen ▸ List.getElem?_eq_none_iff.mp hj
      rw [List.getElem?_eq_none hout]
  | some c =>
      obtain ⟨d, hd, hshape⟩ := shape_effect he j c hj
      rw [hd, Option.map_some, Option.map_some, hshape.2.1]

section Calls

variable {start : Int} {s : Server} {q : MatchQueueService} (h : Queues s q)

include h

/-- Join takes effect when it puts its entry in. What it found at its check
still holds, since it has kept the mutex. -/
theorem Queues.push (hi : s.Inv) {user : AuthUser} {timeout now : Int} (hheld : s.queue.holder = .joining user timeout)
    (hclock : q.clock ≤ now) :
    ∃ r, (MatchQueueService.service cfg.defaultTimeout start).Leads q r ∧ r.clock = now ∧
      Queues { s with queue := { s.queue.push cfg.defaultTimeout user timeout now with holder := .free } } r := by
  have hqueue : q.queue = { s.queue with holder := .free } := by rw [h.queue, MatchQueue.settled, hheld]
  have hout : ¬ (user.userId ∈ (q.pass now).queue.userIndex ∨ false = true) := by
    change ¬ (user.userId ∈ q.queue.userIndex ∨ false = true)
    rw [hqueue]
    rintro (hin | hin)
    · have hu : user.userId ∈ s.queue.held := by simp [MatchQueue.held, hheld]
      exact hi.indexed.held.2 _ hu ((hi.indexed.mem_index _).mp hin)
    · cases hin
  have hcoming : s.queue.coming = [] := by rw [MatchQueue.coming, hheld]
  cases hj : (q.pass now).join cfg.defaultTimeout user timeout false now with
  | error e =>
      rw [MatchQueueService.join, if_neg hout] at hj
      cases hj
  | ok r =>
      have hstep : (MatchQueueService.service cfg.defaultTimeout start).step q (.join user timeout false now) =
          some r := by
        simp [MatchQueueService.service, MatchQueueService.step, MatchQueueService.Call.now, hclock, hj]
      refine ⟨r, .of_step hstep, ?_⟩
      rw [MatchQueueService.join, if_neg hout] at hj
      cases hj
      have hsessions := h.sessions
      rw [hcoming] at hsessions
      refine ⟨rfl, ?_, hsessions, h.errors⟩
      change q.queue.push _ _ _ _ = _
      rw [hqueue]
      rfl

theorem Queues.cancel {userId : Int} {queue : MatchQueue} (hi : s.Inv) (hfree : s.queue.holder = .free)
    (hc : s.queue.cancel userId = some queue) :
    ∃ r, (MatchQueueService.service cfg.defaultTimeout start).Leads q r ∧ r.clock = q.clock ∧
      Queues { s with queue := queue } r := by
  have hqueue : q.queue = s.queue := by rw [h.queue, MatchQueue.settled_free hfree]
  obtain ⟨-, hholder, -⟩ := hi.indexed.cancel hc
  have hq : (q.pass q.clock).queue.cancel userId = some queue := by
    rw [← hc, ← hqueue]
    rfl
  cases hj : (q.pass q.clock).cancel userId with
  | error e =>
      rw [MatchQueueService.cancel, hq] at hj
      cases hj
  | ok r =>
      have hstep : (MatchQueueService.service cfg.defaultTimeout start).step q (.cancel userId q.clock) = some r := by
        simp [MatchQueueService.service, MatchQueueService.step, MatchQueueService.Call.now, hj]
      refine ⟨r, .of_step hstep, ?_⟩
      rw [MatchQueueService.cancel, hq] at hj
      cases hj
      have hsessions := h.sessions
      rw [MatchQueue.coming_free hfree] at hsessions
      refine ⟨rfl, ?_, ?_, h.errors⟩
      · exact (MatchQueue.settled_free (hholder.trans hfree)).symm
      · rw [MatchQueue.coming_free (hholder.trans hfree)]
        exact hsessions

theorem Queues.tick (hfree : s.queue.holder = .free) {now : Int} (hclock : q.clock ≤ now) :
    ∃ r, (MatchQueueService.service cfg.defaultTimeout start).Leads q r ∧ r.clock = now ∧
      Queues { s with
        queue := { (s.queue.handleTimeouts now).1 with holder := .pairing }
        timeoutErrors := s.timeoutErrors ++ (s.queue.handleTimeouts now).2 } r := by
  have hqueue : q.queue = s.queue := by rw [h.queue, MatchQueue.settled_free hfree]
  have hstep : (MatchQueueService.service cfg.defaultTimeout start).step q (.onTick true now) =
      some ((q.pass now).onTick true now) := by
    simp [MatchQueueService.service, MatchQueueService.step, MatchQueueService.Call.now, hclock]
  have hsessions := h.sessions
  rw [MatchQueue.coming_free hfree, List.append_nil] at hsessions
  refine ⟨_, .of_step hstep, rfl, ?_, ?_, ?_⟩
  · change (q.queue.handleTimeouts now).1.pairIfPossible.1 = _
    rw [hqueue]
    exact (MatchQueue.settled_pairing (q := (s.queue.handleTimeouts now).1) hfree).symm
  · change q.sessions ++ (q.queue.handleTimeouts now).1.pairIfPossible.2.map MatchQueueService.participants = _
    rw [hsessions, hqueue]
    rfl
  · change q.errors ++ (q.queue.handleTimeouts now).2.map (fun uid => (uid, MatchQueueService.queueTimeout)) = _
    rw [h.errors, hqueue, List.map_append]

theorem Queues.pop {queue : MatchQueue} {first second : AuthUser} (hheld : s.queue.holder = .pairing)
    (hp : s.queue.popPair = some (queue, first, second)) :
    Queues { s with queue := { queue with holder := .creating first second } } q := by
  obtain ⟨hleft, hpairs⟩ := MatchQueue.pairIfPossible_pop hp
  have hqueue := h.queue
  have hsessions := h.sessions
  rw [MatchQueue.settled, hheld] at hqueue
  rw [MatchQueue.coming, hheld] at hsessions
  refine ⟨?_, ?_, h.errors⟩
  · rw [hqueue]
    simp only [hleft]
    rfl
  · rw [hsessions]
    simp only [hpairs]
    rfl

theorem Queues.leave (hheld : s.queue.holder = .pairing) (hp : s.queue.popPair = none) :
    Queues { s with queue := { s.queue with holder := .free } } q := by
  have hqueue := h.queue
  have hsessions := h.sessions
  rw [MatchQueue.settled, hheld] at hqueue
  rw [MatchQueue.coming, hheld] at hsessions
  simp only [MatchQueue.pairIfPossible_none hp] at hqueue hsessions
  exact ⟨hqueue, hsessions, h.errors⟩

theorem Queues.create {first second : AuthUser} (hheld : s.queue.holder = .creating first second) :
    Queues { s.createSession cfg (pairParticipants first second) with
      queue := { s.queue with holder := .pairing } } q := by
  have hqueue := h.queue
  have hsessions := h.sessions
  rw [MatchQueue.settled, hheld] at hqueue
  rw [MatchQueue.coming, hheld] at hsessions
  refine ⟨hqueue, ?_, h.errors⟩
  change _ = (s.contexts ++ [s.newContext cfg (pairParticipants first second)]).map (·.participants) ++ _
  rw [hsessions, List.map_append, List.append_assoc]
  rfl

end Calls

theorem queues_step {start : Int} {s t : Server} {q : MatchQueueService} {a : Action} (hi : s.Inv) (h : Queues s q)
    (hclock : ∀ now, a.queueInstant = some now → q.clock ≤ now) (hs : s.step cfg a = some t) :
    ∃ r, (MatchQueueService.service cfg.defaultTimeout start).Leads q r ∧ r.clock = a.queueInstant.getD q.clock ∧
      Queues t r := by
  rcases frame_of_step hs with ⟨ha, -⟩ | ⟨ha, hqueue, herrors, hcontexts⟩
  swap
  · have hlen : t.contexts.length = s.contexts.length := by
      rcases hcontexts with hsame | ⟨k, ctx, -, hturn⟩
      · rw [hsame]
      · obtain ⟨ctx', hset⟩ := hturn.contexts
        rw [hset, List.length_set]
    have hinstant : a.queueInstant = none := by
      cases a with
      | joinCheck | joinPush | cancel | queueTick | pair | createSession => cases ha
      | startSession | timer | proceed | submitLookup | submitHandler | ensureUser => rfl
    refine ⟨q, .refl q, by rw [hinstant, Option.getD_none], ?_⟩
    exact ⟨hqueue ▸ h.queue, by rw [participants_frame (effect_of_step hs) hlen, hqueue]; exact h.sessions,
      herrors ▸ h.errors⟩
  cases a with
  | joinCheck user timeout =>
      simp only [step] at hs
      split at hs
      next hfree =>
        refine ⟨q, .refl q, rfl, ?_⟩
        rw [joinCheck] at hs
        by_cases hr : s.joinRefused user.userId = true
        · simp only [hr, if_true, Option.some.injEq] at hs
          exact hs ▸ h
        · simp only [hr, Bool.false_eq_true, if_false, Option.some.injEq] at hs
          subst hs
          refine ⟨?_, ?_, h.errors⟩
          · rw [h.queue, MatchQueue.settled, hfree]
            rfl
          · rw [h.sessions, MatchQueue.coming_free hfree]
            rfl
      next => cases hs
  | joinPush now =>
      simp only [step] at hs
      split at hs
      next user timeout hheld =>
        cases hs
        exact h.push hi hheld (hclock now rfl)
      next => cases hs
  | cancel userId =>
      simp only [step] at hs
      split at hs
      next hfree =>
        split at hs
        next hc =>
          cases hs
          exact h.cancel hi hfree hc
        next =>
          cases hs
          exact ⟨q, .refl q, rfl, h⟩
      next => cases hs
  | queueTick now =>
      simp only [step] at hs
      split at hs
      next hfree =>
        cases hs
        exact h.tick hfree.1 (hclock now rfl)
      next => cases hs
  | pair =>
      simp only [step] at hs
      split at hs
      next hheld =>
        refine ⟨q, .refl q, rfl, ?_⟩
        split at hs
        next hp =>
          cases hs
          exact h.pop hheld hp
        next hp =>
          cases hs
          exact h.leave hheld hp
      next => cases hs
  | createSession =>
      simp only [step] at hs
      split at hs
      next hheld =>
        cases hs
        exact ⟨q, .refl q, rfl, h.create hheld⟩
      next => cases hs
  | startSession | timer | proceed | submitLookup | submitHandler | ensureUser => cases ha

/-- The server with the clock its queue reads, which does not run back. -/
def clocked (cfg : Config D) (start : Int) : Machine (Server × Int) Action where
  init := ({}, start)
  step s a :=
    let now := a.queueInstant.getD s.2
    if s.2 ≤ now then (s.1.step cfg a).map (·, now) else none

theorem clocked_step {start : Int} {s t : Server × Int} {a : Action} (h : (clocked cfg start).step s a = some t) :
    s.1.step cfg a = some t.1 ∧ t.2 = a.queueInstant.getD s.2 ∧ s.2 ≤ t.2 := by
  simp only [clocked] at h
  split at h
  next hle =>
    obtain ⟨u, hu, rfl⟩ := Option.map_eq_some_iff.mp h
    exact ⟨hu, rfl, hle⟩
  next => cases h

theorem reachable_of_clocked {start : Int} {s : Server × Int} (h : (clocked cfg start).Reachable s) :
    (machine cfg).Reachable s.1 := by
  refine h.induction (P := fun s => (machine cfg).Reachable s.1) Machine.Reachable.init ?_
  rintro s a t - hs ht
  exact hs.step (clocked_step ht).1

/-- Every run of the server is, on the queue, a run of calls that take effect
one after the other. -/
theorem queues_reachable {start : Int} {s : Server × Int} (h : (clocked cfg start).Reachable s) :
    ∃ q, (MatchQueueService.service cfg.defaultTimeout start).Reachable q ∧ Queues s.1 q ∧ q.clock = s.2 := by
  refine h.simulated (N := MatchQueueService.service cfg.defaultTimeout start)
    (R := fun s q => Queues s.1 q ∧ q.clock = s.2) ⟨queues_empty start, rfl⟩ ?_
  rintro s a t q hs ⟨hrel, hclock⟩ ht
  obtain ⟨hstep, hnow, hle⟩ := clocked_step ht
  have hlater : ∀ now, a.queueInstant = some now → q.clock ≤ now := by
    intro now hinstant
    rw [hinstant, Option.getD_some] at hnow
    rw [hclock, ← hnow]
    exact hle
  obtain ⟨r, hr, hrclock, hrel'⟩ := queues_step (reachable_inv (reachable_of_clocked hs)) hrel hlater hstep
  exact ⟨r, hr, hrel', by rw [hrclock, hclock, hnow]⟩

/-- Between the calls of the queue, the sessions ever created are the pairs of
entries taken out of it, and every entry is accounted for. -/
theorem queue_accounts {start : Int} {s : Server × Int} (h : (clocked cfg start).Reachable s)
    (hfree : s.1.queue.holder = .free) :
    ∃ q : MatchQueueService, q.Accounts ∧ q.queue = s.1.queue ∧
      s.1.contexts.map (·.participants) = q.matched.map MatchQueueService.participants ∧
      s.1.timeoutErrors = q.timedOut.map (·.userId) := by
  obtain ⟨q, hq, hrel, -⟩ := queues_reachable h
  have hacc := (MatchQueueService.reachable_inv hq).toAccounts
  refine ⟨q, hacc, by rw [hrel.queue, MatchQueue.settled_free hfree], ?_, ?_⟩
  · rw [← hacc.placed, hrel.sessions, MatchQueue.coming_free hfree, List.append_nil]
  · have htold := congrArg (List.map Prod.fst) (hrel.errors.symm.trans hacc.told)
    simpa [Function.comp_def] using htold

end Server

end GameServer
