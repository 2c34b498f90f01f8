import Mathlib.Data.List.Dedup
import GameServer.Consistency
import GameServer.ServerQueue
import GameServer.ServerUsers

namespace GameServer

def SessionParticipant.user (p : SessionParticipant) : AuthUser := ⟨p.userId, p.username⟩

namespace MatchQueue

def called (q : MatchQueue) : List AuthUser :=
  match q.holder with
  | .creating first second => [first, second]
  | .free | .joining _ _ | .pairing => []

def waiting (q : MatchQueue) : List AuthUser := q.queue.map (·.entry.user)

def tickets (q : MatchQueue) : List (AuthUser × Nat) := q.queue.map fun node => (node.entry.user, node.addr)

theorem called_of_held {q : MatchQueue} (h : ∀ first second, q.holder ≠ .creating first second) : q.called = [] := by
  rw [called]
  split
  next hheld => exact absurd hheld (h _ _)
  next => rfl
  next => rfl
  next => rfl

theorem tickets_fst (q : MatchQueue) : q.tickets.map (·.1) = q.waiting := by
  rw [tickets, waiting, List.map_map]
  rfl

theorem cancel_nextAddr {q r : MatchQueue} {userId : Int} (h : q.cancel userId = some r) :
    r.nextAddr = q.nextAddr := by
  rw [cancel] at h
  split at h <;> cases h
  rfl

end MatchQueue

inductive QueueTurn
  | joined (user : AuthUser)
  | taken (user : AuthUser) (number : Nat)
deriving DecidableEq

namespace QueueTurn

def joins (log : List QueueTurn) : List AuthUser :=
  log.filterMap fun turn => match turn with
    | .joined user => some user
    | .taken _ _ => none

def takes (log : List QueueTurn) : List (AuthUser × Nat) :=
  log.filterMap fun turn => match turn with
    | .joined _ => none
    | .taken user number => some (user, number)

@[simp] theorem joins_append (log more : List QueueTurn) : joins (log ++ more) = joins log ++ joins more :=
  List.filterMap_append

@[simp] theorem takes_append (log more : List QueueTurn) : takes (log ++ more) = takes log ++ takes more :=
  List.filterMap_append

end QueueTurn

namespace Server

open QueueTurn

variable {D : Type} {cfg : Config D} {s t : Server}

def seated (s : Server) : List AuthUser := (s.contexts.map (·.participants)).flatMap (·.map (·.user))

def front (s : Server) : List AuthUser := s.queue.called ++ s.queue.waiting

def turns (s : Server) : Action → List QueueTurn
  | .joinPush _ =>
    match s.queue.holder with
    | .joining user _ => [.joined user]
    | _ => []
  | .pair =>
    match s.queue.queue with
    | first :: second :: _ => [.taken first.entry.user first.addr, .taken second.entry.user second.addr]
    | _ => []
  | _ => []

def turnMachine (cfg : Config D) : Machine (Server × List QueueTurn) Action := (machine cfg).recorded turns

/-- What a step does to the order: it takes users out of the queue, from the
front if they are to play, and adds the one who joins at the end. -/
structure Moved (s t : Server) (log : List QueueTurn) : Prop where
  next : t.queue.nextAddr = s.queue.nextAddr + (joins log).length
  seated : t.seated ++ t.queue.called = s.seated ++ s.queue.called ++ (takes log).map (·.1)
  front : t.front.Sublist (s.front ++ joins log)
  line : (takes log ++ t.queue.tickets).Sublist (s.queue.tickets ++ (joins log).zipIdx s.queue.nextAddr)

theorem Moved.of_leave (hc : t.contexts.map (·.participants) = s.contexts.map (·.participants))
    (hcalled : t.queue.called = s.queue.called) (hnext : t.queue.nextAddr = s.queue.nextAddr)
    (hqueue : t.queue.queue.Sublist s.queue.queue) : s.Moved t [] where
  next := hnext
  seated := by
    rw [Server.seated, Server.seated, hc, hcalled]
    exact (List.append_nil _).symm
  front := by
    rw [Server.front, Server.front, hcalled]
    exact ((List.Sublist.refl _).append (hqueue.map _)).trans (List.sublist_append_left _ _)
  line := (hqueue.map _).trans (List.sublist_append_left _ _)

theorem moved_of_pair {q : MatchQueue} {first second : AuthUser} (hheld : s.queue.holder = .pairing)
    (hp : s.queue.popPair = some (q, first, second)) :
    s.Moved { s with queue := { q with holder := .creating first second } } (s.turns .pair) := by
  have hcalled : s.queue.called = [] := MatchQueue.called_of_held (by simp [hheld])
  rw [MatchQueue.popPair] at hp
  split at hp
  next a b rest hqueue =>
    cases hp
    rw [turns, hqueue]
    refine ⟨rfl, ?_, ?_, ?_⟩
    · rw [hcalled, List.append_nil]
      rfl
    · rw [front, front, hcalled, MatchQueue.waiting, MatchQueue.waiting, hqueue]
      exact List.sublist_append_left _ _
    · rw [MatchQueue.tickets, MatchQueue.tickets, hqueue]
      exact List.sublist_append_left _ _
  next => cases hp

theorem moved_of_push {user : AuthUser} {timeout now : Int} (hheld : s.queue.holder = .joining user timeout) :
    s.Moved { s with queue := { s.queue.push cfg.defaultTimeout user timeout now with holder := .free } }
      (s.turns (.joinPush now)) := by
  have hcalled : s.queue.called = [] := MatchQueue.called_of_held (by simp [hheld])
  rw [turns, hheld]
  refine ⟨rfl, ?_, ?_, ?_⟩
  · rw [hcalled]
    exact (List.append_nil _).symm
  · rw [front, front, hcalled]
    simp only [MatchQueue.called, MatchQueue.waiting, MatchQueue.push, List.map_append]
    exact List.Sublist.refl _
  · simp only [MatchQueue.tickets, MatchQueue.push, List.map_append]
    exact List.Sublist.refl _

theorem moved_of_create {first second : AuthUser} (hheld : s.queue.holder = .creating first second) :
    s.Moved { s.createSession cfg (pairParticipants first second) with
      queue := { s.queue with holder := .pairing } } [] := by
  have hcalled : s.queue.called = [first, second] := by rw [MatchQueue.called, hheld]
  refine ⟨rfl, ?_, ?_, List.sublist_append_left _ _⟩
  · rw [hcalled]
    simp only [seated, createSession, newContext, List.map_append, List.flatMap_append]
    rfl
  · rw [front, front, hcalled]
    exact (List.sublist_append_right _ _).trans (List.sublist_append_left _ _)

theorem turns_pair_of_none (hp : s.queue.popPair = none) : s.turns .pair = [] := by
  rw [MatchQueue.popPair] at hp
  split at hp
  next => cases hp
  next hshort =>
    rw [turns]
    split
    next hqueue => exact absurd hqueue (hshort _ _ _)
    next => rfl

theorem moved_of_step {a : Action} (h : s.step cfg a = some t) : s.Moved t (s.turns a) := by
  cases a with
  | joinCheck user timeout =>
      simp only [step] at h
      split at h
      next hfree =>
        by_cases hr : s.joinRefused user.userId = true
        · simp only [joinCheck, hr, if_true, Option.some.injEq] at h
          exact h ▸ .of_leave rfl rfl rfl (List.Sublist.refl _)
        · simp only [joinCheck, hr, Bool.false_eq_true, if_false, Option.some.injEq] at h
          subst h
          refine .of_leave rfl ?_ rfl (List.Sublist.refl _)
          rw [MatchQueue.called_of_held (by simp), MatchQueue.called_of_held (by simp [hfree])]
      next => cases h
  | joinPush now =>
      simp only [step] at h
      split at h
      next user timeout hheld =>
        cases h
        exact moved_of_push hheld
      next => cases h
  | cancel userId =>
      simp only [step] at h
      split at h
      next hfree =>
        split at h
        next queue hc =>
          cases h
          obtain ⟨hsub, hholder⟩ := MatchQueue.cancel_sublist hc
          refine .of_leave rfl ?_ (MatchQueue.cancel_nextAddr hc) hsub
          rw [MatchQueue.called, MatchQueue.called, hholder]
        next =>
          cases h
          exact .of_leave rfl rfl rfl (List.Sublist.refl _)
      next => cases h
  | queueTick now =>
      simp only [step] at h
      split at h
      next hfree =>
        cases h
        refine .of_leave rfl ?_ rfl ?_
        · rw [MatchQueue.called_of_held (by simp), MatchQueue.called_of_held (by simp [hfree.1])]
        · simp only [MatchQueue.handleTimeouts, MatchQueue.sweep_queue]
          exact List.filter_sublist
      next => cases h
  | pair =>
      simp only [step] at h
      split at h
      next hheld =>
        split at h
        next queue first second hp =>
          cases h
          exact moved_of_pair hheld hp
        next hp =>
          cases h
          rw [turns_pair_of_none hp]
          refine .of_leave rfl ?_ rfl (List.Sublist.refl _)
          rw [MatchQueue.called_of_held (by simp), MatchQueue.called_of_held (by simp [hheld])]
      next => cases h
  | createSession =>
      simp only [step] at h
      split at h
      next first second hheld =>
        cases h
        exact moved_of_create hheld
      next => cases h
  | startSession | timer | proceed | submitLookup | submitHandler | ensureUser =>
      rcases frame_of_step h with ⟨hqueue, -⟩ | ⟨-, hqueue, -, hc⟩
      · cases hqueue
      · have hlen : t.contexts.length = s.contexts.length := by
          rcases hc with hc | ⟨k, ctx, -, hturn⟩
          · rw [hc]
          · obtain ⟨ctx', hset⟩ := hturn.contexts
            rw [hset, List.length_set]
        refine .of_leave (participants_frame (effect_of_step h) hlen) ?_ ?_ ?_ <;> rw [hqueue]

theorem joins_cases (hi : s.Inv) (a : Action) : joins (s.turns a) = [] ∨
    ∃ user, joins (s.turns a) = [user] ∧ user.userId ∉ s.front.map (·.userId) := by
  cases a with
  | joinPush now =>
      rw [turns]
      split
      next user timeout hheld =>
        refine Or.inr ⟨user, rfl, ?_⟩
        have hout := hi.indexed.held.2 user.userId (by simp [MatchQueue.held, hheld])
        rw [front, MatchQueue.called_of_held (by simp [hheld]), List.nil_append, MatchQueue.waiting, List.map_map]
        exact hout
      next => exact Or.inl rfl
  | pair =>
      rw [turns]
      split <;> exact Or.inl rfl
  | _ => exact Or.inl rfl

theorem sublist_dedup_concat {α : Type} [DecidableEq α] {x : α} {l f : List α} (h : f.Sublist l.dedup)
    (hx : x ∉ f) : (f ++ [x]).Sublist (l ++ [x]).dedup := by
  induction l generalizing f with
  | nil =>
      rw [List.dedup_nil, List.sublist_nil] at h
      subst h
      exact List.Sublist.refl _
  | cons y l ih =>
      by_cases hy : y ∈ l
      · rw [List.dedup_cons_of_mem hy] at h
        rw [List.cons_append, List.dedup_cons_of_mem (List.mem_append_left _ hy)]
        exact ih h hx
      · rw [List.dedup_cons_of_notMem hy] at h
        by_cases hyx : y = x
        · subst hyx
          rw [List.cons_append, List.dedup_cons_of_mem (List.mem_append_right _ (List.mem_singleton_self _))]
          rcases List.sublist_cons_iff.mp h with h | ⟨r, rfl, -⟩
          · exact ih h hx
          · exact absurd List.mem_cons_self hx
        · have hnot : y ∉ l ++ [x] := by
            simp [hy, hyx]
          rw [List.cons_append, List.dedup_cons_of_notMem hnot]
          rcases List.sublist_cons_iff.mp h with h | ⟨r, rfl, hr⟩
          · exact (ih h hx).cons _
          · exact (ih hr (fun hin => hx (List.mem_cons_of_mem _ hin))).cons_cons _

/-- The order of a state after the joins and the departures of the log. -/
structure Ordered (s : Server) (log : List QueueTurn) : Prop where
  inv : s.Inv
  next : s.queue.nextAddr = (joins log).length
  seated : s.seated ++ s.queue.called = (takes log).map (·.1)
  line : (takes log ++ s.queue.tickets).Sublist (joins log).zipIdx
  last : (s.front.map (·.userId)).Sublist ((joins log).map (·.userId)).dedup

theorem Ordered.step {log : List QueueTurn} (h : s.Ordered log) {a : Action} (hs : s.step cfg a = some t) :
    t.Ordered (log ++ s.turns a) := by
  have hmoved := moved_of_step hs
  refine ⟨inv_effect h.inv (effect_of_step hs), ?_, ?_, ?_, ?_⟩
  · rw [hmoved.next, h.next, joins_append, List.length_append]
  · rw [hmoved.seated, h.seated, takes_append, List.map_append]
  · have hgrown := h.line.append (List.Sublist.refl ((joins (s.turns a)).zipIdx s.queue.nextAddr))
    rw [takes_append, joins_append, List.zipIdx_append, Nat.zero_add, ← h.next, List.append_assoc]
    refine ((List.Sublist.refl (takes log)).append hmoved.line).trans ?_
    rw [← List.append_assoc]
    exact hgrown
  · have hids := hmoved.front.map (·.userId)
    rw [List.map_append] at hids
    rw [joins_append, List.map_append]
    rcases joins_cases h.inv a with hj | ⟨user, hj, hnew⟩
    · rw [hj, List.map_nil, List.append_nil] at hids ⊢
      exact hids.trans h.last
    · rw [hj] at hids ⊢
      exact hids.trans (sublist_dedup_concat h.last hnew)

/-- Nobody overtakes anybody. Those who are seated or called are those who were
taken out of the queue, and with those who wait they hold the numbers of their
joins in rising order. So the players of the sessions, in the order the sessions
were created, and then those who are next and those who wait are users in the
order of their joins, and those who are not yet seated stand in the order of
their latest joins. -/
theorem match_order {log : List QueueTurn} (hr : (turnMachine cfg).Reachable (s, log)) :
    s.seated ++ s.queue.called = (takes log).map (·.1) ∧ (takes log ++ s.queue.tickets).Sublist (joins log).zipIdx ∧
      (s.seated ++ s.front).Sublist (joins log) ∧
      (s.front.map (·.userId)).Sublist ((joins log).map (·.userId)).dedup := by
  have h : s.Ordered log := by
    refine hr.recorded_induction (P := Ordered) ⟨.empty, rfl, rfl, List.Sublist.refl _, List.Sublist.refl _⟩ ?_
    intro s log a t hs ht
    exact hs.step ht
  refine ⟨h.seated, h.line, ?_, h.last⟩
  have husers := h.line.map (·.1)
  rw [List.map_append, MatchQueue.tickets_fst, ← h.seated, List.zipIdx_map_fst] at husers
  rwa [front, ← List.append_assoc]

def rejoin : List Action :=
  [.joinCheck ⟨1, "kim"⟩ 10, .joinPush 0, .joinCheck ⟨2, "lee"⟩ 10, .joinPush 0, .cancel 2, .joinCheck ⟨3, "park"⟩ 10,
    .joinPush 0, .joinCheck ⟨2, "lee"⟩ 10, .joinPush 0, .queueTick 0, .pair, .createSession, .pair]

/-- The second to join leaves and joins again. -/
theorem match_order_of_rejoin : ∃ s log, (turnMachine (evenConfig 1)).Reachable (s, log) ∧
    s.seated = [⟨1, "kim"⟩, ⟨3, "park"⟩] ∧ s.queue.tickets = [(⟨2, "lee"⟩, 3)] ∧
    takes log = [(⟨1, "kim"⟩, 0), (⟨3, "park"⟩, 2)] ∧
    (takes log ++ s.queue.tickets).Sublist (joins log).zipIdx ∧ (s.seated ++ s.front).Sublist (joins log) ∧
    (s.front.map (·.userId)).Sublist ((joins log).map (·.userId)).dedup := by
  have hrun : ((turnMachine (evenConfig 1)).run rejoin).map (fun r => (r.1.seated, r.1.queue.tickets, takes r.2)) =
      some ([⟨1, "kim"⟩, ⟨3, "park"⟩], [(⟨2, "lee"⟩, 3)], [(⟨1, "kim"⟩, 0), (⟨3, "park"⟩, 2)]) := by
    rfl
  obtain ⟨⟨s, log⟩, hs, hparts⟩ := Option.map_eq_some_iff.mp hrun
  simp only [Prod.mk.injEq] at hparts
  exact ⟨s, log, .of_run hs, hparts.1, hparts.2.1, hparts.2.2, (match_order (.of_run hs)).2⟩

end Server

end GameServer
