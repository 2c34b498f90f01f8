import GameServer.Machine
import GameServer.MatchQueue
import GameServer.Session

namespace GameServer

namespace MatchQueue

def pairUp : List QueueNode → Table Int Nat → List QueueNode × Table Int Nat × List (QueueNode × QueueNode)
  | first :: second :: rest, index =>
    let (kept, index, pairs) := pairUp rest ((index.erase first.userId).erase second.userId)
    (kept, index, (first, second) :: pairs)
  | rest, index => (rest, index, [])

def pairIfPossible (q : MatchQueue) : MatchQueue × List (QueueNode × QueueNode) :=
  let (queue, index, pairs) := pairUp q.queue q.userIndex
  ({ q with queue := queue, userIndex := index }, pairs)

def both (pair : QueueNode × QueueNode) : List QueueNode := [pair.1, pair.2]

def missing (nodes others : List QueueNode) : List QueueNode := nodes.filter (· ∉ others)

theorem pairUp_order (nodes : List QueueNode) (index : Table Int Nat) :
    (pairUp nodes index).2.2.flatMap both ++ (pairUp nodes index).1 = nodes ∧
      (pairUp nodes index).1.length ≤ 1 := by
  induction nodes, index using pairUp.induct with
  | case1 first second rest index _ _ _ _ ih => simpa [pairUp, both] using ih
  | case2 rest index hshort =>
      cases rest with
      | nil => simp [pairUp]
      | cons first rest =>
          cases rest with
          | nil => simp [pairUp]
          | cons second rest => exact (hshort first second rest rfl).elim

theorem Indexed.pairUp (nodes : List QueueNode) (index : Table Int Nat) {q : MatchQueue} (h : q.Indexed)
    (hqueue : q.queue = nodes) (hindex : q.userIndex = index) :
    ({ q with
      queue := (MatchQueue.pairUp nodes index).1
      userIndex := (MatchQueue.pairUp nodes index).2.1
      holder := .free } : MatchQueue).Indexed := by
  induction nodes, index using MatchQueue.pairUp.induct generalizing q with
  | case1 first second rest index _ _ _ _ ih =>
      have hp : q.popPair = some ({ q with
          queue := rest
          userIndex := (q.userIndex.erase first.userId).erase second.userId },
          first.entry.user, second.entry.user) := by
        simp [MatchQueue.popPair, hqueue]
      have hnext := (h.popPair hp).1
      simp only [hindex] at hnext
      have hrest := ih hnext rfl rfl
      exact hrest
  | case2 rest index hshort =>
      have hstay : MatchQueue.pairUp rest index = (rest, index, []) := by
        rw [MatchQueue.pairUp]
        exact hshort
      rw [hstay, ← hqueue, ← hindex]
      exact h.handOver .free .nil (by simp [MatchQueue.held])

theorem Indexed.pairIfPossible {q : MatchQueue} (h : q.Indexed) (hfree : q.holder = .free) :
    q.pairIfPossible.1.Indexed := by
  have hp := h.pairUp q.queue q.userIndex rfl rfl
  rw [← hfree] at hp
  exact hp

theorem handleTimeouts_queue (q : MatchQueue) (now : Int) :
    (q.handleTimeouts now).1.queue = q.queue.filter (fun node => decide (now < node.entry.expiresAt)) ∧
      (q.handleTimeouts now).2 =
        (q.queue.filter (fun node => decide (node.entry.expiresAt ≤ now))).map (·.userId) :=
  ⟨sweep_queue now q.queue q.userIndex, sweep_uids now q.queue q.userIndex⟩

theorem missing_filter (nodes : List QueueNode) (keep : QueueNode → Bool) :
    missing nodes (nodes.filter keep) = nodes.filter (fun node => !keep node) := by
  apply List.filter_congr
  intro node hn
  simp [hn]

theorem keep_missing_perm (nodes : List QueueNode) (keep : QueueNode → Bool) :
    (nodes.filter keep ++ missing nodes (nodes.filter keep)).Perm nodes := by
  rw [missing_filter]
  exact List.filter_append_perm keep nodes

theorem filter_due (nodes : List QueueNode) (now : Int) :
    nodes.filter (fun node => !decide (now < node.entry.expiresAt)) =
      nodes.filter (fun node => decide (node.entry.expiresAt ≤ now)) := by
  apply List.filter_congr
  intro node _
  rw [← decide_not, decide_eq_decide, Int.not_lt]

theorem missing_one {nodes : List QueueNode} (hnodup : nodes.Nodup) {node : QueueNode} (h : node ∈ nodes) :
    missing nodes (nodes.filter (· ≠ node)) = [node] := by
  rw [missing_filter]
  have heq := List.filter_eq (l := nodes) node
  rw [List.count_eq_one_of_mem hnodup h] at heq
  simpa using heq

theorem Indexed.cancel_node {q r : MatchQueue} (h : q.Indexed) {u : Int} (hc : q.cancel u = some r) :
    ∃ node ∈ q.queue, node.userId = u ∧ r.queue = q.queue.filter (· ≠ node) ∧ r.nextAddr = q.nextAddr := by
  obtain ⟨node, hn, hnu, hsame, rfl⟩ := h.cancel_eq hc
  refine ⟨node, hn, hnu, ?_, rfl⟩
  apply List.filter_congr
  intro other ho
  simp [hsame other ho]

theorem missing_concat {nodes : List QueueNode} {node : QueueNode} (h : node ∉ nodes) :
    missing (nodes ++ [node]) nodes = [node] := by
  rw [missing, List.filter_append]
  simp [h]

end MatchQueue

open MatchQueue

structure Joining where
  node : QueueNode
  found : List QueueNode
deriving DecidableEq

structure Period where
  since : Int
  till : Int
  nodes : List QueueNode
deriving DecidableEq

/-- The service between two calls. Below its own state stands what has come
of the calls so far. -/
structure MatchQueueService where
  queue : MatchQueue := {}
  armedAt : Option Int := none
  clock : Int
  /-- The arguments of the CreateSession calls. -/
  sessions : List (List SessionParticipant) := []
  /-- The SendErrorToUser calls. -/
  errors : List (Int × Error) := []
  joins : List Joining := []
  cancelled : List (Int × QueueNode) := []
  timedOut : List QueueNode := []
  matched : List (QueueNode × QueueNode) := []
  past : List Period := []
deriving DecidableEq

namespace MatchQueueService

def queueTimeout : Error := ⟨"queue_timeout", "매칭 타임아웃이 발생했습니다"⟩

def participants (pair : QueueNode × QueueNode) : List SessionParticipant :=
  (both pair).map fun node => ⟨node.entry.user.userId, node.entry.user.username⟩

def join (defaultTimeout : Int) (s : MatchQueueService) (user : AuthUser) (timeout : Int) (inSession : Bool)
    (now : Int) : Except Error MatchQueueService :=
  if user.userId ∈ s.queue.userIndex ∨ inSession = true then
    .error ⟨"queue_duplicate", "이미 큐에 있거나 세션에 참여 중입니다"⟩
  else
    let queue := s.queue.push defaultTimeout user timeout now
    .ok { s with
      queue := queue
      armedAt := if s.queue.timerActive then s.armedAt else some now
      joins := s.joins ++ (missing queue.queue s.queue.queue).map fun node => ⟨node, s.queue.queue⟩ }

def cancel (s : MatchQueueService) (userId : Int) : Except Error MatchQueueService :=
  match s.queue.cancel userId with
  | none => .error ⟨"queue_not_found", "대기열에 존재하지 않습니다"⟩
  | some queue =>
    .ok { s with
      queue := queue
      cancelled := s.cancelled ++ (missing s.queue.queue queue.queue).map fun node => (userId, node) }

def onTick (s : MatchQueueService) (ok : Bool) (now : Int) : MatchQueueService :=
  if ok then
    let (swept, uids) := s.queue.handleTimeouts now
    let (queue, pairs) := swept.pairIfPossible
    { s with
      queue := queue
      armedAt := some now
      sessions := s.sessions ++ pairs.map participants
      errors := s.errors ++ uids.map fun uid => (uid, queueTimeout)
      timedOut := s.timedOut ++ missing s.queue.queue swept.queue
      matched := s.matched ++ pairs }
  else { s with armedAt := none }

inductive Call
  | join (user : AuthUser) (timeout : Int) (inSession : Bool) (now : Int)
  | cancel (userId : Int) (now : Int)
  | onTick (ok : Bool) (now : Int)
deriving DecidableEq

def Call.now : Call → Int
  | .join _ _ _ now | .cancel _ now | .onTick _ now => now

def pass (s : MatchQueueService) (now : Int) : MatchQueueService :=
  { s with clock := now, past := s.past ++ [⟨s.clock, now, s.queue.queue⟩] }

/-- The calls hold the mutex one after the other. A refused call changes
nothing. -/
def step (defaultTimeout : Int) (s : MatchQueueService) (call : Call) : Option MatchQueueService :=
  if s.clock ≤ call.now then
    let s := s.pass call.now
    match call with
    | .join user timeout inSession now =>
      match s.join defaultTimeout user timeout inSession now with
      | .ok t => some t
      | .error _ => some s
    | .cancel userId _ =>
      match s.cancel userId with
      | .ok t => some t
      | .error _ => some s
    | .onTick ok now => some (s.onTick ok now)
  else none

def service (defaultTimeout start : Int) : Machine MatchQueueService Call where
  init := { clock := start }
  step := step defaultTimeout

/-- Every entry that ever got into the queue is in exactly one place, and is
numbered in the order of the Joins. -/
structure Accounts (s : MatchQueueService) : Prop where
  numbered : s.joins.map (·.node.addr) = List.range s.joins.length
  ordered : (s.queue.queue.map (·.addr)).Pairwise (· < ·)
  once : (s.joins.map (·.node)).Perm
    (s.queue.queue ++ s.cancelled.map (·.2) ++ s.timedOut ++ s.matched.flatMap both)
  own : ∀ c ∈ s.cancelled, c.2.userId = c.1
  told : s.errors = s.timedOut.map fun node => (node.userId, queueTimeout)
  placed : s.sessions = s.matched.map participants

structure Inv (s : MatchQueueService) : Prop extends s.Accounts where
  indexed : s.queue.Indexed
  free : s.queue.holder = .free
  next : s.queue.nextAddr = s.joins.length

structure JoinDone (defaultTimeout : Int) (s t : MatchQueueService) (user : AuthUser) (timeout now : Int)
    (node : QueueNode) : Prop where
  entry : node.entry = ⟨user, Clock.addSeconds now (if timeout ≤ 0 then defaultTimeout else timeout), now⟩
  number : node.addr = s.joins.length
  stranger : ∀ other ∈ s.queue.queue, other.userId ≠ user.userId
  joins : t.joins = s.joins ++ [⟨node, s.queue.queue⟩]
  queue : t.queue.queue = s.queue.queue ++ [node]

structure CancelDone (s t : MatchQueueService) (userId : Int) (node : QueueNode) : Prop where
  waiting : node ∈ s.queue.queue
  owner : node.userId = userId
  queue : t.queue.queue = s.queue.queue.filter (· ≠ node)
  cancelled : t.cancelled = s.cancelled ++ [(userId, node)]

/-- What a tick has done: the entries whose time is up are timed out, those
left are matched two by two from the front, and one remains at most. -/
structure TickDone (s t : MatchQueueService) (now : Int) : Prop where
  timedOut : t.timedOut = s.timedOut ++ s.queue.queue.filter (fun node => node.entry.expiresAt ≤ now)
  matched : ∃ pairs, t.matched = s.matched ++ pairs ∧
    pairs.flatMap both ++ t.queue.queue = s.queue.queue.filter (fun node => now < node.entry.expiresAt) ∧
    ∀ pair ∈ pairs, ∀ left ∈ t.queue.queue, pair.1.addr < left.addr ∧ pair.2.addr < left.addr
  left : t.queue.queue.length ≤ 1

theorem inv_init (start : Int) : ({ clock := start } : MatchQueueService).Inv where
  numbered := rfl
  ordered := .nil
  once := .refl _
  own := by simp
  told := rfl
  placed := rfl
  indexed := .empty
  free := rfl
  next := rfl

theorem Inv.pass {s : MatchQueueService} (h : s.Inv) (now : Int) : (s.pass now).Inv :=
  ⟨⟨h.numbered, h.ordered, h.once, h.own, h.told, h.placed⟩, h.indexed, h.free, h.next⟩

section Join

variable {defaultTimeout timeout now : Int} {user : AuthUser} {inSession : Bool} {s t : MatchQueueService}
  (h : s.Inv) (hj : s.join defaultTimeout user timeout inSession now = .ok t)

include h hj

theorem Inv.join_done : ∃ node, JoinDone defaultTimeout s t user timeout now node := by
  rw [MatchQueueService.join] at hj
  split at hj
  next => cases hj
  next hok =>
    cases hj
    rw [not_or, h.indexed.mem_index] at hok
    have hfresh : ∀ entry, (⟨s.queue.nextAddr, entry⟩ : QueueNode) ∉ s.queue.queue := by
      intro entry hin
      exact Nat.lt_irrefl _ (h.indexed.fresh _ hin)
    refine ⟨⟨s.queue.nextAddr, _⟩, rfl, h.next, ?_, ?_, rfl⟩
    · intro other ho he
      exact hok.1 (List.mem_map.mpr ⟨other, ho, he⟩)
    · simp only [push, missing_concat (hfresh _), List.map_singleton]

theorem Inv.join : t.Inv := by
  obtain ⟨node, hd⟩ := h.join_done hj
  rw [MatchQueueService.join] at hj
  split at hj
  next => cases hj
  next hok =>
    cases hj
    rw [not_or, h.indexed.mem_index] at hok
    refine ⟨⟨?_, ?_, ?_, h.own, h.told, h.placed⟩, ?_, h.free, ?_⟩
    · rw [hd.joins, List.map_append, h.numbered, List.length_append]
      simp [List.range_succ, hd.number]
    · rw [hd.queue, List.map_append]
      refine List.pairwise_append.mpr ⟨h.ordered, List.pairwise_singleton _ _, ?_⟩
      intro a ha b hb
      obtain ⟨other, ho, rfl⟩ := List.mem_map.mp ha
      have hlt := h.indexed.fresh other ho
      simp only [List.map_singleton, List.mem_singleton] at hb
      rw [hb, hd.number, ← h.next]
      exact hlt
    · rw [hd.joins, hd.queue]
      apply List.perm_iff_count.mpr
      intro a
      have hcount := h.once.count_eq a
      simp only [List.map_append, List.map_singleton, List.count_append] at hcount ⊢
      omega
    · have hpush := h.indexed.push defaultTimeout user timeout now hok.1
      rw [← h.free] at hpush
      exact hpush
    · rw [hd.joins, List.length_append]
      exact congrArg (· + 1) h.next

end Join

section Cancel

variable {userId : Int} {s t : MatchQueueService} (h : s.Inv) (hc : s.cancel userId = .ok t)

include h hc

theorem Inv.cancel_done : ∃ node, CancelDone s t userId node := by
  rw [MatchQueueService.cancel] at hc
  split at hc
  next => cases hc
  next queue hq =>
    cases hc
    obtain ⟨node, hn, hu, hqueue, -⟩ := h.indexed.cancel_node hq
    refine ⟨node, hn, hu, hqueue, ?_⟩
    rw [hqueue, missing_one h.indexed.addrs.of_map hn]
    rfl

theorem Inv.cancel : t.Inv := by
  obtain ⟨node, hd⟩ := h.cancel_done hc
  have hgone := missing_one h.indexed.addrs.of_map hd.waiting
  have hperm := keep_missing_perm s.queue.queue (· ≠ node)
  rw [hgone, ← hd.queue] at hperm
  rw [MatchQueueService.cancel] at hc
  split at hc
  next => cases hc
  next queue hq =>
    cases hc
    obtain ⟨hindexed, hholder, -⟩ := h.indexed.cancel hq
    obtain ⟨-, -, -, -, hnext⟩ := h.indexed.cancel_node hq
    refine ⟨⟨h.numbered, ?_, ?_, ?_, h.told, h.placed⟩, hindexed, hholder.trans h.free, hnext.trans h.next⟩
    · rw [hd.queue]
      exact h.ordered.sublist (List.filter_sublist.map _)
    · rw [hd.cancelled]
      apply List.perm_iff_count.mpr
      intro a
      have hcount := h.once.count_eq a
      have hsplit := hperm.count_eq a
      simp only [List.map_append, List.map_singleton, List.count_append] at hcount hsplit ⊢
      omega
    · rw [hd.cancelled]
      intro c hin
      rcases List.mem_append.mp hin with hin | hin
      · exact h.own c hin
      · rw [List.mem_singleton.mp hin]
        exact hd.owner

end Cancel

section Tick

variable {s : MatchQueueService} (h : s.Inv) (now : Int)

include h

theorem Inv.tick_done : TickDone s (s.onTick true now) now := by
  obtain ⟨hswept, -⟩ := handleTimeouts_queue s.queue now
  have horder := pairUp_order (s.queue.handleTimeouts now).1.queue (s.queue.handleTimeouts now).1.userIndex
  refine ⟨?_, ⟨_, rfl, ?_, ?_⟩, horder.2⟩
  · simp only [onTick, if_true, hswept, missing_filter, filter_due]
  · rw [← hswept]
    exact horder.1
  · intro pair hp left hl
    have hsorted : ((s.queue.handleTimeouts now).1.queue.map (·.addr)).Pairwise (· < ·) := by
      rw [hswept]
      exact h.ordered.sublist (List.filter_sublist.map _)
    rw [← horder.1, List.map_append, List.pairwise_append] at hsorted
    have hbefore : ∀ node ∈ both pair, node.addr < left.addr := by
      intro node hn
      refine hsorted.2.2 node.addr (List.mem_map.mpr ⟨node, ?_, rfl⟩) left.addr (List.mem_map.mpr ⟨left, hl, rfl⟩)
      exact List.mem_flatMap.mpr ⟨pair, hp, hn⟩
    exact ⟨hbefore pair.1 (by simp [both]), hbefore pair.2 (by simp [both])⟩

theorem Inv.onTick (ok : Bool) : (s.onTick ok now).Inv := by
  cases ok with
  | false => exact ⟨⟨h.numbered, h.ordered, h.once, h.own, h.told, h.placed⟩, h.indexed, h.free, h.next⟩
  | true =>
      obtain ⟨hswept, huids⟩ := handleTimeouts_queue s.queue now
      have hdone := h.tick_done now
      obtain ⟨hindexed, hholder, -⟩ := h.indexed.handleTimeouts now
      obtain ⟨pairs, hmatched, hqueue, -⟩ := hdone.matched
      refine ⟨⟨h.numbered, ?_, ?_, h.own, ?_, ?_⟩, hindexed.pairIfPossible (hholder.trans h.free), ?_, ?_⟩
      · have hsub : (s.queue.queue.filter (fun node => decide (now < node.entry.expiresAt))).Sublist s.queue.queue :=
          List.filter_sublist
        have hsorted := h.ordered.sublist (hsub.map _)
        rw [← hqueue, List.map_append, List.pairwise_append] at hsorted
        exact hsorted.2.1
      · have hperm := keep_missing_perm s.queue.queue (fun node => decide (now < node.entry.expiresAt))
        rw [missing_filter, filter_due, ← hqueue] at hperm
        rw [hdone.timedOut, hmatched]
        apply List.perm_iff_count.mpr
        intro a
        have hcount := h.once.count_eq a
        have hsplit := hperm.count_eq a
        simp only [List.flatMap_append, List.count_append] at hcount hsplit ⊢
        have hjoins : (s.onTick true now).joins = s.joins := rfl
        have hcancelled : (s.onTick true now).cancelled = s.cancelled := rfl
        rw [hjoins, hcancelled]
        omega
      · rw [hdone.timedOut, List.map_append, ← h.told]
        simp only [MatchQueueService.onTick, if_true, huids, List.map_map]
        rfl
      · simp only [MatchQueueService.onTick, if_true, List.map_append, ← h.placed]
      · exact hholder.trans h.free
      · exact h.next

end Tick

def CallDone (defaultTimeout : Int) (s t : MatchQueueService) : Call → Prop
  | .join user timeout inSession now =>
    (∃ node, JoinDone defaultTimeout s t user timeout now node) ∨
      (t = s.pass now ∧ (user.userId ∈ s.queue.userIds ∨ inSession = true))
  | .cancel userId now =>
    (∃ node, CancelDone s t userId node) ∨ (t = s.pass now ∧ userId ∉ s.queue.userIds)
  | .onTick true now => TickDone s t now
  | .onTick false now => t = { s.pass now with armedAt := none }

theorem step_done {defaultTimeout : Int} {s t : MatchQueueService} {call : Call} (h : s.Inv)
    (hs : s.step defaultTimeout call = some t) : t.Inv ∧ CallDone defaultTimeout s t call := by
  have hpass := h.pass call.now
  rw [step] at hs
  split at hs
  next =>
    cases call with
    | join user timeout inSession now =>
        simp only at hs
        split at hs
        next hj =>
          cases hs
          obtain ⟨node, hd⟩ := hpass.join_done hj
          exact ⟨hpass.join hj, Or.inl ⟨node, hd.entry, hd.number, hd.stranger, hd.joins, hd.queue⟩⟩
        next hj =>
          cases hs
          refine ⟨hpass, Or.inr ⟨rfl, ?_⟩⟩
          rw [join] at hj
          split at hj
          next hrefused => exact hrefused.imp_left (h.indexed.mem_index _).mp
          next => cases hj
    | cancel userId now =>
        simp only at hs
        split at hs
        next hc =>
          cases hs
          obtain ⟨node, hd⟩ := hpass.cancel_done hc
          exact ⟨hpass.cancel hc, Or.inl ⟨node, hd.waiting, hd.owner, hd.queue, hd.cancelled⟩⟩
        next hc =>
          cases hs
          refine ⟨hpass, Or.inr ⟨rfl, ?_⟩⟩
          rw [cancel] at hc
          split at hc
          next hnone =>
            rw [← h.indexed.mem_index, ← AList.lookup_eq_none]
            rw [MatchQueue.cancel] at hnone
            split at hnone
            next hl => exact hl
            next => cases hnone
          next => cases hc
    | onTick ok now =>
        cases hs
        cases ok with
        | false => exact ⟨hpass.onTick now false, rfl⟩
        | true =>
            have hd := hpass.tick_done now
            exact ⟨hpass.onTick now true, hd.timedOut, hd.matched, hd.left⟩
  next => cases hs

theorem reachable_inv {defaultTimeout start : Int} {s : MatchQueueService}
    (h : (service defaultTimeout start).Reachable s) : s.Inv := by
  refine Machine.Leads.preserves ?_ h (inv_init start)
  intro s call t hi hs
  exact (step_done hi hs).1

/-- In every run each entry is in one place: in the queue, cancelled by its
user, timed out with one error to its user, or in one of the sessions. A tick
takes out those whose time is up and matches the others in order. -/
theorem entries_accounted {defaultTimeout start : Int} {s : MatchQueueService}
    (h : (service defaultTimeout start).Reachable s) :
    s.Accounts ∧ ∀ call t, (service defaultTimeout start).step s call = some t →
      CallDone defaultTimeout s t call :=
  ⟨(reachable_inv h).toAccounts, fun _ _ hs => (step_done (reachable_inv h) hs).2⟩

/-- One of four entries runs out, one was cancelled and its user is back, and
the two that are left make a session. -/
theorem entries_accounted_run : ∃ s, (service 10 0).run
    [.join ⟨1, "kim"⟩ 1 false 0, .join ⟨2, "lee"⟩ 0 false 0, .join ⟨3, "han"⟩ 0 false 5, .cancel 2 7,
      .join ⟨2, "lee"⟩ 0 false 8, .onTick true 1000000000] = some s ∧
      s.timedOut.map (·.userId) = [1] ∧ s.sessions = [[⟨3, "han"⟩, ⟨2, "lee"⟩]] ∧ s.queue.queue = [] ∧
      s.Accounts := by
  obtain ⟨s, hs, hr, hout, hsessions, hqueue⟩ := Machine.exists_of_run (M := service 10 0)
    [.join ⟨1, "kim"⟩ 1 false 0, .join ⟨2, "lee"⟩ 0 false 0, .join ⟨3, "han"⟩ 0 false 5, .cancel 2 7,
      .join ⟨2, "lee"⟩ 0 false 8, .onTick true 1000000000]
    (fun s => s.timedOut.map (·.userId) = [1] ∧ s.sessions = [[⟨3, "han"⟩, ⟨2, "lee"⟩]] ∧ s.queue.queue = [])
    (by decide)
  exact ⟨s, hs, hout, hsessions, hqueue, (entries_accounted hr).1⟩

end MatchQueueService

end GameServer
