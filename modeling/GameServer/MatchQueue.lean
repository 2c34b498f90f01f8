import GameServer.Clock
import GameServer.Table

namespace GameServer

structure AuthUser where
  userId : Int
  username : String
deriving DecidableEq, Repr

structure QueueEntry where
  user : AuthUser
  expiresAt : Int
  joinedAt : Int
deriving DecidableEq, Repr

/-- An element of the linked list. Its address is what an iterator holds. -/
structure QueueNode where
  addr : Nat
  entry : QueueEntry
deriving DecidableEq, Repr

def QueueNode.userId (node : QueueNode) : Int := node.entry.user.userId

/-- Who holds the mutex of the queue, and how far that call has come. -/
inductive Holder
  | free
  | joining (user : AuthUser) (timeout : Int)
  | pairing
  | creating (first second : AuthUser)
deriving DecidableEq, Repr

structure MatchQueue where
  queue : List QueueNode := []
  userIndex : Table Int Nat := ∅
  nextAddr : Nat := 0
  timerActive : Bool := false
  holder : Holder := .free
deriving DecidableEq

namespace MatchQueue

def userIds (q : MatchQueue) : List Int := q.queue.map (·.userId)

def eraseAt (q : MatchQueue) (addr : Nat) : MatchQueue :=
  { q with queue := q.queue.filter (·.addr ≠ addr) }

def push (q : MatchQueue) (defaultTimeout : Int) (user : AuthUser) (timeout now : Int) : MatchQueue :=
  let timeout := if timeout ≤ 0 then defaultTimeout else timeout
  { q with
    queue := q.queue ++ [⟨q.nextAddr, ⟨user, Clock.addSeconds now timeout, now⟩⟩]
    userIndex := q.userIndex.insert user.userId q.nextAddr
    nextAddr := q.nextAddr + 1
    timerActive := true }

def cancel (q : MatchQueue) (userId : Int) : Option MatchQueue :=
  match q.userIndex.lookup userId with
  | none => none
  | some addr =>
    let q := q.eraseAt addr
    some { q with userIndex := q.userIndex.erase userId }

/-- The loop of HandleTimeouts over the list, with the users it sends
queue_timeout to. -/
def sweep (now : Int) : List QueueNode → Table Int Nat → List QueueNode × Table Int Nat × List Int
  | [], index => ([], index, [])
  | node :: rest, index =>
    if node.entry.expiresAt > now then
      let (kept, index, uids) := sweep now rest index
      (node :: kept, index, uids)
    else
      let (kept, index, uids) := sweep now rest (index.erase node.userId)
      (kept, index, node.userId :: uids)

def handleTimeouts (q : MatchQueue) (now : Int) : MatchQueue × List Int :=
  let (queue, index, uids) := sweep now q.queue q.userIndex
  ({ q with queue := queue, userIndex := index }, uids)

def popPair (q : MatchQueue) : Option (MatchQueue × AuthUser × AuthUser) :=
  match q.queue with
  | first :: second :: rest =>
    some ({ q with
      queue := rest
      userIndex := (q.userIndex.erase first.userId).erase second.userId }, first.entry.user, second.entry.user)
  | _ => none

def held (q : MatchQueue) : List Int :=
  match q.holder with
  | .free | .pairing => []
  | .joining user _ => [user.userId]
  | .creating first second => [first.userId, second.userId]

/-- The list and its index agree, and the call under way owns no entry. -/
structure Indexed (q : MatchQueue) : Prop where
  addrs : (q.queue.map (·.addr)).Nodup
  fresh : ∀ node ∈ q.queue, node.addr < q.nextAddr
  distinct : q.userIds.Nodup
  index : ∀ u addr, q.userIndex.lookup u = some addr ↔ ∃ node ∈ q.queue, node.userId = u ∧ node.addr = addr
  held : q.held.Nodup ∧ ∀ u ∈ q.held, u ∉ q.userIds

theorem Indexed.mem_index {q : MatchQueue} (h : q.Indexed) (u : Int) : u ∈ q.userIndex ↔ u ∈ q.userIds := by
  rw [Table.mem_iff_lookup, userIds, List.mem_map]
  constructor
  · rintro ⟨addr, ha⟩
    obtain ⟨node, hn, hu, -⟩ := (h.index u addr).mp ha
    exact ⟨node, hn, hu⟩
  · rintro ⟨node, hn, hu⟩
    exact ⟨node.addr, (h.index u node.addr).mpr ⟨node, hn, hu, rfl⟩⟩

theorem Indexed.empty : ({} : MatchQueue).Indexed where
  addrs := .nil
  fresh := by simp
  distinct := .nil
  index := by simp
  held := ⟨.nil, by simp [MatchQueue.held]⟩

theorem Indexed.handOver {q : MatchQueue} (h : q.Indexed) (holder : Holder)
    (hheld : ({ q with holder := holder } : MatchQueue).held.Nodup)
    (hout : ∀ u ∈ ({ q with holder := holder } : MatchQueue).held, u ∉ q.userIds) :
    ({ q with holder := holder } : MatchQueue).Indexed :=
  ⟨h.addrs, h.fresh, h.distinct, h.index, hheld, hout⟩

theorem Indexed.push {q : MatchQueue} (h : q.Indexed) (defaultTimeout : Int) (user : AuthUser)
    (timeout now : Int) (hu : user.userId ∉ q.userIds) :
    ({ q.push defaultTimeout user timeout now with holder := .free } : MatchQueue).Indexed where
  addrs := by
    simp only [MatchQueue.push, List.map_append, List.map_cons, List.map_nil]
    refine List.nodup_append.mpr ⟨h.addrs, List.nodup_singleton _, ?_⟩
    rintro a ha b hb rfl
    obtain ⟨node, hn, rfl⟩ := List.mem_map.mp ha
    have := h.fresh node hn
    rw [List.mem_singleton] at hb
    omega
  fresh := by
    intro node hn
    rcases List.mem_append.mp hn with hn | hn
    · exact Nat.lt_succ_of_lt (h.fresh node hn)
    · rw [List.mem_singleton.mp hn]
      exact Nat.lt_succ_self _
  distinct := by
    simp only [userIds, MatchQueue.push, List.map_append, List.map_cons, List.map_nil]
    refine List.nodup_append.mpr ⟨h.distinct, List.nodup_singleton _, ?_⟩
    rintro a ha b hb rfl
    have he : a = user.userId := List.mem_singleton.mp hb
    exact hu (he ▸ ha)
  index := by
    intro u addr
    simp only [MatchQueue.push, Table.lookup_insert_eq, List.mem_append, List.mem_singleton]
    by_cases hus : u = user.userId
    · subst hus
      simp only [if_true, Option.some.injEq]
      constructor
      · rintro rfl
        exact ⟨_, Or.inr rfl, rfl, rfl⟩
      · rintro ⟨node, hn | rfl, hnu, rfl⟩
        · exact absurd (List.mem_map.mpr ⟨node, hn, hnu⟩) hu
        · rfl
    · rw [if_neg hus, h.index]
      constructor
      · rintro ⟨node, hn, hnu⟩
        exact ⟨node, Or.inl hn, hnu⟩
      · rintro ⟨node, hn | rfl, hnu⟩
        · exact ⟨node, hn, hnu⟩
        · exact absurd hnu.1.symm hus
  held := ⟨.nil, by simp [MatchQueue.held]⟩

theorem Indexed.restrict {q : MatchQueue} (h : q.Indexed) (keep : QueueNode → Bool) (index : Table Int Nat)
    (hindex : ∀ u, index.lookup u =
      if ∃ node ∈ q.queue, node.userId = u ∧ keep node = false then none else q.userIndex.lookup u) :
    ({ q with queue := q.queue.filter keep, userIndex := index } : MatchQueue).Indexed where
  addrs := h.addrs.sublist (List.filter_sublist.map _)
  fresh := fun node hn => h.fresh node (List.mem_of_mem_filter hn)
  distinct := h.distinct.sublist (List.filter_sublist.map _)
  index := by
    intro u addr
    simp only [hindex, List.mem_filter]
    by_cases hdrop : ∃ node ∈ q.queue, node.userId = u ∧ keep node = false
    · simp only [hdrop, if_true, reduceCtorEq, false_iff]
      rintro ⟨node, ⟨hn, hkeep⟩, hnu, -⟩
      obtain ⟨other, ho, hou, hok⟩ := hdrop
      have he : node = other := List.inj_on_of_nodup_map h.distinct hn ho (hnu.trans hou.symm)
      rw [he, hok] at hkeep
      cases hkeep
    · rw [if_neg hdrop, h.index]
      constructor
      · rintro ⟨node, hn, hnu, ha⟩
        have hkeep : keep node = true := by
          by_contra hk
          exact hdrop ⟨node, hn, hnu, by simpa using hk⟩
        exact ⟨node, ⟨hn, hkeep⟩, hnu, ha⟩
      · rintro ⟨node, ⟨hn, -⟩, hnu, ha⟩
        exact ⟨node, hn, hnu, ha⟩
  held := ⟨h.held.1, fun u hu hin => h.held.2 u hu ((List.filter_sublist.map _).subset hin)⟩

theorem Indexed.cancel_eq {q r : MatchQueue} (h : q.Indexed) {u : Int} (hc : q.cancel u = some r) :
    ∃ node ∈ q.queue, node.userId = u ∧ (∀ other ∈ q.queue, other.addr = node.addr ↔ other = node) ∧
      r = { q.eraseAt node.addr with userIndex := q.userIndex.erase u } := by
  rw [MatchQueue.cancel] at hc
  cases hl : q.userIndex.lookup u with
  | none => simp [hl] at hc
  | some addr =>
      simp only [hl, Option.some.injEq] at hc
      obtain ⟨node, hn, hnu, rfl⟩ := (h.index u addr).mp hl
      refine ⟨node, hn, hnu, ?_, hc.symm⟩
      intro other ho
      constructor
      · exact fun ha => List.inj_on_of_nodup_map h.addrs ho hn ha
      · rintro rfl
        rfl

theorem Indexed.cancel {q r : MatchQueue} (h : q.Indexed) {u : Int} (hc : q.cancel u = some r) :
    r.Indexed ∧ r.holder = q.holder ∧ ∀ v, v ∈ r.userIds → v ∈ q.userIds := by
  obtain ⟨node, hn, hnu, hsame, rfl⟩ := h.cancel_eq hc
  refine ⟨h.restrict (fun other => decide (other.addr ≠ node.addr)) _ ?_, rfl, ?_⟩
  · intro v
    rw [Table.lookup_erase_eq]
    congr 1
    apply propext
    constructor
    · rintro rfl
      exact ⟨node, hn, hnu, by simp⟩
    · rintro ⟨other, ho, hou, ha⟩
      rw [← hou, ← hnu, (hsame other ho).mp (by simpa using ha)]
  · intro v hv
    exact (List.filter_sublist.map _).subset hv

theorem sweep_queue (now : Int) (nodes : List QueueNode) (index : Table Int Nat) :
    (sweep now nodes index).1 = nodes.filter (fun node => decide (node.entry.expiresAt > now)) := by
  induction nodes generalizing index with
  | nil => rfl
  | cons node rest ih =>
      by_cases hn : node.entry.expiresAt > now <;> simp [sweep, hn, ih]

theorem sweep_uids (now : Int) (nodes : List QueueNode) (index : Table Int Nat) :
    (sweep now nodes index).2.2 =
      (nodes.filter (fun node => decide (node.entry.expiresAt ≤ now))).map (·.userId) := by
  induction nodes generalizing index with
  | nil => rfl
  | cons node rest ih =>
      by_cases hn : node.entry.expiresAt > now
      · simp [sweep, hn, ih, Int.not_le.mpr hn]
      · simp [sweep, hn, ih, Int.not_lt.mp hn]

theorem sweep_lookup (now : Int) (nodes : List QueueNode) (index : Table Int Nat) (u : Int) :
    (sweep now nodes index).2.1.lookup u =
      if u ∈ (sweep now nodes index).2.2 then none else index.lookup u := by
  induction nodes generalizing index with
  | nil => simp [sweep]
  | cons node rest ih =>
      by_cases hn : node.entry.expiresAt > now
      · simp only [sweep, hn, if_true]
        exact ih index
      · simp only [sweep, hn, if_false, List.mem_cons, ih, Table.lookup_erase_eq]
        by_cases hu : u = node.userId
        · simp [hu]
        · simp only [hu, if_false, false_or]

theorem Indexed.handleTimeouts {q : MatchQueue} (h : q.Indexed) (now : Int) :
    (q.handleTimeouts now).1.Indexed ∧ (q.handleTimeouts now).1.holder = q.holder ∧
      ∀ v, v ∈ (q.handleTimeouts now).1.userIds → v ∈ q.userIds := by
  have hq : (q.handleTimeouts now).1 =
      { q with
        queue := q.queue.filter (fun node => decide (node.entry.expiresAt > now))
        userIndex := (sweep now q.queue q.userIndex).2.1 } := by
    simp [MatchQueue.handleTimeouts, sweep_queue]
  rw [hq]
  refine ⟨h.restrict _ _ ?_, rfl, fun v hv => (List.filter_sublist.map _).subset hv⟩
  intro u
  rw [sweep_lookup, sweep_uids]
  congr 1
  simp only [List.mem_map, List.mem_filter, decide_eq_true_eq, decide_eq_false_iff_not, Int.not_lt, gt_iff_lt,
    eq_iff_iff]
  exact ⟨fun ⟨node, ⟨hn, ht⟩, hu⟩ => ⟨node, hn, hu, ht⟩, fun ⟨node, hn, hu, ht⟩ => ⟨node, ⟨hn, ht⟩, hu⟩⟩

theorem Indexed.popPair {q r : MatchQueue} (h : q.Indexed) {a b : AuthUser} (hp : q.popPair = some (r, a, b)) :
    ({ r with holder := .creating a b } : MatchQueue).Indexed ∧ (∀ v, v ∈ r.userIds → v ∈ q.userIds) ∧
      a.userId ∈ q.userIds ∧ b.userId ∈ q.userIds := by
  rw [MatchQueue.popPair] at hp
  split at hp
  next first second rest hqueue =>
    simp only [Option.some.injEq, Prod.mk.injEq] at hp
    obtain ⟨rfl, rfl, rfl⟩ := hp
    have hd := h.distinct
    have ha := h.addrs
    simp only [userIds, hqueue, List.map_cons, List.nodup_cons, List.mem_cons, not_or] at hd ha
    refine ⟨⟨ha.2.2, fun node hn => h.fresh node (by simp [hqueue, hn]), hd.2.2, ?_, ?_, ?_⟩, ?_, ?_, ?_⟩
    · intro u addr
      simp only [Table.lookup_erase_eq]
      by_cases h2 : u = second.userId
      · subst h2
        simp only [if_true, reduceCtorEq, false_iff]
        rintro ⟨node, hn, hnu, -⟩
        exact hd.2.1 (List.mem_map.mpr ⟨node, hn, hnu⟩)
      by_cases h1 : u = first.userId
      · subst h1
        simp only [if_true, ite_self, reduceCtorEq, false_iff]
        rintro ⟨node, hn, hnu, -⟩
        exact hd.1.2 (List.mem_map.mpr ⟨node, hn, hnu⟩)
      rw [if_neg h2, if_neg h1, h.index]
      simp only [hqueue, List.mem_cons]
      constructor
      · rintro ⟨node, rfl | rfl | hn, hnu, hna⟩
        · exact absurd hnu.symm h1
        · exact absurd hnu.symm h2
        · exact ⟨node, hn, hnu, hna⟩
      · rintro ⟨node, hn, hnu⟩
        exact ⟨node, Or.inr (Or.inr hn), hnu⟩
    · simpa [MatchQueue.held, QueueNode.userId] using hd.1.1
    · intro u hu
      simp only [MatchQueue.held, List.mem_cons, List.not_mem_nil, or_false] at hu
      rcases hu with rfl | rfl
      · exact hd.1.2
      · exact hd.2.1
    · intro v hv
      simp only [userIds, hqueue, List.map_cons, List.mem_cons]
      exact Or.inr (Or.inr hv)
    · simp [userIds, hqueue, QueueNode.userId]
    · simp [userIds, hqueue, QueueNode.userId]
  next => cases hp

end MatchQueue

end GameServer
