import GameServer.Table
import Mathlib.Algebra.Order.Ring.Int
import Mathlib.Data.List.Sort

namespace GameServer

structure InputCommand where
  userId : Int := 0
  targetTick : Int := 0
  delta : Int := 0
  sequence : Nat := 0
deriving DecidableEq, Repr

structure ValidationResult where
  accepted : Bool := false
  reason : String := ""
deriving DecidableEq, Repr

structure PlayerState where
  position : Int := 0
  lastSequence : Nat := 0
deriving DecidableEq, Repr

instance : Inhabited PlayerState := ⟨{}⟩

structure UserTracker where
  lastSequence : Nat := 0
  perTickCount : Table Int Int := ∅
deriving DecidableEq

instance : Inhabited UserTracker := ⟨{}⟩

def UserTracker.accept (tracker : UserTracker) (input : InputCommand) : UserTracker where
  lastSequence := input.sequence
  perTickCount := tracker.perTickCount.insert input.targetTick
    (Table.index tracker.perTickCount input.targetTick + 1)

/-- Positions, ticks and counters are integers without a width. That they fit
the source's int is a theorem about sessions of up to 178956970 ticks; of longer
ones everything is said as long as no position overflows. -/
structure Simulation where
  currentTick : Int := 0
  inputsByTick : Table Int (List InputCommand) := ∅
  trackers : Table Int UserTracker := ∅
  players : Table Int PlayerState := ∅
deriving DecidableEq

structure PlayerView where
  userId : Int
  position : Int
  lastSequence : Nat
deriving DecidableEq, Repr

structure Snapshot where
  tick : Int
  players : List PlayerView
deriving DecidableEq, Repr

namespace Simulation

def kMaxInputsPerTickPerUser : Int := 4

def kMaxDelta : Int := 3

def validateInput (s : Simulation) (input : InputCommand) : Except String Unit :=
  if input.targetTick ≤ s.currentTick then .error "stale_tick"
  else if input.delta > kMaxDelta ∨ input.delta < -kMaxDelta then .error "delta_out_of_range"
  else if input.sequence = 0 then .error "sequence_required"
  else match s.trackers.lookup input.userId with
    | none => .ok ()
    | some tracker =>
      if input.sequence ≤ tracker.lastSequence then .error "sequence_not_monotonic"
      else match tracker.perTickCount.lookup input.targetTick with
        | none => .ok ()
        | some count => if count ≥ kMaxInputsPerTickPerUser then .error "tick_input_limit" else .ok ()

def push (s : Simulation) (input : InputCommand) : Simulation :=
  { s with
    trackers := s.trackers.insert input.userId ((s.trackers.index input.userId).accept input)
    inputsByTick := s.inputsByTick.insert input.targetTick
      (s.inputsByTick.index input.targetTick ++ [input]) }

def enqueueInput (s : Simulation) (input : InputCommand) : Simulation × ValidationResult :=
  match s.validateInput input with
  | .error reason => (s, { accepted := false, reason := reason })
  | .ok () => (s.push input, { accepted := true, reason := "" })

def addPlayer (s : Simulation) (userId : Int) : Simulation :=
  if userId ∈ s.players then s else { s with players := s.players.insert userId {} }

def applyEvent (players : Table Int PlayerState) (input : InputCommand) : Table Int PlayerState :=
  let state := players.index input.userId
  players.insert input.userId
    { position := state.position + input.delta, lastSequence := input.sequence }

/-- The comparison the events of one tick are stably sorted by. -/
def comesBefore (lhs rhs : InputCommand) : Prop :=
  if lhs.sequence = rhs.sequence then lhs.userId < rhs.userId else lhs.sequence < rhs.sequence

instance : DecidableRel comesBefore := fun lhs rhs =>
  inferInstanceAs (Decidable
    (if lhs.sequence = rhs.sequence then lhs.userId < rhs.userId else lhs.sequence < rhs.sequence))

def NotAfter (lhs rhs : InputCommand) : Prop := ¬ comesBefore rhs lhs

instance : DecidableRel NotAfter := fun lhs rhs => inferInstanceAs (Decidable (¬ comesBefore rhs lhs))

def stableSort (events : List InputCommand) : List InputCommand := events.insertionSort NotAfter

def tickOnce (s : Simulation) : Simulation :=
  let tick := s.currentTick + 1
  match s.inputsByTick.lookup tick with
  | none => { s with currentTick := tick }
  | some events =>
    { s with
      currentTick := tick
      players := (stableSort events).foldl applyEvent s.players
      inputsByTick := s.inputsByTick.erase tick }

def nextEvents (s : Simulation) : List InputCommand := stableSort (s.inputsByTick.index (s.currentTick + 1))

def snapshot (s : Simulation) : Snapshot where
  tick := s.currentTick
  players := (s.players.keys.insertionSort (· ≤ ·)).map fun userId =>
    { userId := userId
      position := (s.players.index userId).position
      lastSequence := (s.players.index userId).lastSequence }

def lastSequence (s : Simulation) (userId : Int) : Nat := (s.trackers.index userId).lastSequence

def tickCount (s : Simulation) (userId tick : Int) : Int :=
  Table.index (s.trackers.index userId).perTickCount tick

/-- A missing tracker reads as one with no sequence and no input counted, so
the lookups that may fail drop out of the acceptance condition. -/
theorem validateInput_ok_iff (s : Simulation) (input : InputCommand) :
    s.validateInput input = .ok () ↔
      s.currentTick < input.targetTick ∧ (-3 ≤ input.delta ∧ input.delta ≤ 3) ∧ input.sequence ≠ 0 ∧
        s.lastSequence input.userId < input.sequence ∧ s.tickCount input.userId input.targetTick < 4 := by
  rw [validateInput, lastSequence, tickCount]
  by_cases htick : input.targetTick ≤ s.currentTick
  · simp only [htick, if_true, reduceCtorEq, false_iff]
    omega
  by_cases hdelta : input.delta > kMaxDelta ∨ input.delta < -kMaxDelta
  · simp only [htick, hdelta, if_true, if_false, reduceCtorEq, false_iff]
    rw [kMaxDelta] at hdelta
    omega
  by_cases hseq : input.sequence = 0
  · simp [htick, hdelta, hseq]
  have hrange : -3 ≤ input.delta ∧ input.delta ≤ 3 := by
    rw [kMaxDelta] at hdelta
    omega
  have hahead : s.currentTick < input.targetTick := by omega
  simp only [htick, hdelta, hseq, if_false]
  cases ht : s.trackers.lookup input.userId with
  | none =>
      have hd : s.trackers.index input.userId = {} := by simp [Table.index, ht]; rfl
      simp [hd, hahead, hrange, hseq, Nat.pos_of_ne_zero hseq]
  | some tracker =>
      rw [Table.index_eq_of_lookup ht]
      by_cases hmono : input.sequence ≤ tracker.lastSequence
      · simp only [hmono, if_true, reduceCtorEq, false_iff]
        omega
      simp only [hmono, if_false]
      cases hc : tracker.perTickCount.lookup input.targetTick with
      | none =>
          have hz : Table.index tracker.perTickCount input.targetTick = 0 := by simp [Table.index, hc]
          simp [hz, hahead, hrange, hseq, Nat.lt_of_not_le hmono]
      | some count =>
          rw [Table.index_eq_of_lookup hc]
          by_cases hlimit : count ≥ kMaxInputsPerTickPerUser
          · simp only [hlimit, if_true, reduceCtorEq, false_iff]
            rw [kMaxInputsPerTickPerUser] at hlimit
            omega
          · rw [kMaxInputsPerTickPerUser] at hlimit ⊢
            simp only [ge_iff_le, hlimit, ↓reduceIte, hahead, Int.reduceNeg, hrange, and_self, ne_eq, hseq,
              not_false_eq_true, Nat.lt_of_not_le hmono, true_and, true_iff, gt_iff_lt]
            omega

theorem enqueueInput_of_ok {s : Simulation} {input : InputCommand} (h : s.validateInput input = .ok ()) :
    s.enqueueInput input = (s.push input, { accepted := true, reason := "" }) := by
  simp [enqueueInput, h]

theorem enqueueInput_accepted (s : Simulation) (input : InputCommand) :
    (s.enqueueInput input).2.accepted = true ↔ s.validateInput input = .ok () := by
  rw [enqueueInput]
  cases s.validateInput input <;> simp

theorem enqueueInput_rejected {s : Simulation} {input : InputCommand}
    (h : (s.enqueueInput input).2.accepted = false) : (s.enqueueInput input).1 = s := by
  rw [enqueueInput] at h ⊢
  cases hv : s.validateInput input with
  | error reason => rfl
  | ok u => simp [hv] at h

@[simp] theorem push_players (s : Simulation) (input : InputCommand) :
    (s.push input).players = s.players := rfl

theorem push_lookup (s : Simulation) (input : InputCommand) (t : Int) :
    (s.push input).inputsByTick.lookup t =
      if t = input.targetTick then some (s.inputsByTick.index input.targetTick ++ [input])
      else s.inputsByTick.lookup t :=
  Table.lookup_insert_eq _ _ _ _

theorem push_lastSequence (s : Simulation) (input : InputCommand) (u : Int) :
    (s.push input).lastSequence u = if u = input.userId then input.sequence else s.lastSequence u := by
  simp only [lastSequence, push, Table.index_insert]
  split <;> rfl

theorem push_tickCount (s : Simulation) (input : InputCommand) (u t : Int) :
    (s.push input).tickCount u t =
      s.tickCount u t + if u = input.userId ∧ t = input.targetTick then 1 else 0 := by
  simp only [tickCount, push, Table.index_insert]
  by_cases hu : u = input.userId
  · subst hu
    by_cases ht : t = input.targetTick
    · subst ht
      simp [UserTracker.accept, Table.index_insert]
    · simp [UserTracker.accept, Table.index_insert, ht]
  · simp [hu]

theorem index_push (s : Simulation) (input : InputCommand) (t : Int) :
    (s.push input).inputsByTick.index t =
      if t = input.targetTick then s.inputsByTick.index input.targetTick ++ [input] else s.inputsByTick.index t :=
  Table.index_insert _ _ _ _

@[simp] theorem addPlayer_currentTick (s : Simulation) (u : Int) :
    (s.addPlayer u).currentTick = s.currentTick := by
  rw [addPlayer]
  split <;> rfl

@[simp] theorem addPlayer_inputsByTick (s : Simulation) (u : Int) :
    (s.addPlayer u).inputsByTick = s.inputsByTick := by
  rw [addPlayer]
  split <;> rfl

@[simp] theorem addPlayer_trackers (s : Simulation) (u : Int) :
    (s.addPlayer u).trackers = s.trackers := by
  rw [addPlayer]
  split <;> rfl

theorem mem_addPlayer (s : Simulation) (u v : Int) :
    v ∈ (s.addPlayer u).players ↔ v = u ∨ v ∈ s.players := by
  rw [addPlayer]
  split
  next h => exact ⟨Or.inr, fun hv => hv.elim (fun he => he ▸ h) id⟩
  next h => exact AList.mem_insert _

@[simp] theorem index_addPlayer (s : Simulation) (u v : Int) :
    (s.addPlayer u).players.index v = s.players.index v := by
  rw [addPlayer]
  split
  next => rfl
  next h => exact Table.apply_index_insert h id rfl v

@[simp] theorem tickOnce_currentTick (s : Simulation) : s.tickOnce.currentTick = s.currentTick + 1 := by
  unfold tickOnce
  cases h : s.inputsByTick.lookup (s.currentTick + 1) <;> simp [h]

@[simp] theorem tickOnce_trackers (s : Simulation) : s.tickOnce.trackers = s.trackers := by
  unfold tickOnce
  cases h : s.inputsByTick.lookup (s.currentTick + 1) <;> simp [h]

theorem tickOnce_players (s : Simulation) :
    s.tickOnce.players = (stableSort (s.inputsByTick.index (s.currentTick + 1))).foldl applyEvent s.players := by
  unfold tickOnce Table.index
  cases h : s.inputsByTick.lookup (s.currentTick + 1) with
  | none => simp only [h, Option.getD_none]; rfl
  | some events => simp only [h, Option.getD_some]

theorem tickOnce_lookup (s : Simulation) (t : Int) :
    s.tickOnce.inputsByTick.lookup t = if t = s.currentTick + 1 then none else s.inputsByTick.lookup t := by
  unfold tickOnce
  cases h : s.inputsByTick.lookup (s.currentTick + 1) with
  | none =>
      by_cases ht : t = s.currentTick + 1
      · subst ht; simp [h]
      · simp [h, ht]
  | some events => simpa [h] using Table.lookup_erase_eq _ _ _

theorem index_tickOnce (s : Simulation) (t : Int) :
    s.tickOnce.inputsByTick.index t = if t = s.currentTick + 1 then [] else s.inputsByTick.index t := by
  rw [Table.index, tickOnce_lookup]
  split <;> rfl

theorem mem_nextEvents (s : Simulation) (input : InputCommand) :
    input ∈ s.nextEvents ↔ input ∈ s.inputsByTick.index (s.currentTick + 1) :=
  List.mem_insertionSort _

theorem foldl_applyEvent_position (events : List InputCommand) (players : Table Int PlayerState) (u : Int) :
    ((events.foldl applyEvent players).index u).position =
      (players.index u).position + ((events.filter (·.userId = u)).map (·.delta)).sum := by
  induction events generalizing players with
  | nil => simp
  | cons e events ih =>
      rw [List.foldl_cons, ih, applyEvent, Table.index_insert]
      by_cases hu : e.userId = u
      · subst hu; simp [Int.add_assoc]
      · simp [hu, Ne.symm hu]

theorem foldl_applyEvent_lastSequence (events : List InputCommand) (players : Table Int PlayerState) (u : Int) :
    ((events.foldl applyEvent players).index u).lastSequence =
      ((events.filter (·.userId = u)).getLast?.map (·.sequence)).getD (players.index u).lastSequence := by
  induction events generalizing players with
  | nil => simp
  | cons e events ih =>
      rw [List.foldl_cons, ih, applyEvent, Table.index_insert]
      by_cases hu : e.userId = u
      · subst hu
        simp only [if_true, decide_true, List.filter_cons_of_pos, List.getLast?_cons]
        cases (events.filter (·.userId = e.userId)).getLast? <;> rfl
      · simp [hu, Ne.symm hu]

theorem mem_foldl_applyEvent (events : List InputCommand) (players : Table Int PlayerState) (u : Int) :
    u ∈ events.foldl applyEvent players ↔ u ∈ players ∨ ∃ e ∈ events, e.userId = u := by
  induction events generalizing players with
  | nil => simp
  | cons e events ih =>
      rw [List.foldl_cons, ih, applyEvent, AList.mem_insert]
      simp only [List.mem_cons, exists_eq_or_imp, eq_comm (a := e.userId)]
      tauto

theorem notAfter_total (a b : InputCommand) : NotAfter a b ∨ NotAfter b a := by
  simp only [NotAfter, comesBefore]
  split <;> split <;> omega

theorem notAfter_trans {a b c : InputCommand} (hab : NotAfter a b) (hbc : NotAfter b c) : NotAfter a c := by
  simp only [NotAfter, comesBefore] at *
  split at hab <;> split at hbc <;> split <;> omega

theorem NotAfter.sequence_le {a b : InputCommand} (h : NotAfter a b) : a.sequence ≤ b.sequence := by
  rw [NotAfter, comesBefore] at h
  split at h <;> omega

theorem stableSort_perm (events : List InputCommand) : (stableSort events).Perm events :=
  List.perm_insertionSort _ _

theorem stableSort_sorted (events : List InputCommand) : (stableSort events).Pairwise NotAfter := by
  have : Std.Total NotAfter := ⟨notAfter_total⟩
  have : IsTrans InputCommand NotAfter := ⟨fun _ _ _ => notAfter_trans⟩
  exact List.pairwise_insertionSort _ events

theorem snapshot_userIds (s : Simulation) :
    s.snapshot.players.map (·.userId) = s.players.keys.insertionSort (· ≤ ·) := by
  simp [snapshot, Function.comp_def]

theorem snapshot_ascending (s : Simulation) : (s.snapshot.players.map (·.userId)).Pairwise (· < ·) := by
  rw [snapshot_userIds]
  have hnodup : (s.players.keys.insertionSort (· ≤ ·)).Nodup :=
    (List.perm_insertionSort _ _).nodup_iff.mpr s.players.keys_nodup
  have hsorted := List.pairwise_insertionSort (· ≤ ·) s.players.keys
  exact (hsorted.and hnodup).imp (fun h => lt_of_le_of_ne h.1 h.2)

theorem mem_snapshot_userIds (s : Simulation) (u : Int) :
    u ∈ s.snapshot.players.map (·.userId) ↔ u ∈ s.players := by
  rw [snapshot_userIds, List.mem_insertionSort, AList.mem_keys]

theorem mem_snapshot (s : Simulation) {view : PlayerView} (h : view ∈ s.snapshot.players) :
    view.position = (s.players.index view.userId).position ∧
      view.lastSequence = (s.players.index view.userId).lastSequence := by
  obtain ⟨u, _, rfl⟩ := List.mem_map.mp h
  exact ⟨rfl, rfl⟩

end Simulation

end GameServer
