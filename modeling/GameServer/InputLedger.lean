import GameServer.Simulation
import Mathlib.Algebra.BigOperators.Group.List.Basic

namespace GameServer

open Simulation

/-- What a simulation is for: the players added, the inputs accepted so far in
order of arrival, and the number of ticks that have passed. -/
structure Ledger where
  tick : Int := 0
  added : List Int := []
  accepted : List InputCommand := []

namespace Ledger

def applied (l : Ledger) (u : Int) : List InputCommand :=
  l.accepted.filter (fun i => i.userId = u ∧ i.targetTick ≤ l.tick)

def position (l : Ledger) (u : Int) : Int := ((l.applied u).map (·.delta)).sum

def NotLater (j i : InputCommand) : Prop :=
  j.targetTick < i.targetTick ∨ (j.targetTick = i.targetTick ∧ j.sequence ≤ i.sequence)

def IsLastSequence (l : Ledger) (u : Int) (n : Nat) : Prop :=
  (l.applied u = [] ∧ n = 0) ∨ ∃ i ∈ l.applied u, i.sequence = n ∧ ∀ j ∈ l.applied u, NotLater j i

def pending (l : Ledger) (t : Int) : List InputCommand :=
  if t ≤ l.tick then [] else l.accepted.filter (·.targetTick = t)

def Listed (l : Ledger) (u : Int) : Prop := u ∈ l.added ∨ l.applied u ≠ []

/-- The simulation shows what the ledger says, and stores no input besides the
pending ones. -/
structure Describes (l : Ledger) (s : Simulation) : Prop where
  tick : s.snapshot.tick = l.tick
  ascending : (s.snapshot.players.map (·.userId)).Pairwise (· < ·)
  listed : ∀ u, u ∈ s.snapshot.players.map (·.userId) ↔ l.Listed u
  position : ∀ view ∈ s.snapshot.players, view.position = l.position view.userId
  lastSequence : ∀ view ∈ s.snapshot.players, l.IsLastSequence view.userId view.lastSequence
  pending : ∀ t, s.inputsByTick.lookup t = if l.pending t = [] then none else some (l.pending t)

/-- The invariant that carries the description through a run. The trackers
bound every accepted sequence and count the inputs of each tick. -/
structure Represents (s : Simulation) (l : Ledger) : Prop where
  tick : s.currentTick = l.tick
  listed : ∀ u, u ∈ s.players ↔ l.Listed u
  position : ∀ u, (s.players.index u).position = l.position u
  lastSequence : ∀ u, l.IsLastSequence u (s.players.index u).lastSequence
  pending : ∀ t, s.inputsByTick.lookup t = if l.pending t = [] then none else some (l.pending t)
  bounded : ∀ i ∈ l.accepted, i.sequence ≤ s.lastSequence i.userId
  ordered : l.accepted.Pairwise (fun i j => i.userId = j.userId → i.sequence < j.sequence)
  counted : ∀ u t, s.tickCount u t = (l.accepted.filter (fun i => i.userId = u ∧ i.targetTick = t)).length

theorem Represents.describes {s : Simulation} {l : Ledger} (h : Represents s l) : l.Describes s where
  tick := h.tick
  ascending := s.snapshot_ascending
  listed := fun u => (s.mem_snapshot_userIds u).trans (h.listed u)
  position := fun view hv => (s.mem_snapshot hv).1.trans (h.position view.userId)
  lastSequence := fun view hv => (s.mem_snapshot hv).2 ▸ h.lastSequence view.userId
  pending := h.pending

theorem IsLastSequence.congr {l l' : Ledger} {u : Int} {n : Nat} (h : l.applied u = l'.applied u)
    (hn : l.IsLastSequence u n) : l'.IsLastSequence u n := by
  simp only [IsLastSequence] at *
  rwa [← h]

theorem represents_empty : Represents {} {} where
  tick := rfl
  listed := fun u => by simp [Listed, applied]
  position := fun u => by simp [position, applied]; rfl
  lastSequence := fun u => Or.inl ⟨rfl, by simp; rfl⟩
  pending := fun t => by simp [pending]
  bounded := by simp
  ordered := .nil
  counted := fun u t => by simp [tickCount]; rfl

def add (l : Ledger) (u : Int) : Ledger := { l with added := l.added ++ [u] }

def accept (l : Ledger) (i : InputCommand) : Ledger := { l with accepted := l.accepted ++ [i] }

def advance (l : Ledger) : Ledger := { l with tick := l.tick + 1 }

theorem Represents.addPlayer {s : Simulation} {l : Ledger} (h : Represents s l) (u : Int) :
    Represents (s.addPlayer u) (l.add u) where
  tick := by simpa [add] using h.tick
  listed := fun v => by
    rw [mem_addPlayer, h.listed]
    simp only [Listed, add, applied, List.mem_append, List.mem_singleton]
    tauto
  position := fun v => (congrArg _ (s.index_addPlayer u v)).trans (h.position v)
  lastSequence := fun v => by
    rw [index_addPlayer]
    exact h.lastSequence v
  pending := fun t => by
    rw [addPlayer_inputsByTick]
    exact h.pending t
  bounded := fun i hi => by
    rw [Simulation.lastSequence, addPlayer_trackers]
    exact h.bounded i hi
  ordered := h.ordered
  counted := fun v t => by
    rw [tickCount, addPlayer_trackers]
    exact h.counted v t

theorem applied_accept (l : Ledger) (i : InputCommand) (hi : l.tick < i.targetTick) (u : Int) :
    (l.accept i).applied u = l.applied u := by
  have hnot : ¬ (i.userId = u ∧ i.targetTick ≤ l.tick) := by omega
  change (l.accepted ++ [i]).filter (fun j => j.userId = u ∧ j.targetTick ≤ l.tick) = l.applied u
  rw [List.filter_append, List.filter_singleton]
  simp only [hnot, decide_false, cond_false, List.append_nil]
  rfl

theorem pending_accept (l : Ledger) (i : InputCommand) (hi : l.tick < i.targetTick) (t : Int) :
    (l.accept i).pending t = l.pending t ++ if t = i.targetTick then [i] else [] := by
  simp only [pending, accept, List.filter_append]
  by_cases ht : t = i.targetTick
  · subst ht
    simp [show ¬ i.targetTick ≤ l.tick by omega]
  · simp [ht, Ne.symm ht]

theorem Represents.index_pending {s : Simulation} {l : Ledger} (h : Represents s l) (t : Int) :
    s.inputsByTick.index t = l.pending t := by
  rw [Table.index, h.pending]
  split
  next he => rw [he]; rfl
  next => rfl

theorem Represents.push {s : Simulation} {l : Ledger} (h : Represents s l) {i : InputCommand}
    (hi : s.validateInput i = .ok ()) : Represents (s.push i) (l.accept i) := by
  obtain ⟨htick, -, -, hseq, -⟩ := (s.validateInput_ok_iff i).mp hi
  rw [h.tick] at htick
  have happ := l.applied_accept i htick
  refine ⟨h.tick, ?_, ?_, ?_, ?_, ?_, ?_, ?_⟩
  · intro u
    rw [push_players, h.listed, Listed, Listed, happ]
    rfl
  · intro u
    rw [push_players, h.position, Ledger.position, Ledger.position, happ]
  · intro u
    exact (h.lastSequence u).congr (happ u).symm
  · intro t
    rw [push_lookup, l.pending_accept i htick, h.index_pending]
    by_cases ht : t = i.targetTick
    · subst ht; simp
    · simpa [ht] using h.pending t
  · intro j hj
    rw [push_lastSequence]
    rcases List.mem_append.mp hj with hj | hj
    · have hb := h.bounded j hj
      split
      next hu => rw [hu] at hb; omega
      next => exact hb
    · simp [List.mem_singleton.mp hj]
  · refine List.pairwise_append.mpr ⟨h.ordered, List.pairwise_singleton _ _, ?_⟩
    intro j hj k hk hu
    rw [List.mem_singleton.mp hk] at hu ⊢
    have hb := h.bounded j hj
    rw [hu] at hb
    omega
  · intro u t
    rw [push_tickCount, h.counted, accept, List.filter_append, List.length_append]
    by_cases hut : i.userId = u ∧ i.targetTick = t
    · simp [hut]
    · rw [if_neg (fun hc => hut ⟨hc.1.symm, hc.2.symm⟩)]
      simp [hut]

theorem sum_applied_advance (is : List InputCommand) (u t : Int) :
    ((is.filter (fun i => i.userId = u ∧ i.targetTick ≤ t + 1)).map (·.delta)).sum =
      ((is.filter (fun i => i.userId = u ∧ i.targetTick ≤ t)).map (·.delta)).sum +
        (((is.filter (·.targetTick = t + 1)).filter (·.userId = u)).map (·.delta)).sum := by
  simp only [Bool.decide_and]
  induction is with
  | nil => rfl
  | cons i is ih =>
      by_cases hu : i.userId = u
      · by_cases hle : i.targetTick ≤ t
        · simp [hu, hle, show i.targetTick ≤ t + 1 by omega, show i.targetTick ≠ t + 1 by omega, ih]
          omega
        · by_cases heq : i.targetTick = t + 1
          · simp [hu, heq, ih, show ¬ t + 1 ≤ t by omega]
            omega
          · simpa [hu, hle, heq, show ¬ i.targetTick ≤ t + 1 by omega] using ih
      · by_cases heq : i.targetTick = t + 1 <;> simpa [hu, heq] using ih

theorem mem_applied (l : Ledger) (u : Int) (i : InputCommand) :
    i ∈ l.applied u ↔ i ∈ l.accepted ∧ i.userId = u ∧ i.targetTick ≤ l.tick := by
  simp [applied]

theorem mem_applied_advance (l : Ledger) (u : Int) (i : InputCommand) :
    i ∈ l.advance.applied u ↔ i ∈ l.applied u ∨ (i ∈ l.pending (l.tick + 1) ∧ i.userId = u) := by
  have hnext : i.targetTick ≤ l.tick + 1 ↔ i.targetTick ≤ l.tick ∨ i.targetTick = l.tick + 1 := by omega
  simp only [mem_applied, advance, pending, show ¬ l.tick + 1 ≤ l.tick by omega, if_false,
    List.mem_filter, decide_eq_true_eq, hnext]
  tauto

theorem applied_eq_nil_iff (l : Ledger) (u : Int) : l.applied u = [] ↔ ∀ i, i ∉ l.applied u :=
  List.eq_nil_iff_forall_not_mem

theorem mem_pending (l : Ledger) (t : Int) (i : InputCommand) :
    i ∈ l.pending t ↔ l.tick < t ∧ i ∈ l.accepted ∧ i.targetTick = t := by
  rw [pending]
  split <;> simp <;> omega

theorem pending_advance (l : Ledger) (t : Int) :
    l.advance.pending t = if t = l.tick + 1 then [] else l.pending t := by
  simp only [pending, advance]
  by_cases ht : t = l.tick + 1
  · simp [ht]
  · by_cases hle : t ≤ l.tick
    · simp [hle, show t ≤ l.tick + 1 by omega]
    · simp [hle, ht, show ¬ t ≤ l.tick + 1 by omega]

theorem Represents.lastSequence_advance {s : Simulation} {l : Ledger} (h : Represents s l) (u : Int) :
    l.advance.IsLastSequence u (s.tickOnce.players.index u).lastSequence := by
  rw [tickOnce_players, foldl_applyEvent_lastSequence, h.tick, h.index_pending]
  have hsort := (stableSort_sorted (l.pending (l.tick + 1))).filter (fun i => decide (i.userId = u))
  have hmem : ∀ i, i ∈ (stableSort (l.pending (l.tick + 1))).filter (·.userId = u) ↔
      i ∈ l.pending (l.tick + 1) ∧ i.userId = u := by
    intro i
    rw [List.mem_filter, (stableSort_perm _).mem_iff, decide_eq_true_eq]
  cases hlast : ((stableSort (l.pending (l.tick + 1))).filter (·.userId = u)).getLast? with
  | none =>
      -- no event of this tick is the user's
      rw [List.getLast?_eq_none_iff] at hlast
      rw [hlast] at hmem
      have hsame : ∀ i, i ∈ l.advance.applied u ↔ i ∈ l.applied u := by
        intro i
        have hi := hmem i
        rw [mem_applied_advance, ← hi]
        simp
      rcases h.lastSequence u with ⟨hnil, hzero⟩ | ⟨i, hi, hn, hmax⟩
      · refine Or.inl ⟨?_, hzero⟩
        rw [applied_eq_nil_iff] at hnil ⊢
        exact fun i hi => hnil i ((hsame i).mp hi)
      · exact Or.inr ⟨i, (hsame i).mpr hi, hn, fun j hj => hmax j ((hsame j).mp hj)⟩
  | some i =>
      obtain ⟨es, hes⟩ := List.getLast?_eq_some_iff.mp hlast
      rw [hes] at hmem hsort
      have hi := (hmem i).mp (by simp)
      have hit := (l.mem_pending _ i).mp hi.1
      refine Or.inr ⟨i, (l.mem_applied_advance u i).mpr (Or.inr hi), rfl, ?_⟩
      intro j hj
      rcases (l.mem_applied_advance u j).mp hj with hj | hj
      · have hjt := ((l.mem_applied u j).mp hj).2.2
        exact Or.inl (by omega)
      · have hjt := (l.mem_pending _ j).mp hj.1
        refine Or.inr ⟨by omega, ?_⟩
        rcases List.mem_append.mp ((hmem j).mpr hj) with hj' | hj'
        · exact ((List.pairwise_append.mp hsort).2.2 j hj' i (by simp)).sequence_le
        · exact le_of_eq (congrArg _ (List.mem_singleton.mp hj'))

theorem Represents.tickOnce {s : Simulation} {l : Ledger} (h : Represents s l) :
    Represents s.tickOnce l.advance where
  tick := by simp [h.tick, advance]
  listed := fun u => by
    rw [tickOnce_players, mem_foldl_applyEvent, h.listed, h.tick, h.index_pending]
    have hperm := fun i => (stableSort_perm (l.pending (l.tick + 1))).mem_iff (a := i)
    simp only [Listed, ne_eq, applied_eq_nil_iff, not_forall, not_not, hperm, mem_applied_advance]
    constructor
    · rintro ((hu | ⟨i, hi⟩) | ⟨i, hi, hu⟩)
      · exact Or.inl hu
      · exact Or.inr ⟨i, Or.inl hi⟩
      · exact Or.inr ⟨i, Or.inr ⟨hi, hu⟩⟩
    · rintro (hu | ⟨i, hi | ⟨hi, hu⟩⟩)
      · exact Or.inl (Or.inl hu)
      · exact Or.inl (Or.inr ⟨i, hi⟩)
      · exact Or.inr ⟨i, hi, hu⟩
  position := fun u => by
    have hsum := (((stableSort_perm (l.pending (l.tick + 1))).filter (fun i => decide (i.userId = u))).map
      (fun i => i.delta)).sum_eq
    rw [tickOnce_players, foldl_applyEvent_position, h.position, h.tick, h.index_pending, hsum]
    simp only [Ledger.position, applied, Ledger.pending, advance, show ¬ l.tick + 1 ≤ l.tick by omega, if_false]
    exact (sum_applied_advance l.accepted u l.tick).symm
  lastSequence := h.lastSequence_advance
  pending := fun t => by
    rw [tickOnce_lookup, pending_advance, h.tick]
    by_cases ht : t = l.tick + 1
    · simp [ht]
    · simpa [ht] using h.pending t
  bounded := fun i hi => by
    rw [Simulation.lastSequence, tickOnce_trackers]
    exact h.bounded i hi
  ordered := h.ordered
  counted := fun u t => by
    rw [tickCount, tickOnce_trackers]
    exact h.counted u t

inductive Call
  | addPlayer (userId : Int)
  | enqueueInput (input : InputCommand)
  | tickOnce
deriving DecidableEq

def perform (s : Simulation) : Call → Simulation
  | .addPlayer userId => s.addPlayer userId
  | .enqueueInput input => (s.enqueueInput input).1
  | .tickOnce => s.tickOnce

def note (s : Simulation) (l : Ledger) : Call → Ledger
  | .addPlayer userId => l.add userId
  | .enqueueInput input => if (s.enqueueInput input).2.accepted then l.accept input else l
  | .tickOnce => l.advance

def replayFrom (s : Simulation) (l : Ledger) : List Call → Simulation × Ledger
  | [] => (s, l)
  | call :: calls => replayFrom (perform s call) (note s l call) calls

def replay (calls : List Call) : Simulation × Ledger := replayFrom {} {} calls

theorem Represents.perform {s : Simulation} {l : Ledger} (h : Represents s l) (call : Call) :
    Represents (perform s call) (note s l call) := by
  cases call with
  | addPlayer u => exact h.addPlayer u
  | tickOnce => exact h.tickOnce
  | enqueueInput i =>
      simp only [Ledger.perform, note]
      split
      next ha =>
        have hok := (s.enqueueInput_accepted i).mp ha
        rw [enqueueInput_of_ok hok]
        exact h.push hok
      next ha =>
        rw [enqueueInput_rejected (by simpa using ha)]
        exact h

theorem represents_replayFrom {s : Simulation} {l : Ledger} (h : Represents s l) (calls : List Call) :
    Represents (replayFrom s l calls).1 (replayFrom s l calls).2 := by
  induction calls generalizing s l with
  | nil => exact h
  | cons call calls ih => exact ih (h.perform call)

theorem represents_replay (calls : List Call) : Represents (replay calls).1 (replay calls).2 :=
  represents_replayFrom represents_empty calls

/-- After every run the simulation shows exactly what the accepted inputs
amount to, keeps exactly those still to come, and is left alone by a
rejected input. -/
theorem replay_described (calls : List Call) :
    (replay calls).2.Describes (replay calls).1 ∧
      ∀ i, ((replay calls).1.enqueueInput i).2.accepted = false →
        ((replay calls).1.enqueueInput i).1 = (replay calls).1 :=
  ⟨(represents_replay calls).describes, fun _ => enqueueInput_rejected⟩

end Ledger

end GameServer
