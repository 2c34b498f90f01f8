import GameServer.InputLedger

namespace GameServer.Ledger

open Simulation

structure Reads (l : Ledger) (players : List PlayerView) : Prop where
  ascending : players.Pairwise (fun v w => v.userId < w.userId)
  listed : ∀ u, u ∈ players.map (·.userId) ↔ u ∈ l.added
  position : ∀ view ∈ players, view.position = l.position view.userId
  lastSequence : ∀ view ∈ players, l.IsLastSequence view.userId view.lastSequence

def Ahead (l : Ledger) (w : Int) : Prop :=
  w ∈ l.added ∧ ∀ v ∈ l.added, l.position v < l.position w ∨ (l.position v = l.position w ∧ w ≤ v)

theorem Represents.reads {s : Simulation} {l : Ledger} (h : Represents s l)
    (hadded : ∀ i ∈ l.accepted, i.userId ∈ l.added) : l.Reads s.snapshot.players where
  ascending := List.pairwise_map.mp s.snapshot_ascending
  listed u := by
    rw [mem_snapshot_userIds, h.listed, Listed]
    refine ⟨?_, Or.inl⟩
    rintro (hu | hu)
    · exact hu
    · obtain ⟨i, hi⟩ := List.exists_mem_of_ne_nil _ hu
      obtain ⟨hin, rfl, -⟩ := (l.mem_applied u i).mp hi
      exact hadded i hin
  position := h.describes.position
  lastSequence := h.describes.lastSequence

theorem Reads.accept {l : Ledger} {players : List PlayerView} (h : l.Reads players) {i : InputCommand}
    (hi : l.tick < i.targetTick) : (l.accept i).Reads players where
  ascending := h.ascending
  listed := h.listed
  position view hv := by
    rw [Ledger.position, l.applied_accept i hi]
    exact h.position view hv
  lastSequence view hv := (h.lastSequence view hv).congr (l.applied_accept i hi view.userId).symm

theorem Ahead.accept {l : Ledger} {w : Int} (h : l.Ahead w) {i : InputCommand} (hi : l.tick < i.targetTick) :
    (l.accept i).Ahead w := by
  have hsame : ∀ u, (l.accept i).position u = l.position u := by
    intro u
    rw [Ledger.position, l.applied_accept i hi, Ledger.position]
  refine ⟨h.1, ?_⟩
  intro v hv
  rw [hsame, hsame]
  exact h.2 v hv

def due (l : Ledger) : List InputCommand := l.accepted.filter (·.targetTick ≤ l.tick)

/-- The same players, and the same inputs up to the same tick, in any order of
arrival. -/
structure Alike (l m : Ledger) : Prop where
  tick : l.tick = m.tick
  added : ∀ u, u ∈ l.added ↔ u ∈ m.added
  due : l.due.Perm m.due

theorem Alike.symm {l m : Ledger} (h : l.Alike m) : m.Alike l :=
  ⟨h.tick.symm, fun u => (h.added u).symm, h.due.symm⟩

theorem applied_eq_due (l : Ledger) (u : Int) : l.applied u = l.due.filter (·.userId = u) := by
  rw [applied, due, List.filter_filter]
  simp only [Bool.decide_and]

theorem Alike.applied {l m : Ledger} (h : l.Alike m) (u : Int) : (l.applied u).Perm (m.applied u) := by
  rw [applied_eq_due, applied_eq_due]
  exact h.due.filter _

theorem Alike.position {l m : Ledger} (h : l.Alike m) (u : Int) : l.position u = m.position u :=
  ((h.applied u).map _).sum_eq

theorem Alike.isLastSequence {l m : Ledger} (h : l.Alike m) {u : Int} {n : Nat} (hn : l.IsLastSequence u n) :
    m.IsLastSequence u n := by
  have hmem := fun i => (h.applied u).mem_iff (a := i)
  rcases hn with ⟨hnil, hzero⟩ | ⟨i, hi, hseq, hmax⟩
  · refine Or.inl ⟨?_, hzero⟩
    have hperm := h.applied u
    rw [hnil] at hperm
    exact hperm.nil_eq.symm
  · exact Or.inr ⟨i, (hmem i).mp hi, hseq, fun j hj => hmax j ((hmem j).mpr hj)⟩

theorem IsLastSequence.unique {l : Ledger} {u : Int} {m n : Nat} (hm : l.IsLastSequence u m)
    (hn : l.IsLastSequence u n) : m = n := by
  rcases hm with ⟨hnil, rfl⟩ | ⟨i, hi, rfl, hi'⟩
  · rcases hn with ⟨-, rfl⟩ | ⟨j, hj, -, -⟩
    · rfl
    · rw [hnil] at hj
      cases hj
  · rcases hn with ⟨hnil, -⟩ | ⟨j, hj, rfl, hj'⟩
    · rw [hnil] at hi
      cases hi
    · have hij := hj' i hi
      have hji := hi' j hj
      simp only [NotLater] at hij hji
      omega

theorem Reads.mem {l m : Ledger} {players others : List PlayerView} (h : l.Reads players) (h' : m.Reads others)
    (hlm : l.Alike m) {view : PlayerView} (hv : view ∈ players) : view ∈ others := by
  have hlisted : view.userId ∈ others.map (·.userId) := by
    rw [h'.listed, ← hlm.added, ← h.listed]
    exact List.mem_map_of_mem hv
  obtain ⟨other, hother, hid⟩ := List.mem_map.mp hlisted
  have hposition : view.position = other.position := by
    rw [h.position view hv, h'.position other hother, hid, hlm.position]
  have hsequence : view.lastSequence = other.lastSequence := by
    refine (hlm.isLastSequence (h.lastSequence view hv)).unique ?_
    rw [← hid]
    exact h'.lastSequence other hother
  have hsame : view = other := by
    cases view
    cases other
    cases hid
    cases hposition
    cases hsequence
    rfl
  rw [hsame]
  exact hother

theorem Reads.unique {l m : Ledger} {players others : List PlayerView} (h : l.Reads players) (h' : m.Reads others)
    (hlm : l.Alike m) : players = others := by
  have : Std.Asymm (fun v w : PlayerView => v.userId < w.userId) := ⟨fun _ _ => Int.lt_asymm⟩
  exact h.ascending.eq_of_mem_iff h'.ascending fun _ => ⟨h.mem h' hlm, h'.mem h hlm.symm⟩

theorem Ahead.unique {l m : Ledger} {w x : Int} (h : l.Ahead w) (h' : m.Ahead x) (hlm : l.Alike m) : w = x := by
  have hw := h'.2 w ((hlm.added w).mp h.1)
  have hx := h.2 x ((hlm.added x).mpr h'.1)
  rw [hlm.position, hlm.position] at hx
  omega

end GameServer.Ledger
