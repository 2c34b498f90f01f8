import Mathlib.Algebra.BigOperators.Group.Finset.Piecewise
import Mathlib.Algebra.BigOperators.Ring.Finset
import Mathlib.Algebra.Order.Ring.Defs
import Mathlib.Tactic.Linarith
import Mathlib.Tactic.Ring

namespace GameServer

open Finset

variable {ι R : Type} [DecidableEq ι] [CommRing R]

def transfer (height : ι → R) (winner loser : ι) (amount : R) : ι → R :=
  fun i => height i + (if i = winner then amount else 0) - (if i = loser then amount else 0)

theorem sum_transfer (height : ι → R) (winner loser : ι) (amount : R) (group : Finset ι) :
    ∑ i ∈ group, transfer height winner loser amount i = ∑ i ∈ group, height i +
      (if winner ∈ group then amount else 0) - (if loser ∈ group then amount else 0) := by
  simp only [transfer]
  rw [sum_sub_distrib, sum_add_distrib, sum_ite_eq', sum_ite_eq']

variable [LinearOrder R] [IsStrictOrderedRing R]

/-- No group stands higher than the product of its size with the number of the
others allows. The bound is the one for heights that lie apart by c. -/
def Spread (c : R) (members : Finset ι) (height : ι → R) : Prop :=
  ∀ group ⊆ members, 2 • ∑ i ∈ group, height i ≤ c * (group.card * (members.card - group.card))

namespace Spread

variable {c : R} {members : Finset ι} {height : ι → R}

omit [DecidableEq ι] [IsStrictOrderedRing R] in
theorem iff_two_mul : Spread c members height ↔
    ∀ group ⊆ members, 2 * ∑ i ∈ group, height i ≤ c * (group.card * (members.card - group.card)) := by
  simp only [Spread, two_nsmul, two_mul]

omit [DecidableEq ι] [IsStrictOrderedRing R] in
theorem empty (c : R) (height : ι → R) : Spread c ∅ height := by
  intro group hgroup
  rw [subset_empty.mp hgroup]
  simp

theorem newcomer (h : Spread c members height) (hc : 0 ≤ c) {i : ι} (hnew : i ∉ members) (hground : height i = 0) :
    Spread c (insert i members) height := by
  intro group hgroup
  have hcard : ((insert i members).card : R) = members.card + 1 := by
    rw [card_insert_of_notMem hnew]
    push_cast
    rfl
  rw [hcard]
  by_cases hi : i ∈ group
  · have hrest : group.erase i ⊆ members := by
      intro j hj
      obtain ⟨hne, hj⟩ := mem_erase.mp hj
      exact (mem_insert.mp (hgroup hj)).resolve_left hne
    have hsum : ∑ j ∈ group.erase i, height j = ∑ j ∈ group, height j := by
      rw [← sum_erase_add group height hi, hground, add_zero]
    have hsize : ((group.erase i).card : R) = group.card - 1 := by
      rw [← card_erase_add_one hi]
      push_cast
      ring
    have hbound := h _ hrest
    have hleft : (group.card : R) ≤ members.card + 1 := by
      rw [← hcard]
      exact_mod_cast card_le_card hgroup
    rw [hsum, hsize] at hbound
    nlinarith
  · have hold : group ⊆ members := by
      intro j hj
      refine (mem_insert.mp (hgroup hj)).resolve_left ?_
      rintro rfl
      exact hi hj
    have hbound := h _ hold
    have hsize : (0 : R) ≤ group.card := Nat.cast_nonneg _
    nlinarith

/-- The group gives its winner away and takes the loser in: both ways the bound
is missed by c together, which is what the amount may be. -/
theorem gain (h : Spread c members height) {winner loser : ι} {amount : R} (hloser : loser ∈ members)
    (hlimit : height winner - height loser + 2 * amount ≤ c) {group : Finset ι} (hgroup : group ⊆ members)
    (hw : winner ∈ group) (hl : loser ∉ group) :
    2 * (∑ i ∈ group, height i + amount) ≤ c * (group.card * (members.card - group.card)) := by
  have hless := iff_two_mul.mp h (group.erase winner) ((erase_subset _ _).trans hgroup)
  have hmore := iff_two_mul.mp h (insert loser group) (insert_subset hloser hgroup)
  have hsum : ∑ i ∈ group.erase winner, height i = ∑ i ∈ group, height i - height winner := by
    rw [← sum_erase_add group height hw]
    ring
  have hsize : ((group.erase winner).card : R) = group.card - 1 := by
    rw [← card_erase_add_one hw]
    push_cast
    ring
  rw [hsum, hsize] at hless
  rw [sum_insert hl, card_insert_of_notMem hl] at hmore
  push_cast at hmore
  nlinarith

/-- The step: a transfer is allowed as long as the winner does not come out
further than c above the loser. -/
theorem exchange (h : Spread c members height) {winner loser : ι} {amount : R} (hloser : loser ∈ members)
    (hamount : 0 ≤ amount) (hlimit : 0 < amount → height winner - height loser + 2 * amount ≤ c) :
    Spread c members (transfer height winner loser amount) := by
  rw [iff_two_mul] at h ⊢
  intro group hgroup
  have hbound := h group hgroup
  rw [sum_transfer]
  by_cases hw : winner ∈ group
  · by_cases hl : loser ∈ group
    · rw [if_pos hw, if_pos hl, add_sub_cancel_right]
      exact hbound
    · rw [if_pos hw, if_neg hl, sub_zero]
      rcases hamount.eq_or_lt with hzero | hpos
      · rw [← hzero, add_zero]
        exact hbound
      · exact gain (iff_two_mul.mpr h) hloser (hlimit hpos) hgroup hw hl
  · rw [if_neg hw, add_zero]
    split
    next => linarith
    next =>
      rw [sub_zero]
      exact hbound

end Spread

structure Settled (c : R) (members : Finset ι) (height : ι → R) : Prop where
  level : ∑ i ∈ members, height i = 0
  spread : Spread c members height

namespace Settled

variable {c : R} {members : Finset ι} {height : ι → R}

omit [DecidableEq ι] [IsStrictOrderedRing R] in
theorem empty (c : R) (height : ι → R) : Settled c ∅ height := ⟨sum_empty, .empty c height⟩

theorem newcomer (h : Settled c members height) (hc : 0 ≤ c) {i : ι} (hground : i ∉ members → height i = 0) :
    Settled c (insert i members) height := by
  by_cases hi : i ∈ members
  · rw [insert_eq_of_mem hi]
    exact h
  · refine ⟨?_, h.spread.newcomer hc hi (hground hi)⟩
    rw [sum_insert hi, hground hi, h.level, add_zero]

theorem exchange (h : Settled c members height) {winner loser : ι} {amount : R} (hwinner : winner ∈ members)
    (hloser : loser ∈ members) (hamount : 0 ≤ amount)
    (hlimit : 0 < amount → height winner - height loser + 2 * amount ≤ c) :
    Settled c members (transfer height winner loser amount) where
  level := by
    rw [sum_transfer, if_pos hwinner, if_pos hloser, add_sub_cancel_right]
    exact h.level
  spread := h.spread.exchange hloser hamount hlimit

theorem abs_le (h : Settled c members height) {i : ι} (hi : i ∈ members) :
    2 * |height i| ≤ c * (members.card - 1) := by
  have hbound := Spread.iff_two_mul.mp h.spread
  have hone := hbound {i} (singleton_subset_iff.mpr hi)
  have hrest := hbound (members.erase i) (erase_subset _ _)
  have hsum : ∑ j ∈ members.erase i, height j = -height i := by
    have hsplit := sum_erase_add members height hi
    have hlevel := h.level
    linarith
  have hsize : ((members.erase i).card : R) = members.card - 1 := by
    rw [← card_erase_add_one hi]
    push_cast
    ring
  rw [sum_singleton, card_singleton, Nat.cast_one, one_mul] at hone
  rw [hsum, hsize, sub_sub_cancel, mul_one] at hrest
  rcases abs_cases (height i) with ⟨habs, -⟩ | ⟨habs, -⟩
  · rw [habs]
    exact hone
  · rw [habs]
    exact hrest

end Settled

end GameServer
