import Mathlib.Algebra.Order.Round
import Mathlib.Tactic.Linarith

namespace GameServer

variable {α : Type} [Field α] [LinearOrder α] [FloorRing α]

/-- The nearest integer, where a half is rounded away from zero. -/
def roundAway (x : α) : ℤ := if 0 ≤ x then ⌊x + 1 / 2⌋ else ⌈x - 1 / 2⌉

def Halfway (x : α) : Prop := ∃ n : ℤ, x = n + 1 / 2

variable [IsStrictOrderedRing α] {x : α}

theorem halfway_add_int (n : ℤ) : Halfway (n + x) ↔ Halfway x := by
  constructor
  · rintro ⟨m, hm⟩
    exact ⟨m - n, by push_cast; linarith⟩
  · rintro ⟨m, hm⟩
    exact ⟨n + m, by push_cast; linarith⟩

theorem halfway_neg : Halfway (-x) ↔ Halfway x := by
  constructor
  · rintro ⟨m, hm⟩
    exact ⟨-m - 1, by push_cast; linarith⟩
  · rintro ⟨m, hm⟩
    exact ⟨-m - 1, by push_cast; linarith⟩

theorem round_bounds (h : ¬ Halfway x) : (round x : α) - 1 / 2 < x ∧ x < round x + 1 / 2 := by
  obtain ⟨hlow, hhigh⟩ := round_eq_iff.mp (rfl : round x = round x)
  refine ⟨lt_of_le_of_ne hlow ?_, hhigh⟩
  intro he
  exact h ⟨round x - 1, by push_cast; linarith⟩

theorem round_neg_of (h : ¬ Halfway x) : round (-x) = -round x := by
  obtain ⟨hlow, hhigh⟩ := round_bounds h
  refine round_eq_iff.mpr ⟨?_, ?_⟩ <;> push_cast <;> linarith

theorem roundAway_eq (h : ¬ Halfway x) : roundAway x = round x := by
  rw [roundAway]
  split
  next => exact (round_eq x).symm
  next =>
    obtain ⟨hlow, hhigh⟩ := round_bounds h
    exact Int.ceil_eq_iff.mpr ⟨by linarith, by linarith⟩

theorem roundAway_add (h : ¬ Halfway x) (n : ℤ) : roundAway (n + x) = n + round x := by
  rw [roundAway_eq (mt (halfway_add_int n).mp h), round_intCast_add]

theorem roundAway_sub (h : ¬ Halfway x) (n : ℤ) : roundAway (n - x) = n - round x := by
  rw [sub_eq_add_neg, roundAway_add (mt halfway_neg.mp h), round_neg_of h, sub_eq_add_neg]

end GameServer
