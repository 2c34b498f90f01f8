import GameServer.InputLedger
import Mathlib.Algebra.Order.BigOperators.Group.List

namespace GameServer.Ledger

open Simulation

/-- The inputs accepted keep the two limits of the validation, and the
positions the bound that follows. -/
structure Moves (l : Ledger) : Prop where
  delta : ∀ i ∈ l.accepted, -3 ≤ i.delta ∧ i.delta ≤ 3
  limit : ∀ u t, (l.accepted.filter (fun i => i.userId = u ∧ i.targetTick = t)).length ≤ 4
  near : ∀ u, -(12 * l.tick) ≤ l.position u ∧ l.position u ≤ 12 * l.tick

theorem moves_empty : ({} : Ledger).Moves where
  delta := by simp
  limit := by simp
  near := by simp [position, applied]

theorem Moves.add {l : Ledger} (h : l.Moves) (u : Int) : (l.add u).Moves := ⟨h.delta, h.limit, h.near⟩

theorem Moves.accept {s : Simulation} {l : Ledger} (h : l.Moves) (hr : Represents s l) {i : InputCommand}
    (hi : s.validateInput i = .ok ()) : (l.accept i).Moves := by
  obtain ⟨htick, hdelta, -, -, hcount⟩ := (s.validateInput_ok_iff i).mp hi
  rw [hr.tick] at htick
  refine ⟨?_, ?_, ?_⟩
  · intro j hj
    rcases List.mem_append.mp hj with hj | hj
    · exact h.delta j hj
    · rw [List.mem_singleton.mp hj]
      exact hdelta
  · intro u t
    rw [Ledger.accept, List.filter_append, List.length_append]
    by_cases hut : i.userId = u ∧ i.targetTick = t
    · obtain ⟨rfl, rfl⟩ := hut
      rw [hr.counted] at hcount
      have hone : ([i].filter (fun j => j.userId = i.userId ∧ j.targetTick = i.targetTick)).length = 1 := by simp
      rw [hone]
      omega
    · simpa [hut] using h.limit u t
  · intro u
    rw [position, l.applied_accept i htick]
    exact h.near u

theorem sum_deltas {es : List InputCommand} (hd : ∀ i ∈ es, -3 ≤ i.delta ∧ i.delta ≤ 3) (hn : es.length ≤ 4) :
    -12 ≤ (es.map (·.delta)).sum ∧ (es.map (·.delta)).sum ≤ 12 := by
  have hmap : ∀ x ∈ es.map (·.delta), -3 ≤ x ∧ x ≤ 3 := by
    intro x hx
    obtain ⟨i, hi, rfl⟩ := List.mem_map.mp hx
    exact hd i hi
  have hlow := List.card_nsmul_le_sum _ (-3) (fun x hx => (hmap x hx).1)
  have hhigh := List.sum_le_card_nsmul _ 3 (fun x hx => (hmap x hx).2)
  rw [List.length_map, nsmul_eq_mul] at hlow hhigh
  omega

theorem Moves.sum_pending {l : Ledger} (h : l.Moves) (u t : Int) :
    -12 ≤ (((l.accepted.filter (·.targetTick = t)).filter (·.userId = u)).map (·.delta)).sum ∧
      (((l.accepted.filter (·.targetTick = t)).filter (·.userId = u)).map (·.delta)).sum ≤ 12 := by
  apply sum_deltas
  · intro i hi
    exact h.delta i (List.mem_of_mem_filter (List.mem_of_mem_filter hi))
  · rw [List.filter_filter]
    simp only [← Bool.decide_and]
    exact h.limit u t

theorem Moves.advance {l : Ledger} (h : l.Moves) : l.advance.Moves := by
  refine ⟨h.delta, h.limit, ?_⟩
  intro u
  have hnear := h.near u
  have hsum := h.sum_pending u (l.tick + 1)
  have hstep : l.advance.position u = l.position u + _ := sum_applied_advance l.accepted u l.tick
  have htick : l.advance.tick = l.tick + 1 := rfl
  rw [hstep, htick]
  omega

end GameServer.Ledger
