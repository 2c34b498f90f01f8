import Mathlib.Data.List.Sort

namespace GameServer

structure Device (σ α β : Type) where
  step : σ → α → σ
  answer : σ → α → β

namespace Device

variable {σ α β : Type} (M : Device σ α β)

def run : σ → List α → σ := List.foldl M.step

def trace (sees : α → Bool) : σ → List α → List β
  | _, [] => []
  | s, a :: as =>
    if sees a then M.answer s a :: trace sees (M.step s a) as else trace sees (M.step s a) as

/-- The relation holds of states the observer cannot tell apart: it is not
touched by what the observer does not see, and what the observer sees is
answered alike on both sides. -/
structure Unwinding (sees : α → Bool) (R : σ → σ → Prop) : Prop where
  hidden : ∀ s t a, R s t → sees a = false → R (M.step s a) t
  seen : ∀ s t a, R s t → sees a = true → M.answer s a = M.answer t a ∧ R (M.step s a) (M.step t a)

variable {M} {sees : α → Bool} {R : σ → σ → Prop}

/-- The labels the observer does not see can be left out. -/
theorem Unwinding.purge (h : M.Unwinding sees R) {s t : σ} (hr : R s t) (as : List α) :
    M.trace sees s as = M.trace sees t (as.filter sees) ∧ R (M.run s as) (M.run t (as.filter sees)) := by
  induction as generalizing s t with
  | nil => exact ⟨rfl, hr⟩
  | cons a as ih =>
      by_cases ha : sees a = true
      · obtain ⟨hanswer, hnext⟩ := h.seen s t a hr ha
        obtain ⟨htrace, hrun⟩ := ih hnext
        rw [List.filter_cons_of_pos ha]
        refine ⟨?_, hrun⟩
        rw [trace, trace, if_pos ha, if_pos ha, hanswer, htrace]
      · have hsees : sees a = false := by simpa using ha
        obtain ⟨htrace, hrun⟩ := ih (h.hidden s t a hr hsees)
        rw [List.filter_cons_of_neg ha]
        refine ⟨?_, hrun⟩
        rw [trace, if_neg ha, htrace]

/-- Two runs with the same seen labels are answered alike. -/
theorem Unwinding.trace_eq (h : M.Unwinding sees R) {s : σ} (hr : R s s) {as bs : List α}
    (hsame : as.filter sees = bs.filter sees) : M.trace sees s as = M.trace sees s bs := by
  rw [(h.purge hr as).1, (h.purge hr bs).1, hsame]

end Device

section Sorting

variable {α : Type} (r : α → α → Prop) [DecidableRel r]

theorem filter_orderedInsert (htrans : ∀ a b c, r a b → r b c → r a c) (p : α → Bool) (a : α) {l : List α}
    (hl : l.Pairwise r) :
    (l.orderedInsert r a).filter p = if p a then (l.filter p).orderedInsert r a else l.filter p := by
  induction l with
  | nil => by_cases ha : p a = true <;> simp [ha]
  | cons b l ih =>
      obtain ⟨hb, hl⟩ := List.pairwise_cons.mp hl
      by_cases hab : r a b
      · rw [List.orderedInsert_cons, if_pos hab]
        by_cases ha : p a = true
        · rw [if_pos ha, List.filter_cons_of_pos ha]
          -- a comes before everything in the list, so before what is left of it
          have hfirst : ∀ c ∈ (b :: l).filter p, r a c := by
            intro c hc
            rcases List.mem_cons.mp (List.mem_of_mem_filter hc) with rfl | hc
            · exact hab
            · exact htrans a b c hab (hb c hc)
          cases hrest : (b :: l).filter p with
          | nil => rfl
          | cons c rest => rw [List.orderedInsert_cons, if_pos (hfirst c (by simp [hrest]))]
        · rw [if_neg ha, List.filter_cons_of_neg ha]
      · rw [List.orderedInsert_cons, if_neg hab]
        by_cases hpb : p b = true
        · rw [List.filter_cons_of_pos hpb, List.filter_cons_of_pos hpb, ih hl]
          by_cases ha : p a = true
          · rw [if_pos ha, if_pos ha, List.orderedInsert_cons, if_neg hab]
          · rw [if_neg ha, if_neg ha]
        · rw [List.filter_cons_of_neg hpb, List.filter_cons_of_neg hpb, ih hl]

theorem filter_insertionSort (htotal : ∀ a b, r a b ∨ r b a) (htrans : ∀ a b c, r a b → r b c → r a c)
    (p : α → Bool) (l : List α) : (l.insertionSort r).filter p = (l.filter p).insertionSort r := by
  have : Std.Total r := ⟨htotal⟩
  have : IsTrans α r := ⟨htrans⟩
  induction l with
  | nil => rfl
  | cons a l ih =>
      rw [List.insertionSort_cons, filter_orderedInsert r htrans p a (List.pairwise_insertionSort r l), ih]
      by_cases ha : p a = true
      · rw [if_pos ha, List.filter_cons_of_pos ha, List.insertionSort_cons]
      · rw [if_neg ha, List.filter_cons_of_neg ha]

end Sorting

end GameServer
