import Mathlib.Algebra.Order.Ring.Int
import Mathlib.Data.List.AList

namespace GameServer

/-- A hash table: finitely many keys with one value each, in some iteration
order. -/
abbrev Table (κ ν : Type) := AList (fun _ : κ => ν)

namespace Table

variable {κ ν : Type} [DecidableEq κ]

/-- Subscript access: a missing key reads as a default value. -/
def index [Inhabited ν] (t : Table κ ν) (k : κ) : ν := (t.lookup k).getD default

theorem lookup_insert_eq (t : Table κ ν) (k j : κ) (v : ν) :
    AList.lookup j (t.insert k v) = if j = k then some v else t.lookup j := by
  by_cases h : j = k
  · subst h; simp
  · simp [h, AList.lookup_insert_ne h]

theorem lookup_erase_eq (t : Table κ ν) (k j : κ) :
    AList.lookup j (t.erase k) = if j = k then none else t.lookup j := by
  by_cases h : j = k
  · subst h; simp
  · simp [h, AList.lookup_erase_ne h]

@[simp] theorem index_empty [Inhabited ν] (k : κ) : index (∅ : Table κ ν) k = default := by
  simp [index]

theorem index_insert [Inhabited ν] (t : Table κ ν) (k j : κ) (v : ν) :
    index (t.insert k v) j = if j = k then v else index t j := by
  rw [index, lookup_insert_eq]
  split <;> rfl

theorem apply_index_insert {β : Type} [Inhabited ν] {t : Table κ ν} {k : κ} (h : k ∉ t) {v : ν} (f : ν → β)
    (hv : f v = f default) (j : κ) : f (index (t.insert k v) j) = f (index t j) := by
  rw [index_insert]
  split
  next hj => rw [hj, hv, index, AList.lookup_eq_none.mpr h, Option.getD_none]
  next => rfl

theorem index_eq_of_lookup [Inhabited ν] {t : Table κ ν} {k : κ} {v : ν} (h : t.lookup k = some v) :
    t.index k = v := by
  simp [index, h]

def modify (t : Table κ ν) (k : κ) (f : ν → ν) : Table κ ν :=
  match t.lookup k with
  | none => t
  | some v => t.insert k (f v)

theorem lookup_modify (t : Table κ ν) (k j : κ) (f : ν → ν) :
    (t.modify k f).lookup j = if j = k then (t.lookup k).map f else t.lookup j := by
  rw [modify]
  cases h : t.lookup k with
  | none =>
      by_cases hj : j = k
      · subst hj; simp [h]
      · simp [hj]
  | some v => simpa using lookup_insert_eq t k j (f v)

theorem mem_modify (t : Table κ ν) (k j : κ) (f : ν → ν) : j ∈ t.modify k f ↔ j ∈ t := by
  rw [← AList.lookup_isSome, lookup_modify, ← AList.lookup_isSome]
  split
  next h => rw [h, Option.isSome_map]
  next => rfl

def filter (p : κ → ν → Bool) (t : Table κ ν) : Table κ ν where
  entries := t.entries.filter fun e => p e.1 e.2
  nodupKeys := t.nodupKeys.sublist List.filter_sublist

theorem lookup_filter_eq_some (p : κ → ν → Bool) (t : Table κ ν) (k : κ) (v : ν) :
    (t.filter p).lookup k = some v ↔ t.lookup k = some v ∧ p k v = true := by
  have hmem : ∀ u : Table κ ν, u.lookup k = some v ↔ (⟨k, v⟩ : Sigma fun _ : κ => ν) ∈ u.entries := by
    intro u
    exact AList.mem_lookup_iff
  rw [hmem, hmem]
  exact List.mem_filter

def total (f : ν → Int) (t : Table κ ν) : Int := (t.entries.map fun e => f e.2).sum

theorem sum_kerase (f : ν → Int) (k : κ) (l : List (Sigma fun _ : κ => ν)) :
    ((l.kerase k).map fun e => f e.2).sum =
      (l.map fun e => f e.2).sum - ((l.dlookup k : Option ν).map f).getD 0 := by
  induction l with
  | nil => simp
  | cons e l ih =>
      by_cases h : k = e.1
      · subst h
        rw [List.kerase_cons_eq rfl, List.dlookup_cons_eq (β := fun _ => ν) l e.1 e.2]
        simp
      · rw [List.kerase_cons_ne h, List.dlookup_cons_ne (β := fun _ => ν) l e h]
        simp only [List.map_cons, List.sum_cons, ih]
        omega

theorem total_insert (f : ν → Int) (t : Table κ ν) (k : κ) (v : ν) :
    total f (t.insert k v) = total f t - ((t.lookup k).map f).getD 0 + f v := by
  have hsum := sum_kerase f k t.entries
  change f v + ((t.entries.kerase k).map fun e => f e.2).sum = total f t - ((t.lookup k).map f).getD 0 + f v
  rw [hsum]
  exact Int.add_comm _ _

theorem total_insert_new (f : ν → Int) {t : Table κ ν} {k : κ} (h : k ∉ t) (v : ν) :
    total f (t.insert k v) = total f t + f v := by
  rw [total_insert, AList.lookup_eq_none.mpr h]
  simp

theorem total_modify (f : ν → Int) (d : Int) {t : Table κ ν} {k : κ} (h : k ∈ t) {g : ν → ν}
    (hg : ∀ v, f (g v) = f v + d) : total f (t.modify k g) = total f t + d := by
  obtain ⟨v, hv⟩ := Option.isSome_iff_exists.mp (AList.lookup_isSome.mpr h)
  rw [modify, hv]
  simp only [total_insert, hv, hg, Option.map_some, Option.getD_some]
  omega

theorem mem_iff_lookup (t : Table κ ν) (k : κ) : k ∈ t ↔ ∃ v, t.lookup k = some v := by
  rw [← AList.lookup_isSome, Option.isSome_iff_exists]

end Table

end GameServer
