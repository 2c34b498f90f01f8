import Mathlib.Data.List.Infix
import Mathlib.Data.List.Nodup

namespace GameServer

variable {α β κ : Type}

theorem getElem?_set_of_some {l : List α} {k : Nat} {a : α} (h : l[k]? = some a) (b : α) (j : Nat) :
    (l.set k b)[j]? = if j = k then some b else l[j]? := by
  obtain ⟨hk, -⟩ := List.getElem?_eq_some_iff.mp h
  by_cases hj : j = k
  · subst hj; simp [hk]
  · simp [hj, Ne.symm hj]

theorem getElem?_set_of_eq {l : List α} {k : Nat} {a b : α} (h : l[k]? = some a) : (l.set k b)[k]? = some b :=
  (getElem?_set_of_some h b k).trans (if_pos rfl)

theorem getElem?_set_of_ne {l : List α} {j k : Nat} {a b : α} (h : l[k]? = some a) (hne : j ≠ k) :
    (l.set j b)[k]? = some a :=
  (List.getElem?_set_ne hne).trans h

theorem exists_set_iff {l : List α} {k : Nat} {a b : α} (h : l[k]? = some a) (P : α → Prop) :
    (∃ (j : Nat) (x : α), (l.set k b)[j]? = some x ∧ P x) ↔
      P b ∨ ∃ (j : Nat) (x : α), j ≠ k ∧ l[j]? = some x ∧ P x := by
  constructor
  · rintro ⟨j, x, hx, hp⟩
    rw [getElem?_set_of_some h] at hx
    split at hx
    next =>
      cases hx
      exact Or.inl hp
    next hj => exact Or.inr ⟨j, x, hj, hx, hp⟩
  · rintro (hp | ⟨j, x, hj, hx, hp⟩)
    · exact ⟨k, b, getElem?_set_of_eq h, hp⟩
    · exact ⟨j, x, getElem?_set_of_ne hx (Ne.symm hj), hp⟩

theorem exists_split_iff {l : List α} {k : Nat} {a : α} (h : l[k]? = some a) (P : α → Prop) :
    (∃ (j : Nat) (x : α), l[j]? = some x ∧ P x) ↔ P a ∨ ∃ (j : Nat) (x : α), j ≠ k ∧ l[j]? = some x ∧ P x := by
  obtain ⟨hk, rfl⟩ := List.getElem?_eq_some_iff.mp h
  have hset := exists_set_iff (b := l[k]) h P
  rwa [List.set_getElem_self hk] at hset

theorem idxOf?_eq_some_iff_split [DecidableEq α] {l : List α} {a : α} {i : Nat} :
    l.idxOf? a = some i ↔ ∃ front rest, l = front ++ a :: rest ∧ a ∉ front ∧ front.length = i := by
  constructor
  · intro h
    obtain ⟨hi, ha, hbefore⟩ := List.idxOf?_eq_some_iff.mp h
    refine ⟨l.take i, l.drop (i + 1), ?_, ?_, List.length_take_of_le hi.le⟩
    · rw [← ha, ← List.drop_eq_getElem_cons hi, List.take_append_drop]
    · intro hmem
      obtain ⟨j, hj, hja⟩ := List.mem_take_iff_getElem.mp hmem
      exact hbefore j (by omega) hja
  · rintro ⟨front, rest, rfl, hfront, rfl⟩
    refine List.idxOf?_eq_some_iff.mpr ⟨by simp, by simp, ?_⟩
    intro j hj
    rw [List.getElem_append_left hj]
    rintro rfl
    exact hfront (List.getElem_mem hj)

theorem getElem?_concat_eq (l : List α) (a : α) (j : Nat) :
    (l ++ [a])[j]? = if j = l.length then some a else l[j]? := by
  by_cases hj : j = l.length
  · simp [hj]
  · rw [if_neg hj, List.getElem?_append]
    split
    next => rfl
    next hle => simp [List.getElem?_eq_none (Nat.le_of_not_lt hle)]; omega

theorem forall_set_iff {l : List α} {k : Nat} {a b : α} {P : α → Prop} (h : l[k]? = some a)
    (hall : ∀ (j : Nat) (x : α), l[j]? = some x → P x) :
    (∀ (j : Nat) (x : α), (l.set k b)[j]? = some x → P x) ↔ P b := by
  constructor
  · intro hset
    exact hset k b (getElem?_set_of_eq h)
  · intro hb j x hx
    rw [getElem?_set_of_some h] at hx
    split at hx
    next =>
      cases hx
      exact hb
    next => exact hall j x hx

theorem forall_concat {l : List α} {a : α} {P : α → Prop} (ha : P a)
    (hall : ∀ (j : Nat) (x : α), l[j]? = some x → P x) (j : Nat) (x : α) (hx : (l ++ [a])[j]? = some x) : P x := by
  rw [getElem?_concat_eq] at hx
  split at hx
  next =>
    cases hx
    exact ha
  next => exact hall j x hx

/-- A list falls into blocks of one key each. The labels of a block are those
of a full one, and only the last block may be cut short. -/
structure Blocks (key : α → κ) (label : α → β) (full : List β) (l : List α) (bs : List (κ × List α)) : Prop where
  flatten : l = (bs.map (·.2)).flatten
  keys : (bs.map (·.1)).Nodup
  own : ∀ b ∈ bs, ∀ e ∈ b.2, key e = b.1
  complete : ∀ b ∈ bs.dropLast, b.2.map label = full
  cut : ∀ b ∈ bs, b.2.map label <+: full

theorem exists_of_mem_dropLast {R : α → α → Prop} {l : List α} (h : l.Pairwise R) {a : α} (ha : a ∈ l.dropLast) :
    ∃ b ∈ l, R a b := by
  induction l with
  | nil => cases ha
  | cons c l ih =>
      cases l with
      | nil => cases ha
      | cons d l =>
          rw [List.pairwise_cons] at h
          rw [List.dropLast_cons_cons, List.mem_cons] at ha
          rcases ha with rfl | ha
          · exact ⟨d, by simp, h.1 d (by simp)⟩
          · obtain ⟨b, hb, hr⟩ := ih h.2 ha
            exact ⟨b, List.mem_cons_of_mem c hb, hr⟩

theorem eq_nil_of_prefix_concat {pre post init : List β} {x : β} (h : pre ++ x :: post <+: init ++ [x])
    (hx : x ∉ init) : post = [] := by
  obtain ⟨rest, hrest⟩ := h
  have hlen := congrArg List.length hrest
  simp only [List.length_append, List.length_cons, List.length_nil] at hlen
  have hlong : init.length ≤ pre.length := by
    by_contra hlt
    have hget := congrArg (fun l => l[pre.length]?) hrest
    simp only [List.append_assoc, List.cons_append, List.getElem?_append_right (Nat.le_refl _), Nat.sub_self,
      List.getElem?_cons_zero, List.getElem?_append_left (Nat.lt_of_not_le hlt)] at hget
    exact hx (List.mem_of_getElem? hget.symm)
  apply List.eq_nil_of_length_eq_zero
  omega

namespace Blocks

variable [DecidableEq κ] {key : α → κ} {label : α → β} {full : List β} {l : List α} {bs : List (κ × List α)}

theorem filter_others {cs : List (κ × List α)} (hown : ∀ b ∈ cs, ∀ e ∈ b.2, key e = b.1) {k : κ}
    (hk : k ∉ cs.map (·.1)) : ((cs.map (·.2)).flatten).filter (fun e => key e = k) = [] := by
  apply List.filter_eq_nil_iff.mpr
  intro e he
  obtain ⟨b, hb, heb⟩ := List.mem_flatten.mp he
  obtain ⟨c, hc, rfl⟩ := List.mem_map.mp hb
  intro hkey
  refine hk (List.mem_map.mpr ⟨c, hc, ?_⟩)
  rw [← hown c hc e heb]
  simpa using hkey

/-- What has one key stands together, and is a block from its beginning. -/
theorem together (h : Blocks key label full l bs) (k : κ) :
    ∃ pre post, l = pre ++ l.filter (fun e => key e = k) ++ post ∧ (∀ e ∈ pre, key e ≠ k) ∧ (∀ e ∈ post, key e ≠ k) ∧
      (l.filter (fun e => key e = k)).map label <+: full := by
  by_cases hk : k ∈ bs.map (·.1)
  · obtain ⟨b, hb, rfl⟩ := List.mem_map.mp hk
    obtain ⟨front, back, rfl⟩ := List.append_of_mem hb
    have hkeys := h.keys
    simp only [List.map_append, List.map_cons, List.nodup_append, List.nodup_cons] at hkeys
    have hfront : b.1 ∉ front.map (·.1) := fun hm => hkeys.2.2 _ hm _ (by simp) rfl
    have hfilter : l.filter (fun e => key e = b.1) = b.2 := by
      have hself : b.2.filter (fun e => key e = b.1) = b.2 :=
        List.filter_eq_self.mpr (fun e he => by simpa using h.own b hb e he)
      rw [h.flatten, List.map_append, List.map_cons, List.flatten_append, List.flatten_cons, List.filter_append,
        List.filter_append, hself, filter_others (fun c hc => h.own c (by simp [hc])) hfront,
        filter_others (fun c hc => h.own c (by simp [hc])) hkeys.2.1.1, List.nil_append, List.append_nil]
    refine ⟨(front.map (·.2)).flatten, (back.map (·.2)).flatten, ?_, ?_, ?_, ?_⟩
    · rw [hfilter, h.flatten]
      simp
    · intro e he hkey
      have hnil := filter_others (fun c hc => h.own c (by simp [hc])) hfront
      exact List.filter_eq_nil_iff.mp hnil e he (by simpa using hkey)
    · intro e he hkey
      have hnil := filter_others (fun c hc => h.own c (by simp [hc])) hkeys.2.1.1
      exact List.filter_eq_nil_iff.mp hnil e he (by simpa using hkey)
    · rw [hfilter]
      exact h.cut b hb
  · have hnil : l.filter (fun e => key e = k) = [] := by
      rw [h.flatten]
      exact filter_others h.own hk
    refine ⟨l, [], by rw [hnil]; simp, ?_, by simp, by rw [hnil]; exact List.nil_prefix⟩
    intro e he hkey
    exact List.filter_eq_nil_iff.mp hnil e he (by simpa using hkey)

theorem closed (h : Blocks key label full l bs) {init : List β} {x : β} (hfull : full = init ++ [x]) (hx : x ∉ init)
    {pre post : List α} {e : α} (hl : l = pre ++ e :: post) (he : label e = x) : ∀ d ∈ post, key d ≠ key e := by
  obtain ⟨-, -, -, -, -, hcut⟩ := h.together (key e)
  rw [hl, List.filter_append, List.filter_cons_of_pos (by simp), List.map_append, List.map_cons, he, hfull] at hcut
  have hnil := List.map_eq_nil_iff.mp (eq_nil_of_prefix_concat hcut hx)
  intro d hd hkey
  exact List.filter_eq_nil_iff.mp hnil d hd (by simpa using hkey)

end Blocks

end GameServer
