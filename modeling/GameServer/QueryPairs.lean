import GameServer.Blocks
import GameServer.Query

namespace GameServer

/-- The loop of ParseQueryParams from a position to its end. -/
inductive Scans (query : Bytes) : Nat → Table Bytes Bytes → Table Bytes Bytes → Prop
  | done {pos : Nat} (params : Table Bytes Bytes) (h : query.length ≤ pos) : Scans query pos params params
  | last {pos : Nat} (params : Table Bytes Bytes) (h : pos < query.length) (hamp : findFrom query 38 pos = none) :
      Scans query pos params (addPair params (query.drop pos))
  | next {pos amp : Nat} {params out : Table Bytes Bytes} (h : pos < query.length)
      (hamp : findFrom query 38 pos = some amp)
      (hrest : Scans query (amp + 1) (addPair params ((query.drop pos).take (amp - pos))) out) :
      Scans query pos params out

/-- The first segment whose text before its first = is the key has the value
after it. -/
def FirstValue (query key value : Bytes) : Prop :=
  61 ∉ key ∧ ∃ before after, query.splitOn 38 = before ++ (key ++ 61 :: value) :: after ∧
    ∀ segment ∈ before, ∀ other, segment ≠ key ++ 61 :: other

def joinPairs (pairs : List (Bytes × Bytes)) : Bytes :=
  List.intercalate [38] (pairs.map fun pair => pair.1 ++ 61 :: pair.2)

theorem findFrom_eq_none_iff {query : Bytes} {c : UInt8} {pos : Nat} :
    findFrom query c pos = none ↔ c ∉ query.drop pos := by
  rw [findFrom, Option.map_eq_none_iff, List.idxOf?_eq_none_iff]

theorem findFrom_split {query : Bytes} {c : UInt8} {pos amp : Nat} (h : findFrom query c pos = some amp) :
    pos ≤ amp ∧ c ∉ (query.drop pos).take (amp - pos) ∧
      query.drop pos = (query.drop pos).take (amp - pos) ++ c :: query.drop (amp + 1) := by
  obtain ⟨i, hi, rfl⟩ := Option.map_eq_some_iff.mp h
  obtain ⟨front, rest, hsplit, hfront, rfl⟩ := idxOf?_eq_some_iff_split.mp hi
  have htake : (query.drop pos).take (pos + front.length - pos) = front := by
    rw [Nat.add_sub_cancel_left, hsplit, List.take_left]
  have hdrop : query.drop (pos + front.length + 1) = rest := by
    rw [Nat.add_assoc, ← List.drop_drop, hsplit, ← List.drop_drop, List.drop_left]
    rfl
  rw [htake, hdrop]
  exact ⟨Nat.le_add_right _ _, hfront, hsplit⟩

theorem addPair_of_not {pair : Bytes} (h : 61 ∉ pair) (params : Table Bytes Bytes) : addPair params pair = params := by
  rw [addPair, List.idxOf?_eq_none_iff.mpr h]

theorem addPair_append {key : Bytes} (h : 61 ∉ key) (params : Table Bytes Bytes) (value : Bytes) :
    addPair params (key ++ 61 :: value) = emplace params key value := by
  have hdrop : (key ++ 61 :: value).drop (key.length + 1) = value := by
    rw [← List.drop_drop, List.drop_left]
    rfl
  have hlength : key.length + 1 ≤ (key ++ 61 :: value).length := by
    rw [List.length_append, List.length_cons]
    omega
  rw [addPair, idxOf?_eq_some_iff_split.mpr ⟨key, value, rfl, h, rfl⟩]
  dsimp only
  rw [if_pos hlength, List.take_left, hdrop]

theorem pair_cases (pair : Bytes) : 61 ∉ pair ∨ ∃ key value, pair = key ++ 61 :: value ∧ 61 ∉ key := by
  cases hidx : pair.idxOf? 61 with
  | none => exact Or.inl (List.idxOf?_eq_none_iff.mp hidx)
  | some eq =>
      obtain ⟨key, value, hpair, hkey, -⟩ := idxOf?_eq_some_iff_split.mp hidx
      exact Or.inr ⟨key, value, hpair, hkey⟩

theorem lookup_emplace (params : Table Bytes Bytes) (key value k : Bytes) :
    (emplace params key value).lookup k = (params.lookup k).or (if k = key then some value else none) := by
  rw [emplace]
  split
  next hin =>
    obtain ⟨old, hold⟩ := (Table.mem_iff_lookup _ _).mp hin
    by_cases hk : k = key
    · rw [hk, hold, Option.some_or]
    · rw [if_neg hk, Option.or_none]
  next hnew =>
    rw [Table.lookup_insert_eq]
    by_cases hk : k = key
    · rw [hk, if_pos rfl, if_pos rfl, AList.lookup_eq_none.mpr hnew, Option.none_or]
    · rw [if_neg hk, if_neg hk, Option.or_none]

theorem lookup_addPair (params : Table Bytes Bytes) (pair k : Bytes) :
    (addPair params pair).lookup k = (params.lookup k).or ((addPair ∅ pair).lookup k) := by
  rcases pair_cases pair with hno | ⟨key, value, rfl, hkey⟩
  · rw [addPair_of_not hno, addPair_of_not hno, AList.lookup_empty, Option.or_none]
  · rw [addPair_append hkey, addPair_append hkey, lookup_emplace, lookup_emplace, AList.lookup_empty, Option.none_or]

theorem addPair_empty_iff (pair k v : Bytes) :
    (addPair ∅ pair).lookup k = some v ↔ 61 ∉ k ∧ pair = k ++ 61 :: v := by
  constructor
  · intro h
    rcases pair_cases pair with hno | ⟨key, value, rfl, hkey⟩
    · rw [addPair_of_not hno, AList.lookup_empty] at h
      cases h
    · rw [addPair_append hkey, lookup_emplace, AList.lookup_empty, Option.none_or] at h
      split at h
      next hk =>
        cases h
        rw [hk]
        exact ⟨hkey, rfl⟩
      next => cases h
  · rintro ⟨hk, rfl⟩
    rw [addPair_append hk, lookup_emplace, AList.lookup_empty, Option.none_or, if_pos rfl]

theorem lookup_foldl_addPair (segments : List Bytes) (params : Table Bytes Bytes) (k : Bytes) :
    (segments.foldl addPair params).lookup k =
      (params.lookup k).or (segments.findSome? fun segment => (addPair ∅ segment).lookup k) := by
  induction segments generalizing params with
  | nil => rw [List.foldl_nil, List.findSome?_nil, Option.or_none]
  | cons segment segments ih =>
      rw [List.foldl_cons, ih, lookup_addPair, Option.or_assoc, List.findSome?_cons]
      cases (addPair ∅ segment).lookup k <;> rfl

theorem scans_iff {query : Bytes} {pos : Nat} {params out : Table Bytes Bytes} :
    Scans query pos params out ↔ out = ((query.drop pos).splitOn 38).foldl addPair params := by
  have hend : ∀ pos params, query.length ≤ pos → ((query.drop pos).splitOn 38).foldl addPair params = params := by
    intro pos params h
    rw [List.drop_eq_nil_of_le h]
    exact addPair_of_not List.not_mem_nil params
  have hlast : ∀ pos params, findFrom query 38 pos = none →
      ((query.drop pos).splitOn 38).foldl addPair params = addPair params (query.drop pos) := by
    intro pos params h
    rw [List.splitOn_eq_singleton (findFrom_eq_none_iff.mp h)]
    rfl
  have hnext : ∀ pos amp params, findFrom query 38 pos = some amp →
      ((query.drop pos).splitOn 38).foldl addPair params =
        ((query.drop (amp + 1)).splitOn 38).foldl addPair (addPair params ((query.drop pos).take (amp - pos))) := by
    intro pos amp params h
    obtain ⟨-, hno, hsplit⟩ := findFrom_split h
    conv_lhs => rw [hsplit, List.splitOn_append_cons_self_of_not_mem hno, List.foldl_cons]
  constructor
  · intro h
    induction h with
    | done params h => exact (hend _ params h).symm
    | last params h hamp => exact (hlast _ params hamp).symm
    | next h hamp hrest ih => rw [ih, hnext _ _ _ hamp]
  · rintro rfl
    induction hn : query.length - pos using Nat.strongRecOn generalizing pos params with
    | ind n ih =>
        subst hn
        by_cases h : pos < query.length
        · cases hamp : findFrom query 38 pos with
          | none =>
              rw [hlast _ params hamp]
              exact .last params h hamp
          | some amp =>
              have hle := (findFrom_split hamp).1
              rw [hnext _ _ params hamp]
              exact .next h hamp (ih _ (by omega) rfl)
        · rw [hend _ params (Nat.le_of_not_lt h)]
          exact .done params (Nat.le_of_not_lt h)

theorem scans_parseQueryLoop (query : Bytes) {rounds pos : Nat} (h : query.length - pos ≤ rounds)
    (params : Table Bytes Bytes) : Scans query pos params (parseQueryLoop query rounds pos params) := by
  induction rounds generalizing pos params with
  | zero => exact .done params (by omega)
  | succ rounds ih =>
      rw [parseQueryLoop]
      split
      next hpos =>
        cases hamp : findFrom query 38 pos with
        | none => exact .last params hpos hamp
        | some amp =>
            have hle := (findFrom_split hamp).1
            exact .next hpos hamp (ih (by omega) _)
      next hpos => exact .done params (Nat.le_of_not_lt hpos)

theorem parseQueryParams_eq (query : Bytes) : parseQueryParams query = (query.splitOn 38).foldl addPair ∅ :=
  scans_iff.mp (scans_parseQueryLoop query (Nat.sub_le _ _) ∅)

theorem lookup_parseQueryParams_iff (query key value : Bytes) :
    (parseQueryParams query).lookup key = some value ↔ FirstValue query key value := by
  rw [parseQueryParams_eq, lookup_foldl_addPair, AList.lookup_empty, Option.none_or, List.findSome?_eq_some_iff]
  constructor
  · rintro ⟨before, segment, after, hsplit, hsegment, hbefore⟩
    obtain ⟨hkey, rfl⟩ := (addPair_empty_iff _ _ _).mp hsegment
    refine ⟨hkey, before, after, hsplit, ?_⟩
    rintro _ hmem other rfl
    have hnone := hbefore _ hmem
    rw [(addPair_empty_iff _ _ other).mpr ⟨hkey, rfl⟩] at hnone
    cases hnone
  · rintro ⟨hkey, before, after, hsplit, hbefore⟩
    refine ⟨before, _, after, hsplit, (addPair_empty_iff _ _ _).mpr ⟨hkey, rfl⟩, ?_⟩
    intro segment hmem
    cases hl : (addPair ∅ segment).lookup key with
    | none => rfl
    | some other => exact absurd ((addPair_empty_iff _ _ _).mp hl).2 (hbefore segment hmem other)

theorem findSome?_pairs {pairs : List (Bytes × Bytes)} (h : ∀ pair ∈ pairs, 61 ∉ pair.1) (key : Bytes) :
    (pairs.map fun pair => pair.1 ++ 61 :: pair.2).findSome? (fun segment => (addPair ∅ segment).lookup key) =
      pairs.lookup key := by
  induction pairs with
  | nil => rfl
  | cons pair pairs ih =>
      rw [List.map_cons, List.findSome?_cons, addPair_append (h pair List.mem_cons_self), lookup_emplace,
        AList.lookup_empty, Option.none_or, List.lookup_cons, ih fun p hp => h p (List.mem_cons_of_mem _ hp)]
      by_cases hk : key = pair.1
      · rw [if_pos hk, beq_iff_eq.mpr hk]
      · rw [if_neg hk, beq_eq_false_iff_ne.mpr hk]

theorem lookup_joinPairs {pairs : List (Bytes × Bytes)}
    (h : ∀ pair ∈ pairs, 38 ∉ pair.1 ∧ 61 ∉ pair.1 ∧ 38 ∉ pair.2) (key : Bytes) :
    (parseQueryParams (joinPairs pairs)).lookup key = pairs.lookup key := by
  have hsegments : ∀ segment ∈ pairs.map fun pair => pair.1 ++ 61 :: pair.2, 38 ∉ segment := by
    intro segment hmem
    obtain ⟨pair, hp, rfl⟩ := List.mem_map.mp hmem
    obtain ⟨hk, -, hv⟩ := h pair hp
    simp [hk, hv]
  rw [parseQueryParams_eq, joinPairs]
  cases pairs with
  | nil => rfl
  | cons pair pairs =>
      rw [List.splitOn_intercalate 38 hsegments (by simp), lookup_foldl_addPair, AList.lookup_empty, Option.none_or]
      exact findSome?_pairs (fun p hp => (h p hp).2.1) key

/-- ParseQueryParams comes to its end with the first value of each key, and
reads back the pairs that a query was made of. -/
theorem parseQueryParams_spec :
    (∀ query out, Scans query 0 ∅ out ↔ out = parseQueryParams query) ∧
    (∀ query key value, (parseQueryParams query).lookup key = some value ↔ FirstValue query key value) ∧
    ∀ pairs : List (Bytes × Bytes), (∀ pair ∈ pairs, 38 ∉ pair.1 ∧ 61 ∉ pair.1 ∧ 38 ∉ pair.2) →
      ∀ key, (parseQueryParams (joinPairs pairs)).lookup key = pairs.lookup key := by
  refine ⟨?_, lookup_parseQueryParams_iff, fun pairs h key => lookup_joinPairs h key⟩
  intro query out
  rw [parseQueryParams_eq]
  exact scans_iff

theorem parseQueryParams_spec_pages :
    joinPairs [(bytes "page", bytes "2"), (bytes "size", bytes "7"), (bytes "page", bytes "3")] =
      bytes "page=2&size=7&page=3" ∧
    (parseQueryParams (joinPairs
      [(bytes "page", bytes "2"), (bytes "size", bytes "7"), (bytes "page", bytes "3")])).lookup (bytes "page") =
        some (bytes "2") := by
  refine ⟨by decide, ?_⟩
  rw [parseQueryParams_spec.2.2 _ (by decide)]
  decide

end GameServer
