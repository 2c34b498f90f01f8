import GameServer.Json
import GameServer.Results
import Mathlib.Data.Int.Interval

namespace GameServer

section Pages

variable {α : Type}

theorem flatMap_pages (l : List α) (size n : Nat) :
    ((List.range n).flatMap fun p => (l.drop (p * size)).take size) = l.take (n * size) := by
  induction n with
  | zero => simp
  | succ n ih => rw [List.range_succ, List.flatMap_append, List.flatMap_singleton, ih, Nat.succ_mul, List.take_add]

theorem countP_ahead {r : α → α → Prop} [DecidableRel r] (hasymm : ∀ a b, r a b → ¬ r b a) {l : List α}
    (h : l.Pairwise r) {i : Nat} {a : α} (ha : l[i]? = some a) : l.countP (fun b => r b a) = i := by
  obtain ⟨hi, rfl⟩ := List.getElem?_eq_some_iff.mp ha
  have hsplit : l = l.take i ++ l[i] :: l.drop (i + 1) := by simp
  have hpair := h
  rw [hsplit, List.pairwise_append, List.pairwise_cons] at hpair
  have hfront : (l.take i).countP (fun b => r b l[i]) = (l.take i).length := by
    apply List.countP_eq_length.mpr
    intro b hb
    simpa using hpair.2.2 b hb l[i] List.mem_cons_self
  have hback : (l[i] :: l.drop (i + 1)).countP (fun b => r b l[i]) = 0 := by
    apply List.countP_eq_zero.mpr
    intro b hb
    rcases List.mem_cons.mp hb with rfl | hb
    · simpa using fun hself => hasymm _ _ hself hself
    · simpa using hasymm _ _ (hpair.2.1.1 b hb)
  calc
    l.countP (fun b => r b l[i]) = (l.take i ++ l[i] :: l.drop (i + 1)).countP (fun b => r b l[i]) :=
      congrArg _ hsplit
    _ = (l.take i).length := by rw [List.countP_append, hfront, hback, Nat.add_zero]
    _ = i := List.length_take_of_le (Nat.le_of_lt hi)

end Pages

structure LeaderboardPage where
  total : UInt64
  entries : List RatingSummary
deriving DecidableEq, Repr

namespace RatingService

def items (entries : RatingService) : List (Int × RatingEntry) := entries.entries.map fun e => (e.1, e.2)

def summary (item : Int × RatingEntry) : RatingSummary :=
  ⟨item.1, item.2.username, item.2.rating, item.2.wins, item.2.losses⟩

def Ahead (a b : Int × RatingEntry) : Prop :=
  if a.2.rating = b.2.rating then a.1 < b.1 else a.2.rating > b.2.rating

instance : DecidableRel Ahead := fun a b =>
  inferInstanceAs (Decidable (if a.2.rating = b.2.rating then a.1 < b.1 else a.2.rating > b.2.rating))

def sortedItems (entries : RatingService) : List (Int × RatingEntry) :=
  entries.items.insertionSort fun a b => ¬ Ahead b a

/-- All sizes are 64-bit and wrap. -/
def getLeaderboard (entries : RatingService) (page size : UInt64) : LeaderboardPage :=
  let items := entries.sortedItems
  let total := UInt64.ofNat items.length
  let start := (page - 1) * size
  let stop := if total < start + size then total else start + size
  let summaries :=
    if start < total then ((items.drop start.toNat).take (stop.toNat - start.toNat)).map summary else []
  ⟨total, summaries⟩

def rankedEntries (page size : UInt64) (data : LeaderboardPage) : List (Int × RatingSummary) :=
  data.entries.mapIdx fun i e => (Json.narrow ((page - 1) * size + UInt64.ofNat i + 1).toNat, e)

def Precedes (a b : RatingSummary) : Prop := a.rating > b.rating ∨ (a.rating = b.rating ∧ a.userId < b.userId)

instance : DecidableRel Precedes := fun _ _ => inferInstanceAs (Decidable (_ ∨ _))

def allPages (entries : RatingService) (size : UInt64) : List RatingSummary :=
  (List.range ((entries.keys.length + size.toNat - 1) / size.toNat)).flatMap fun p =>
    (entries.getLeaderboard (UInt64.ofNat (p + 1)) size).entries

theorem precedes_summary (a b : Int × RatingEntry) : Precedes (summary a) (summary b) ↔ Ahead a b := by
  simp only [Precedes, summary, Ahead]
  split <;> omega

theorem ahead_asymm (a b : Int × RatingEntry) (h : Ahead a b) : ¬ Ahead b a := by
  simp only [Ahead] at *
  split at h <;> split <;> omega

theorem notAhead_trans {a b c : Int × RatingEntry} (hab : ¬ Ahead b a) (hbc : ¬ Ahead c b) : ¬ Ahead c a := by
  simp only [Ahead] at *
  split at hab <;> split at hbc <;> split <;> omega

theorem ahead_of_not {a b : Int × RatingEntry} (h : ¬ Ahead b a) (hne : a.1 ≠ b.1) : Ahead a b := by
  simp only [Ahead] at *
  split at h <;> split <;> omega

theorem map_fst_items (entries : RatingService) : entries.items.map (·.1) = entries.keys := by
  simp [items, AList.keys, List.keys, Function.comp_def]

theorem length_items (entries : RatingService) : entries.items.length = entries.keys.length := by
  rw [← map_fst_items, List.length_map]

theorem sortedItems_perm (entries : RatingService) : entries.sortedItems.Perm entries.items :=
  List.perm_insertionSort _ _

theorem length_sortedItems (entries : RatingService) : entries.sortedItems.length = entries.keys.length :=
  entries.sortedItems_perm.length_eq.trans entries.length_items

theorem sortedItems_nodup (entries : RatingService) : (entries.sortedItems.map (·.1)).Nodup := by
  rw [(entries.sortedItems_perm.map _).nodup_iff, map_fst_items]
  exact entries.keys_nodup

theorem sortedItems_ahead (entries : RatingService) : entries.sortedItems.Pairwise Ahead := by
  have : Std.Total fun a b : Int × RatingEntry => ¬ Ahead b a := ⟨fun a b => by
    by_cases h : Ahead b a
    · exact Or.inr (ahead_asymm b a h)
    · exact Or.inl h⟩
  have : IsTrans (Int × RatingEntry) fun a b => ¬ Ahead b a := ⟨fun _ _ _ => notAhead_trans⟩
  have hsorted := List.pairwise_insertionSort (fun a b : Int × RatingEntry => ¬ Ahead b a) entries.items
  have hdistinct := List.pairwise_map.mp entries.sortedItems_nodup
  exact (hsorted.and hdistinct).imp fun h => ahead_of_not h.1 h.2

/-- The order of iteration does not show in the sorted list. -/
theorem sortedItems_congr {entries other : RatingService} (h : other.entries.Perm entries.entries) :
    other.sortedItems = entries.sortedItems := by
  have hperm : other.sortedItems.Perm entries.sortedItems :=
    (other.sortedItems_perm.trans (h.map _)).trans entries.sortedItems_perm.symm
  refine hperm.eq_of_pairwise ?_ other.sortedItems_ahead entries.sortedItems_ahead
  intro a b _ _ hab hba
  exact absurd hba (ahead_asymm a b hab)

theorem start_toNat {page : UInt64} (hpage : 1 ≤ page) (size : UInt64) :
    ((page - 1) * size).toNat = (page.toNat - 1) * size.toNat % 2 ^ 64 := by
  rw [UInt64.toNat_mul, UInt64.toNat_sub_of_le _ _ hpage]
  rfl

theorem getLeaderboard_entries (entries : RatingService) (page : UInt64) {size : UInt64} (hsize : size ≤ 50)
    (hsmall : entries.keys.length ≤ 2 ^ 32) :
    (entries.getLeaderboard page size).entries =
      ((entries.sortedItems.drop ((page - 1) * size).toNat).take size.toNat).map summary := by
  have hlength := entries.length_sortedItems
  have htotal : (UInt64.ofNat entries.sortedItems.length).toNat = entries.keys.length := by
    rw [hlength, UInt64.toNat_ofNat', Nat.mod_eq_of_lt (by omega)]
  have hfifty : size.toNat ≤ 50 := UInt64.le_iff_toNat_le.mp hsize
  simp only [getLeaderboard]
  generalize (page - 1) * size = start
  by_cases hstart : start < UInt64.ofNat entries.sortedItems.length
  · have hlt : start.toNat < entries.keys.length := by
      rw [← htotal]
      exact UInt64.lt_iff_toNat_lt.mp hstart
    have hstop : (start + size).toNat = start.toNat + size.toNat := by
      rw [UInt64.toNat_add, Nat.mod_eq_of_lt (by omega)]
    rw [if_pos hstart]
    split
    next hover =>
      rw [UInt64.lt_iff_toNat_lt, htotal, hstop] at hover
      rw [htotal, List.take_of_length_le (by rw [List.length_drop]; omega),
        List.take_of_length_le (by rw [List.length_drop]; omega)]
    next =>
      rw [hstop, Nat.add_sub_cancel_left]
  · have hle : entries.keys.length ≤ start.toNat := by
      rw [← htotal]
      exact Nat.not_lt.mp fun hlt => hstart (UInt64.lt_iff_toNat_lt.mpr hlt)
    rw [if_neg hstart, List.drop_of_length_le (hlength ▸ hle), List.take_nil, List.map_nil]

theorem getLeaderboard_total (entries : RatingService) (page size : UInt64) (hsmall : entries.keys.length ≤ 2 ^ 32) :
    (entries.getLeaderboard page size).total.toNat = entries.keys.length := by
  change (UInt64.ofNat entries.sortedItems.length).toNat = entries.keys.length
  rw [length_sortedItems, UInt64.toNat_ofNat', Nat.mod_eq_of_lt (by omega)]

theorem length_keys_le {entries : RatingService} (h : ∀ userId ∈ entries, Json.FitsInt userId) :
    entries.keys.length ≤ 2 ^ 32 := by
  have hsub : entries.keys.toFinset ⊆ Finset.Icc (-2147483648) 2147483647 := by
    intro userId hin
    exact Finset.mem_Icc.mpr (h userId (AList.mem_keys.mpr (List.mem_toFinset.mp hin)))
  have hcard := Finset.card_le_card hsub
  rw [List.toFinset_card_of_nodup entries.keys_nodup, Int.card_Icc] at hcard
  exact hcard

/-- The product that finds the beginning of a page wraps: a page is empty
exactly when what is left of the product is past the end. -/
theorem past_end_empty_iff {entries : RatingService} (hids : ∀ userId ∈ entries, Json.FitsInt userId)
    {page size : UInt64} (hpage : 1 ≤ page) (hsize : 1 ≤ size ∧ size ≤ 50) :
    (entries.getLeaderboard page size).entries = [] ↔
      entries.keys.length ≤ (page.toNat - 1) * size.toNat % 2 ^ 64 := by
  have hone : 1 ≤ size.toNat := UInt64.le_iff_toNat_le.mp hsize.1
  rw [getLeaderboard_entries entries page hsize.2 (length_keys_le hids), start_toNat hpage, List.map_eq_nil_iff,
    List.take_eq_nil_iff, List.drop_eq_nil_iff, length_sortedItems]
  constructor
  · rintro (h | h)
    · omega
    · exact h
  · exact Or.inr

def twoUsers : RatingService := ((∅ : RatingService).ensureUser 1 "kim").ensureUser 2 "lee"

theorem twoUsers_fit : ∀ userId ∈ twoUsers, Json.FitsInt userId := by
  intro userId h
  have hkeys : userId ∈ [2, 1] := AList.mem_keys.mp h
  simp only [List.mem_cons, List.not_mem_nil, or_false] at hkeys
  rw [Json.FitsInt]
  omega

theorem past_end_empty_second : (twoUsers.getLeaderboard 2 2).entries = [] ↔
    twoUsers.keys.length ≤ ((2 : UInt64).toNat - 1) * (2 : UInt64).toNat % 2 ^ 64 :=
  past_end_empty_iff twoUsers_fit (by decide) (by decide)

/-- Page 2 to the 63 plus one, of two entries, begins at 2 to the 64 and shows
the first page again. -/
theorem not_empty_of_wrap : twoUsers.keys.length ≤ ((9223372036854775809 : UInt64).toNat - 1) * (2 : UInt64).toNat ∧
    (twoUsers.getLeaderboard 9223372036854775809 2).entries.map (·.userId) = [1, 2] := by
  decide

theorem start_of_lt {entries : RatingService} {size : UInt64} (hsize : 1 ≤ size ∧ size ≤ 50)
    (htotal : entries.keys.length < 2147483648) {p : Nat} (hp : p * size.toNat < entries.keys.length) :
    ((UInt64.ofNat (p + 1) - 1) * size).toNat = p * size.toNat := by
  have hone : 1 ≤ size.toNat := UInt64.le_iff_toNat_le.mp hsize.1
  have hle : p ≤ p * size.toNat := Nat.le_mul_of_pos_right p hone
  have hpage : (UInt64.ofNat (p + 1)).toNat = p + 1 := by
    rw [UInt64.toNat_ofNat', Nat.mod_eq_of_lt (by omega)]
  have hfirst : 1 ≤ UInt64.ofNat (p + 1) := by
    rw [UInt64.le_iff_toNat_le, hpage]
    exact Nat.succ_le_succ (Nat.zero_le p)
  rw [start_toNat hfirst, hpage, Nat.add_sub_cancel, Nat.mod_eq_of_lt (by omega)]

theorem lt_of_lt_pages {n size p : Nat} (hsize : 1 ≤ size) (hp : p < (n + size - 1) / size) : p * size < n := by
  have h := (Nat.le_div_iff_mul_le hsize).mp hp
  rw [Nat.succ_mul] at h
  omega

theorem allPages_eq (entries : RatingService) {size : UInt64} (hsize : 1 ≤ size ∧ size ≤ 50)
    (htotal : entries.keys.length < 2147483648) : entries.allPages size = entries.sortedItems.map summary := by
  have hone : 1 ≤ size.toNat := UInt64.le_iff_toNat_le.mp hsize.1
  have hpages : entries.allPages size =
      (List.range ((entries.keys.length + size.toNat - 1) / size.toNat)).flatMap fun p =>
        ((entries.sortedItems.map summary).drop (p * size.toNat)).take size.toNat := by
    apply List.flatMap_congr
    intro p hp
    have hlt := lt_of_lt_pages hone (List.mem_range.mp hp)
    rw [getLeaderboard_entries entries _ hsize.2 (by omega), start_of_lt hsize htotal hlt, List.map_take,
      List.map_drop]
  have hall : entries.keys.length ≤ (entries.keys.length + size.toNat - 1) / size.toNat * size.toNat := by
    have hdiv := Nat.lt_div_mul_add (a := entries.keys.length + size.toNat - 1) hone
    omega
  rw [hpages, flatMap_pages, List.take_of_length_le]
  rw [List.length_map, length_sortedItems]
  exact hall

theorem precedes_asymm (a b : RatingSummary) (h : Precedes a b) : ¬ Precedes b a := by
  rw [Precedes] at *
  omega

theorem sortedItems_precedes (entries : RatingService) :
    (entries.sortedItems.map summary).Pairwise Precedes :=
  List.pairwise_map.mpr (entries.sortedItems_ahead.imp fun h => (precedes_summary _ _).mpr h)

theorem rank_of_entry {entries : RatingService} {page size : UInt64} (hsize : size ≤ 50)
    (htotal : entries.keys.length < 2147483648) {rank : Int} {entry : RatingSummary}
    (h : (rank, entry) ∈ rankedEntries page size (entries.getLeaderboard page size)) :
    rank = 1 + ((entries.items.map summary).countP fun other => Precedes other entry : Nat) := by
  obtain ⟨i, hi, he⟩ := List.mem_mapIdx.mp h
  obtain ⟨hrank, hentry⟩ := Prod.mk.inj he
  have hat : (entries.getLeaderboard page size).entries[i]? = some entry := by
    rw [List.getElem?_eq_getElem hi, hentry]
  rw [getLeaderboard_entries entries page hsize (by omega), List.map_take, List.map_drop, List.getElem?_take] at hat
  split at hat
  next =>
    rw [List.getElem?_drop] at hat
    have hplace := countP_ahead precedes_asymm entries.sortedItems_precedes hat
    have hperm := (entries.sortedItems_perm.map summary).countP_eq fun other => decide (Precedes other entry)
    have hlt := (List.getElem?_eq_some_iff.mp hat).1
    rw [List.length_map, length_sortedItems] at hlt
    have hsum : ((page - 1) * size + UInt64.ofNat i).toNat = ((page - 1) * size).toNat + i := by
      rw [UInt64.toNat_add, UInt64.toNat_ofNat', Nat.mod_eq_of_lt (by omega : i < 2 ^ 64), Nat.mod_eq_of_lt]
      omega
    have hnumber : ((page - 1) * size + UInt64.ofNat i + 1).toNat = ((page - 1) * size).toNat + i + 1 := by
      rw [UInt64.toNat_add, hsum, UInt64.toNat_one, Nat.mod_eq_of_lt]
      omega
    rw [← hrank, hnumber, ← hperm, hplace]
    have hfits : Json.FitsInt ((((page - 1) * size).toNat + i + 1 : Nat) : Int) := by
      rw [Json.FitsInt]
      omega
    rw [(Json.narrow_eq_self_iff _).mpr hfits]
    omega
  next => cases hat

theorem length_of_full_page {entries : RatingService} {size : UInt64} (hsize : 1 ≤ size ∧ size ≤ 50)
    (htotal : entries.keys.length < 2147483648) {p : Nat}
    (hp : p + 1 < (entries.keys.length + size.toNat - 1) / size.toNat) :
    (entries.getLeaderboard (UInt64.ofNat (p + 1)) size).entries.length = size.toNat := by
  have hone : 1 ≤ size.toNat := UInt64.le_iff_toNat_le.mp hsize.1
  have hnext := lt_of_lt_pages hone hp
  rw [Nat.succ_mul] at hnext
  rw [getLeaderboard_entries entries _ hsize.2 (by omega), start_of_lt hsize htotal (by omega), List.length_map,
    List.length_take_of_le]
  rw [List.length_drop, length_sortedItems]
  omega

end RatingService

end GameServer
