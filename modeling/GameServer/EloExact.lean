import GameServer.Results
import GameServer.Rounding
import Mathlib.Analysis.SpecialFunctions.Pow.Real

namespace GameServer

/-- The arithmetic of the rating service over the real numbers. -/
noncomputable def Elo.exact : Elo ℝ where
  expectedScore ratingA ratingB := 1 / (1 + (10 : ℝ) ^ (((ratingB - ratingA : Int) : ℝ) / 400))
  applyElo rating expected score := roundAway (rating + 32 * (score - expected))
  one := 1
  zero := 0

namespace Elo

noncomputable def odds (n : Int) : ℝ := (10 : ℝ) ^ ((n : ℝ) / 400)

noncomputable def swing (n : Int) : ℝ := 32 * odds n / (1 + odds n)

theorem odds_pos (n : Int) : 0 < odds n := Real.rpow_pos_of_pos (by norm_num) _

theorem odds_pow (n : Int) : odds n ^ 400 = (10 : ℝ) ^ n := by
  rw [odds, ← Real.rpow_natCast, ← Real.rpow_mul (by norm_num), ← Real.rpow_intCast]
  congr 1
  push_cast
  ring

theorem odds_neg (n : Int) : odds (-n) = (odds n)⁻¹ := by
  rw [odds, odds, ← Real.rpow_neg (by norm_num)]
  congr 1
  push_cast
  ring

theorem swing_bounds (n : Int) : 0 < swing n ∧ swing n < 32 := by
  have hpos := odds_pos n
  constructor
  · exact div_pos (by linarith) (by linarith)
  · rw [swing, div_lt_iff₀ (by linarith)]
    linarith

theorem pow_ne_of_odd {k j : Int} (hk : Odd k) {a : Nat} (ha : a ≠ 0) : k ^ 400 ≠ 10 ^ a * j ^ 400 := by
  intro h
  have hodd : Odd (k ^ 400) := hk.pow
  have heven : Even ((10 : Int) ^ a * j ^ 400) := ((Int.even_iff.mpr rfl).pow_of_ne_zero ha).mul_right _
  rw [h] at hodd
  exact Int.not_even_iff_odd.mpr hodd heven

/-- With x the odds, 32x / (1 + x) = k / 2 gives x = k / (64 - k), whose
fourhundredth power is no power of ten for an odd k. -/
theorem swing_not_halfway (n : Int) : ¬ Halfway (swing n) := by
  rintro ⟨m, hm⟩
  have hpos := odds_pos n
  have hk : odds n * ((64 - (2 * m + 1) : Int) : ℝ) = ((2 * m + 1 : Int) : ℝ) := by
    rw [swing, div_eq_iff (by linarith)] at hm
    push_cast
    linarith
  have hodd : Odd (2 * m + 1) := ⟨m, rfl⟩
  have hodd' : Odd (64 - (2 * m + 1)) := ⟨31 - m, by ring⟩
  generalize 2 * m + 1 = k at hk hodd hodd'
  have hpow : (10 : ℝ) ^ n * ((64 - k : Int) : ℝ) ^ 400 = (k : ℝ) ^ 400 := by
    rw [← odds_pow, ← mul_pow, hk]
  by_cases hn : n = 0
  · have hone : odds n = 1 := by simp [hn, odds]
    rw [hone, one_mul] at hk
    have hhalf : 64 - k = k := by exact_mod_cast hk
    rw [show k = 32 by omega] at hodd
    exact absurd hodd (by decide)
  obtain ⟨a, rfl | rfl⟩ := n.eq_nat_or_neg
  · rw [zpow_natCast] at hpow
    exact pow_ne_of_odd (j := 64 - k) hodd (by simpa using hn) (by exact_mod_cast hpow.symm)
  · rw [zpow_neg, zpow_natCast, inv_mul_eq_iff_eq_mul₀ (by positivity)] at hpow
    exact pow_ne_of_odd (j := k) hodd' (by simpa using hn) (by exact_mod_cast hpow)

noncomputable def stake (winnerRating loserRating : Int) : Int := round (swing (loserRating - winnerRating))

theorem stake_bounds (w l : Int) : 0 ≤ stake w l ∧ stake w l ≤ 32 := by
  obtain ⟨hlow, hhigh⟩ := round_bounds (swing_not_halfway (l - w))
  obtain ⟨hpos, hlt⟩ := swing_bounds (l - w)
  have hfrom : (-1 : ℝ) < stake w l := by rw [stake]; linarith
  have hto : (stake w l : ℝ) < 33 := by rw [stake]; linarith
  have hfrom : -1 < stake w l := by exact_mod_cast hfrom
  have hto : stake w l < 33 := by exact_mod_cast hto
  omega

theorem applyElo_winner (r w l : Int) : exact.applyElo r (exact.expectedScore w l) exact.one = r + stake w l := by
  have hpos := odds_pos (l - w)
  have hswing : 32 * (1 - 1 / (1 + odds (l - w))) = swing (l - w) := by
    rw [swing]
    field_simp
    ring
  change roundAway ((r : ℝ) + 32 * (1 - 1 / (1 + odds (l - w)))) = _
  rw [hswing, roundAway_add (swing_not_halfway _), stake]

theorem applyElo_loser (r w l : Int) : exact.applyElo r (exact.expectedScore l w) exact.zero = r - stake w l := by
  have hpos := odds_pos (l - w)
  have hswing : 32 * (0 - 1 / (1 + odds (w - l))) = -swing (l - w) := by
    rw [← Int.neg_sub l w, odds_neg, swing]
    field_simp
    ring
  change roundAway ((r : ℝ) + 32 * (0 - 1 / (1 + odds (w - l)))) = _
  rw [hswing, ← sub_eq_add_neg, roundAway_sub (swing_not_halfway _), stake]

end Elo

namespace RatingService

inductive Call
  | ensureUser (userId : Int) (username : String)
  | applyMatchResult (winnerId loserId : Int)
deriving DecidableEq, Repr

def perform {D : Type} (elo : Elo D) (entries : RatingService) : Call → RatingService
  | .ensureUser userId username => entries.ensureUser userId username
  | .applyMatchResult winnerId loserId => (entries.applyMatchResult elo winnerId loserId).1

def moved (e : RatingEntry) : Int := e.rating - initialRating

theorem total_moved (entries : RatingService) :
    Table.total moved entries = Table.total (·.rating) entries - 1000 * entries.keys.length := by
  rw [AList.keys, List.keys, List.length_map, Table.total, Table.total]
  induction entries.entries with
  | nil => rfl
  | cons e es ih =>
      rw [List.map_cons, List.sum_cons, ih, List.map_cons, List.sum_cons, List.length_cons, moved, initialRating]
      push_cast
      ring

theorem total_setRating {entries : RatingService} {u : Int} (hu : u ∈ entries) (r : Int) :
    Table.total moved (entries.setRating u r) = Table.total moved entries + (r - (entries.index u).rating) := by
  obtain ⟨e, he⟩ := (Table.mem_iff_lookup entries u).mp hu
  rw [setRating, Table.modify, he, Table.index_eq_of_lookup he]
  simp only [Table.total_insert, he, Option.map_some, Option.getD_some, moved]
  ring

theorem total_addWin {entries : RatingService} {u : Int} (hu : u ∈ entries) :
    Table.total moved (entries.addWin u) = Table.total moved entries :=
  (Table.total_modify (g := fun e => { e with wins := e.wins + 1 }) moved 0 hu
    (fun _ => (add_zero _).symm)).trans (add_zero _)

theorem total_addLoss {entries : RatingService} {u : Int} (hu : u ∈ entries) :
    Table.total moved (entries.addLoss u) = Table.total moved entries :=
  (Table.total_modify (g := fun e => { e with losses := e.losses + 1 }) moved 0 hu
    (fun _ => (add_zero _).symm)).trans (add_zero _)

theorem total_applyMatchResult (entries : RatingService) (w l : Int) :
    Table.total moved (entries.applyMatchResult Elo.exact w l).1 = Table.total moved entries := by
  have hw : w ∈ (entries.ensure w).ensure l := by simp [mem_ensure]
  have hl : l ∈ (entries.ensure w).ensure l := by simp [mem_ensure]
  have hnew : ∀ name, moved ⟨name, initialRating, 0, 0⟩ = 0 := fun _ => sub_self _
  simp only [applyMatchResult, Elo.applyElo_winner, Elo.applyElo_loser]
  rw [total_addLoss (by simpa using hl), total_addWin (by simpa using hw), total_setRating (by simpa using hl),
    total_setRating hw, total_ensure hnew, total_ensure hnew]
  ring

theorem total_perform (entries : RatingService) (call : Call) :
    Table.total moved (perform Elo.exact entries call) = Table.total moved entries := by
  cases call with
  | ensureUser u name => exact total_ensureUser (fun _ => sub_self _) (fun _ _ => rfl) entries u name
  | applyMatchResult w l => exact total_applyMatchResult entries w l

/-- Over the real numbers a result moves up to 32 points from the loser to the
winner, so all ratings together stay where they began. -/
theorem ratings_conserved :
    (∀ w l : Int,
      Elo.exact.applyElo w (Elo.exact.expectedScore w l) Elo.exact.one - w =
          l - Elo.exact.applyElo l (Elo.exact.expectedScore l w) Elo.exact.zero ∧
        0 ≤ Elo.exact.applyElo w (Elo.exact.expectedScore w l) Elo.exact.one - w ∧
        Elo.exact.applyElo w (Elo.exact.expectedScore w l) Elo.exact.one - w ≤ 32) ∧
      ∀ calls : List Call, Table.total (·.rating) (calls.foldl (perform Elo.exact) ∅) =
        1000 * (calls.foldl (perform Elo.exact) ∅).keys.length := by
  refine ⟨?_, ?_⟩
  · intro w l
    have hbounds := Elo.stake_bounds w l
    rw [Elo.applyElo_winner, Elo.applyElo_loser]
    omega
  · intro calls
    have hkept : ∀ entries : RatingService, Table.total moved entries = 0 →
        Table.total moved (calls.foldl (perform Elo.exact) entries) = 0 := by
      induction calls with
      | nil => exact fun _ h => h
      | cons call calls ih => exact fun entries h => ih _ ((total_perform entries call).trans h)
    have hzero := hkept ∅ rfl
    rw [total_moved] at hzero
    omega

end RatingService

end GameServer
