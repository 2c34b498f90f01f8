import GameServer.Consistency
import GameServer.EloExact
import GameServer.ServerStep
import GameServer.Spread
import GameServer.Standings

namespace GameServer

namespace Elo

theorem odds_pow_le {n : Int} {a b : Nat} (h : a * n ≤ -(b * 400)) : odds n ^ a * 10 ^ b ≤ 1 := by
  have hexponent : (n : ℝ) / 400 * a ≤ -b := by
    have hcast : (a : ℝ) * n ≤ -(b * 400) := by exact_mod_cast h
    linarith
  have hpow : odds n ^ a ≤ (10 : ℝ) ^ (-(b : ℝ)) := by
    rw [odds, ← Real.rpow_natCast, ← Real.rpow_mul (by norm_num)]
    exact Real.rpow_le_rpow_of_exponent_le (by norm_num) hexponent
  rw [Real.rpow_neg (by norm_num), Real.rpow_natCast, le_inv_comm₀ (pow_pos (odds_pos n) a) (by positivity)] at hpow
  rw [← le_div_iff₀' (pow_pos (odds_pos n) a), one_div]
  exact hpow

/-- From 720 above a winner gains nothing: 63 to the fifth is less than a
billion. -/
theorem stake_of_far {w l : Int} (h : 720 ≤ w - l) : stake w l = 0 := by
  have hpos := odds_pos (l - w)
  have hpow := odds_pow_le (n := l - w) (a := 5) (b := 9) (by push_cast; omega)
  have hodds : 63 * odds (l - w) < 1 := by
    by_contra hge
    have hfifth : (1 : ℝ) ≤ (63 * odds (l - w)) ^ 5 := one_le_pow₀ (not_lt.mp hge)
    rw [mul_pow] at hfifth
    nlinarith
  have hswing : swing (l - w) < 1 / 2 := by
    rw [swing, div_lt_iff₀ (by linarith)]
    linarith
  have hround := (round_bounds (swing_not_halfway (l - w))).1
  have hlt : (stake w l : ℝ) < 1 := by
    rw [stake]
    linarith
  have hlt : stake w l < 1 := by exact_mod_cast hlt
  have hge := (stake_bounds w l).1
  omega

theorem stake_of_ahead {w l : Int} (h : 600 ≤ w - l) : stake w l ≤ 1 := by
  have hpos := odds_pos (l - w)
  have hpow := odds_pow_le (n := l - w) (a := 2) (b := 3) (by push_cast; omega)
  have hodds : 61 * odds (l - w) < 3 := by
    by_contra hge
    have hsquare : (3 : ℝ) ^ 2 ≤ (61 * odds (l - w)) ^ 2 := by
      exact pow_le_pow_left₀ (by norm_num) (not_lt.mp hge) 2
    rw [mul_pow] at hsquare
    nlinarith
  have hswing : swing (l - w) < 3 / 2 := by
    rw [swing, div_lt_iff₀ (by linarith)]
    linarith
  have hround := (round_bounds (swing_not_halfway (l - w))).1
  have hlt : (stake w l : ℝ) < 2 := by
    rw [stake]
    linarith
  have hlt : stake w l < 2 := by exact_mod_cast hlt
  omega

theorem stake_limit (w l : Int) (h : 0 < stake w l) : w - l + 2 * stake w l ≤ 721 := by
  have hnear : w - l < 720 := by
    by_contra hfar
    rw [stake_of_far (Int.not_lt.mp hfar)] at h
    omega
  by_cases hahead : 600 ≤ w - l
  · have hone := stake_of_ahead hahead
    omega
  · have hmost := (stake_bounds w l).2
    omega

end Elo

namespace RatingService

open Finset

def height (entries : RatingService) (u : Int) : Int := (entries.standing u).rating - initialRating

def users (entries : RatingService) : Finset Int := entries.keys.toFinset

theorem mem_users (entries : RatingService) (u : Int) : u ∈ entries.users ↔ u ∈ entries := by
  rw [users, List.mem_toFinset, AList.mem_keys]

theorem card_users (entries : RatingService) : entries.users.card = entries.keys.length :=
  List.toFinset_card_of_nodup entries.keys_nodup

theorem height_of_notMem {entries : RatingService} {u : Int} (h : u ∉ entries) : entries.height u = 0 := by
  rw [height, standing, AList.lookup_eq_none.mpr h]
  rfl

theorem users_ensureUser (entries : RatingService) (u : Int) (name : String) :
    (entries.ensureUser u name).users = insert u entries.users := by
  ext v
  rw [mem_insert, mem_users, mem_users, mem_ensureUser]

theorem users_applyMatchResult {D : Type} (elo : Elo D) (entries : RatingService) (w l : Int) :
    (entries.applyMatchResult elo w l).1.users = insert w (insert l entries.users) := by
  ext v
  rw [mem_insert, mem_insert, mem_users, mem_users, mem_applyMatchResult]

theorem height_applyMatchResult (entries : RatingService) (w l : Int) :
    (entries.applyMatchResult Elo.exact w l).1.height =
      transfer entries.height w l (Elo.stake (entries.standing w).rating (entries.standing l).rating) := by
  funext v
  rw [height, standing_applyMatchResult, outcome, Elo.applyElo_winner, Elo.applyElo_loser, transfer, height]
  by_cases hw : v = w
  · subst hw
    by_cases hl : v = l
    · subst hl
      simp
    · simp [hl]
      ring
  · by_cases hl : v = l
    · subst hl
      simp [hw]
      ring
    · simp [hw, hl]

/-- No win takes ratings further apart than 721. -/
def Settled (entries : RatingService) : Prop := GameServer.Settled 721 entries.users entries.height

theorem settled_empty : Settled ∅ := .empty _ _

theorem Settled.ensureUser {entries : RatingService} (h : entries.Settled) (u : Int) (name : String) :
    (entries.ensureUser u name).Settled := by
  have hheight : (entries.ensureUser u name).height = entries.height := by
    funext v
    rw [height, standing_ensureUser, height]
  rw [Settled, users_ensureUser, hheight]
  exact GameServer.Settled.newcomer h (by norm_num) fun hu => height_of_notMem (mt (mem_users _ _).mpr hu)

theorem Settled.applyMatchResult {entries : RatingService} (h : entries.Settled) (w l : Int) :
    (entries.applyMatchResult Elo.exact w l).1.Settled := by
  have hground : ∀ u, u ∉ entries.users → entries.height u = 0 :=
    fun u hu => height_of_notMem (mt (mem_users _ _).mpr hu)
  have hl : GameServer.Settled 721 (insert l entries.users) entries.height :=
    GameServer.Settled.newcomer h (by norm_num) (hground l)
  have hw : GameServer.Settled 721 (insert w (insert l entries.users)) entries.height := by
    refine hl.newcomer (by norm_num) ?_
    intro hout
    exact hground w fun hin => hout (mem_insert_of_mem hin)
  rw [Settled, users_applyMatchResult, height_applyMatchResult]
  apply hw.exchange (by simp) (by simp) (Elo.stake_bounds _ _).1
  intro hpos
  have hlimit := Elo.stake_limit _ _ hpos
  rw [height, height]
  omega

end RatingService

namespace Server

theorem settled_effect {cfg : Config ℝ} (hexact : cfg.elo = Elo.exact) {s t : Server} (h : s.ratings.Settled)
    (he : Effect cfg s t) : t.ratings.Settled := by
  cases he with
  | ensure | rename => exact h.ensureUser _ _
  | rate =>
      change (s.ratings.applyMatchResult cfg.elo _ _).1.Settled
      rw [hexact]
      exact h.applyMatchResult _ _
  | stay | queue | create | start | tick | disarm | send | schedule | finish | save | skip | release | call | input =>
      exact h

/-- Over the real numbers the ratings of a server stay about the initial one:
however it is chosen, a group of users stands above it only as far as rungs of
721 allow. So no rating of five million users leaves the range of an int. -/
theorem ratings_bounded {cfg : Config ℝ} (hexact : cfg.elo = Elo.exact) {s : Server}
    (hr : (machine cfg).Reachable s) :
    (∀ group ⊆ s.ratings.users, 2 * ∑ u ∈ group, (s.ratings.height u) ≤
      721 * (group.card * (s.ratings.keys.length - group.card))) ∧
    ∀ u entry, s.ratings.lookup u = some entry →
      2 * |entry.rating - 1000| ≤ 721 * (s.ratings.keys.length - 1) ∧
        (s.ratings.keys.length ≤ 5000000 → -2147483648 ≤ entry.rating ∧ entry.rating ≤ 2147483647) := by
  have hsettled : s.ratings.Settled :=
    hr.induction (P := fun s : Server => s.ratings.Settled) RatingService.settled_empty fun _ _ _ _ h hs =>
      settled_effect hexact h (effect_of_step hs)
  have hcard : (s.ratings.users.card : Int) = s.ratings.keys.length := by rw [RatingService.card_users]
  constructor
  · intro group hgroup
    rw [← hcard]
    exact Spread.iff_two_mul.mp hsettled.spread group hgroup
  · intro u entry hl
    have hu : u ∈ s.ratings.users := (RatingService.mem_users _ _).mpr ((Table.mem_iff_lookup _ _).mpr ⟨entry, hl⟩)
    have hbound : 2 * |entry.rating - 1000| ≤ 721 * ((s.ratings.keys.length : Int) - 1) := by
      have habs := hsettled.abs_le hu
      rwa [hcard, RatingService.height, RatingService.standing_of_lookup hl] at habs
    refine ⟨hbound, ?_⟩
    intro hmany
    obtain ⟨hlow, hhigh⟩ := abs_le.mp (le_refl |entry.rating - 1000|)
    omega

noncomputable def exactConfig (maxTicks : Nat) : Config ℝ where
  maxTicks := maxTicks
  elo := Elo.exact

theorem ratings_bounded_of_play : ∃ s entry, (machine (exactConfig 1)).Reachable s ∧
    s.ratings.lookup 1 = some entry ∧ entry.wins = 1 ∧ 2 * |entry.rating - 1000| ≤ 721 := by
  have hrun : (((machine (exactConfig 1)).run (playActions ⟨1, "kim"⟩ ⟨2, "lee"⟩)).bind fun s =>
      (s.ratings.lookup 1).map fun entry => (s.ratings.keys.length, entry.wins)) = some (2, 1) := by
    rfl
  obtain ⟨s, hs, hentry⟩ := Option.bind_eq_some_iff.mp hrun
  obtain ⟨entry, hl, hshape⟩ := Option.map_eq_some_iff.mp hentry
  obtain ⟨hlength, hwins⟩ := Prod.mk.inj hshape
  have hbound := ((ratings_bounded rfl (.of_run hs)).2 1 entry hl).1
  rw [hlength] at hbound
  exact ⟨s, entry, .of_run hs, hl, hwins, hbound⟩

end Server

end GameServer
