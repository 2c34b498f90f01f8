import GameServer.Clock
import GameServer.Table
import Mathlib.Data.List.Induction

namespace GameServer

/-- A window start of zero means that the bucket was never used. -/
structure Bucket where
  count : Nat := 0
  windowStart : Int := 0
deriving DecidableEq, Repr, Inhabited

/-- The window is in seconds, clock readings are in nanoseconds. -/
structure RateLimiter where
  maxAttempts : Nat
  window : Int
  buckets : Table String Bucket := ∅

namespace Bucket

def roll (window : Int) (bucket : Bucket) (now : Int) : Bucket :=
  let bucket := if bucket.windowStart = 0 then { bucket with windowStart := now } else bucket
  if now - bucket.windowStart > window then { windowStart := now, count := 0 } else bucket

def allow (maxAttempts : Nat) (window : Int) (bucket : Bucket) (now : Int) : Bucket × Bool :=
  let bucket := bucket.roll window now
  if bucket.count ≥ maxAttempts then (bucket, false) else ({ bucket with count := bucket.count + 1 }, true)

end Bucket

structure Attempt where
  key : String
  now : Int
deriving DecidableEq, Repr

namespace RateLimiter

/-- The window as it is compared with a difference of two readings. -/
def length (limiter : RateLimiter) : Int := Clock.nanoseconds limiter.window

def allow (limiter : RateLimiter) (key : String) (now : Int) : RateLimiter × Bool :=
  let result := (limiter.buckets.index key).allow limiter.maxAttempts limiter.length now
  ({ limiter with buckets := limiter.buckets.insert key result.1 }, result.2)

def after (limiter : RateLimiter) : List Attempt → RateLimiter
  | [] => limiter
  | call :: calls => (limiter.allow call.key call.now).1.after calls

def verdicts (limiter : RateLimiter) : List Attempt → List (Attempt × Bool)
  | [] => []
  | call :: calls =>
    (call, (limiter.allow call.key call.now).2) :: (limiter.allow call.key call.now).1.verdicts calls

def allowedTimes (key : String) (verdicts : List (Attempt × Bool)) : List Int :=
  (verdicts.filter fun c => c.1.key = key ∧ c.2 = true).map (·.1.now)

end RateLimiter

/-- Times fall into windows that start more than a length apart, with few
times in each of them. -/
structure Windows (most : Nat) (length : Int) (windows : List (Int × List Int)) : Prop where
  apart : (windows.map (·.1)).Pairwise fun a b => a + length < b
  begins : ∀ w ∈ windows, ∀ t ∈ w.2, w.1 ≤ t
  ends : 0 ≤ length → ∀ w ∈ windows, ∀ t ∈ w.2, t ≤ w.1 + length
  few : ∀ w ∈ windows, w.2.length ≤ most

namespace Windows

variable {most : Nat} {length : Int} {windows : List (Int × List Int)}

def inInterval (a length : Int) (times : List Int) : Nat := times.countP fun t => a ≤ t ∧ t ≤ a + length

theorem inInterval_append (a length : Int) (ts us : List Int) :
    inInterval a length (ts ++ us) = inInterval a length ts + inInterval a length us :=
  List.countP_append

theorem inInterval_eq_zero {a length : Int} {times : List Int} (h : ∀ t ∈ times, t < a ∨ a + length < t) :
    inInterval a length times = 0 := by
  apply List.countP_eq_zero.mpr
  intro t ht
  have hout := h t ht
  simp only [decide_eq_true_eq, not_and]
  omega

theorem tail {w : Int × List Int} (h : Windows most length (w :: windows)) : Windows most length windows where
  apart := (List.pairwise_cons.mp h.apart).2
  begins v hv := h.begins v (List.mem_cons_of_mem w hv)
  ends hl v hv := h.ends hl v (List.mem_cons_of_mem w hv)
  few v hv := h.few v (List.mem_cons_of_mem w hv)

theorem inInterval_late (h : Windows most length windows) {a : Int} (hlate : ∀ w ∈ windows, a + length < w.1) :
    inInterval a length (windows.map (·.2)).flatten = 0 := by
  apply inInterval_eq_zero
  intro t ht
  obtain ⟨ts, hts, ht⟩ := List.mem_flatten.mp ht
  obtain ⟨w, hw, rfl⟩ := List.mem_map.mp hts
  exact Or.inr (Int.lt_of_lt_of_le (hlate w hw) (h.begins w hw t ht))

theorem inInterval_le_length (a length : Int) (times : List Int) : inInterval a length times ≤ times.length :=
  List.countP_le_length

theorem inInterval_le_most (h : Windows most length windows) {a : Int} (hstart : ∀ w ∈ windows, a ≤ w.1) :
    inInterval a length (windows.map (·.2)).flatten ≤ most := by
  cases windows with
  | nil => exact Nat.zero_le most
  | cons w rest =>
      have hrest : inInterval a length (rest.map (·.2)).flatten = 0 := by
        apply h.tail.inInterval_late
        intro v hv
        have hapart : w.1 + length < v.1 := (List.pairwise_cons.mp h.apart).1 v.1 (List.mem_map_of_mem hv)
        have hw := hstart w (by simp)
        omega
      have hfew := Nat.le_trans (inInterval_le_length a length w.2) (h.few w (by simp))
      rw [List.map_cons, List.flatten_cons, inInterval_append]
      omega

theorem inInterval_le (h : Windows most length windows) (hl : 0 ≤ length) (a : Int) :
    inInterval a length (windows.map (·.2)).flatten ≤ 2 * most := by
  induction windows with
  | nil => exact Nat.zero_le _
  | cons w rest ih =>
      rw [List.map_cons, List.flatten_cons, inInterval_append]
      by_cases hw : w.1 + length < a
      · have hnone : inInterval a length w.2 = 0 := by
          apply inInterval_eq_zero
          intro t ht
          exact Or.inl (Int.lt_of_le_of_lt (h.ends hl w (by simp) t ht) hw)
        have hrest := ih h.tail
        omega
      · have hfew := Nat.le_trans (inInterval_le_length a length w.2) (h.few w (by simp))
        have hrest : inInterval a length (rest.map (·.2)).flatten ≤ most := by
          apply h.tail.inInterval_le_most
          intro v hv
          have hapart : w.1 + length < v.1 := (List.pairwise_cons.mp h.apart).1 v.1 (List.mem_map_of_mem hv)
          omega
        omega

theorem concat (h : Windows most length windows) {start : Int} (hafter : ∀ w ∈ windows, w.1 + length < start) :
    Windows most length (windows ++ [(start, [])]) where
  apart := by
    rw [List.map_append, List.map_singleton, List.pairwise_append]
    refine ⟨h.apart, List.pairwise_singleton _ _, ?_⟩
    intro a ha b hb
    obtain ⟨w, hw, rfl⟩ := List.mem_map.mp ha
    rw [List.mem_singleton.mp hb]
    exact hafter w hw
  begins := by simpa [or_imp, forall_and] using h.begins
  ends := by simpa [or_imp, forall_and] using h.ends
  few := by simpa [or_imp, forall_and] using h.few

theorem push {start now : Int} {times : List Int} (h : Windows most length (windows ++ [(start, times)]))
    (hlt : times.length < most) (hstart : start ≤ now) (hend : 0 ≤ length → now ≤ start + length) :
    Windows most length (windows ++ [(start, times ++ [now])]) := by
  have hmem : (start, times) ∈ windows ++ [(start, times)] := by simp
  constructor
  · have hapart := h.apart
    rwa [List.map_append, List.map_singleton] at hapart ⊢
  · intro w hw t ht
    rcases List.mem_append.mp hw with hw | hw
    · exact h.begins w (List.mem_append_left _ hw) t ht
    · cases List.mem_singleton.mp hw
      rcases List.mem_append.mp ht with ht | ht
      · exact h.begins _ hmem t ht
      · rwa [List.mem_singleton.mp ht]
  · intro hl w hw t ht
    rcases List.mem_append.mp hw with hw | hw
    · exact h.ends hl w (List.mem_append_left _ hw) t ht
    · cases List.mem_singleton.mp hw
      rcases List.mem_append.mp ht with ht | ht
      · exact h.ends hl _ hmem t ht
      · rw [List.mem_singleton.mp ht]
        exact hend hl
  · intro w hw
    rcases List.mem_append.mp hw with hw | hw
    · exact h.few w (List.mem_append_left _ hw)
    · cases List.mem_singleton.mp hw
      rw [List.length_append, List.length_singleton]
      omega

end Windows

/-- A bucket counts the times of its last window, unless it was never used. -/
inductive Tracks (most : Nat) (length clock : Int) : Bucket → List Int → Prop
  | fresh : Tracks most length clock {} []
  | used {windows : List (Int × List Int)} {start : Int} {times : List Int}
      (h : Windows most length (windows ++ [(start, times)])) (hpos : 0 < start) (hclock : start ≤ clock) :
      Tracks most length clock ⟨times.length, start⟩ ((windows.map (·.2)).flatten ++ times)

structure Rolled (most : Nat) (length now : Int) (bucket : Bucket) (all : List Int)
    (windows : List (Int × List Int)) (times : List Int) : Prop where
  spaced : Windows most length (windows ++ [(bucket.windowStart, times)])
  all_eq : all = (windows.map (·.2)).flatten ++ times
  count_eq : bucket.count = times.length
  pos : 0 < bucket.windowStart
  start : bucket.windowStart ≤ now
  stop : 0 ≤ length → now ≤ bucket.windowStart + length
  near : now - length ≤ bucket.windowStart ∨ times = []

namespace Tracks

variable {most : Nat} {length clock now : Int} {bucket : Bucket} {all : List Int}

theorem all_windows (h : Tracks most length clock bucket all) :
    ∃ windows, Windows most length windows ∧ all = (windows.map (·.2)).flatten := by
  cases h with
  | fresh => exact ⟨[], ⟨List.Pairwise.nil, by simp, by simp, by simp⟩, rfl⟩
  | used h => exact ⟨_, h, by simp⟩

theorem starts_before {windows : List (Int × List Int)} {start : Int} {times : List Int}
    (h : Windows most length (windows ++ [(start, times)])) : ∀ w ∈ windows, w.1 + length < start := by
  have hapart := h.apart
  rw [List.map_append, List.map_singleton, List.pairwise_append] at hapart
  intro w hw
  exact hapart.2.2 w.1 (List.mem_map_of_mem hw) start (by simp)

theorem roll (h : Tracks most length clock bucket all) (hclock : clock ≤ now) (hpos : 0 < now) :
    ∃ windows times, Rolled most length now (bucket.roll length now) all windows times := by
  cases h with
  | fresh =>
      have hroll : ({} : Bucket).roll length now = ⟨0, now⟩ := by
        by_cases hl : length < 0 <;> simp [Bucket.roll, hl]
      rw [hroll]
      refine ⟨[], [], ⟨⟨by simp, by simp, by simp, by simp⟩, rfl, rfl, hpos, Int.le_refl _, ?_, Or.inr rfl⟩⟩
      intro hl
      exact Int.le_add_of_nonneg_right hl
  | @used windows start times h hstart hle =>
      have hne : start ≠ 0 := Int.ne_of_gt hstart
      by_cases hover : now - start > length
      · -- the window is over and the next one begins with this call
        have hroll : (⟨times.length, start⟩ : Bucket).roll length now = ⟨0, now⟩ := by
          simp [Bucket.roll, hne, hover]
        rw [hroll]
        refine ⟨windows ++ [(start, times)], [], ⟨h.concat ?_, by simp, rfl, hpos, Int.le_refl _, ?_, Or.inr rfl⟩⟩
        · intro w hw
          rcases List.mem_append.mp hw with hw | hw
          · have hbefore := starts_before h w hw
            change w.1 + length < now
            omega
          · rw [List.mem_singleton.mp hw]
            change start + length < now
            omega
        · intro hl
          exact Int.le_add_of_nonneg_right hl
      · have hroll : (⟨times.length, start⟩ : Bucket).roll length now = ⟨times.length, start⟩ := by
          simp [Bucket.roll, hne, hover]
        rw [hroll]
        refine ⟨windows, times, ⟨h, rfl, rfl, hstart, ?_, fun _ => ?_, Or.inl ?_⟩⟩
        · exact Int.le_trans hle hclock
        · change now ≤ start + length
          omega
        · change now - length ≤ start
          omega

theorem denied (h : Tracks most length clock bucket all) (hclock : clock ≤ now) (hpos : 0 < now)
    (hd : (bucket.allow most length now).2 = false) : most ≤ all.countP fun t => now - length ≤ t := by
  obtain ⟨windows, times, hr⟩ := h.roll hclock hpos
  have hfull : most ≤ times.length := by
    rw [← hr.count_eq]
    by_contra hlt
    simp [Bucket.allow, hlt] at hd
  rw [hr.all_eq, List.countP_append]
  rcases hr.near with hnear | hnil
  · have hall : times.countP (fun t => now - length ≤ t) = times.length := by
      apply List.countP_eq_length.mpr
      intro t ht
      have hbegin := hr.spaced.begins _ (List.mem_append_right _ (List.mem_singleton_self _)) t ht
      simpa using Int.le_trans hnear hbegin
    omega
  · rw [hnil] at hfull
    exact Nat.le_trans hfull (Nat.zero_le _)

theorem allow (h : Tracks most length clock bucket all) (hclock : clock ≤ now) (hpos : 0 < now) :
    Tracks most length now (bucket.allow most length now).1
      (all ++ if (bucket.allow most length now).2 then [now] else []) := by
  obtain ⟨windows, times, hr⟩ := h.roll hclock hpos
  by_cases hfull : (bucket.roll length now).count ≥ most
  · have hallow : bucket.allow most length now = (bucket.roll length now, false) := by
      simp [Bucket.allow, hfull]
    have hused := Tracks.used hr.spaced hr.pos hr.start
    rw [hallow]
    rw [← hr.count_eq, ← hr.all_eq] at hused
    simpa using hused
  · have hallow : bucket.allow most length now =
        ({ bucket.roll length now with count := (bucket.roll length now).count + 1 }, true) := by
      simp [Bucket.allow, hfull]
    have hlt : times.length < most := by
      rw [← hr.count_eq]
      exact Nat.lt_of_not_le hfull
    have hused := Tracks.used (hr.spaced.push hlt hr.start hr.stop) hr.pos hr.start
    rw [List.length_append, List.length_singleton, ← hr.count_eq, ← List.append_assoc, ← hr.all_eq] at hused
    rw [hallow]
    exact hused

theorem mono (h : Tracks most length clock bucket all) (hle : clock ≤ now) : Tracks most length now bucket all := by
  cases h with
  | fresh => exact .fresh
  | used h hpos hclock => exact .used h hpos (Int.le_trans hclock hle)

end Tracks

namespace RateLimiter

theorem after_params (limiter : RateLimiter) (calls : List Attempt) :
    (limiter.after calls).maxAttempts = limiter.maxAttempts ∧ (limiter.after calls).length = limiter.length := by
  induction calls generalizing limiter with
  | nil => exact ⟨rfl, rfl⟩
  | cons call calls ih => exact ih (limiter.allow call.key call.now).1

theorem after_concat (limiter : RateLimiter) (calls : List Attempt) (call : Attempt) :
    limiter.after (calls ++ [call]) = ((limiter.after calls).allow call.key call.now).1 := by
  induction calls generalizing limiter with
  | nil => rfl
  | cons c calls ih => exact ih (limiter.allow c.key c.now).1

theorem verdicts_append (limiter : RateLimiter) (calls calls' : List Attempt) :
    limiter.verdicts (calls ++ calls') = limiter.verdicts calls ++ (limiter.after calls).verdicts calls' := by
  induction calls generalizing limiter with
  | nil => rfl
  | cons c calls ih =>
      rw [List.cons_append, verdicts, verdicts, ih, List.cons_append]
      rfl

theorem verdicts_split {limiter : RateLimiter} {calls : List Attempt} {pre post : List (Attempt × Bool)}
    {call : Attempt} {verdict : Bool} (h : limiter.verdicts calls = pre ++ (call, verdict) :: post) :
    ∃ front back, calls = front ++ call :: back ∧ pre = limiter.verdicts front ∧
      verdict = ((limiter.after front).allow call.key call.now).2 := by
  induction calls generalizing limiter pre with
  | nil => simp [verdicts] at h
  | cons c calls ih =>
      cases pre with
      | nil =>
          obtain ⟨hc, -⟩ := List.cons.inj h
          cases hc
          exact ⟨[], calls, rfl, rfl, rfl⟩
      | cons p pre =>
          obtain ⟨hp, hrest⟩ := List.cons.inj h
          obtain ⟨front, back, rfl, rfl, hverdict⟩ := ih hrest
          exact ⟨c :: front, back, rfl, by rw [verdicts, ← hp], hverdict⟩

theorem allowedTimes_append (key : String) (vs ws : List (Attempt × Bool)) :
    allowedTimes key (vs ++ ws) = allowedTimes key vs ++ allowedTimes key ws := by
  simp [allowedTimes]

theorem allowedTimes_singleton (key : String) (call : Attempt) (verdict : Bool) :
    allowedTimes key [(call, verdict)] = if call.key = key ∧ verdict = true then [call.now] else [] := by
  by_cases h : call.key = key ∧ verdict = true <;> simp [allowedTimes, h]

theorem mem_verdicts {limiter : RateLimiter} {calls : List Attempt} {v : Attempt × Bool}
    (h : v ∈ limiter.verdicts calls) : v.1 ∈ calls := by
  induction calls generalizing limiter with
  | nil => cases h
  | cons c calls ih =>
      rcases List.mem_cons.mp h with rfl | h
      · exact List.mem_cons_self
      · exact List.mem_cons_of_mem c (ih h)

theorem exists_clock (calls : List Attempt) : ∃ clock, ∀ c ∈ calls, c.now ≤ clock := by
  induction calls with
  | nil => exact ⟨0, by simp⟩
  | cons call calls ih =>
      obtain ⟨clock, hclock⟩ := ih
      refine ⟨max call.now clock, ?_⟩
      intro c hc
      rcases List.mem_cons.mp hc with rfl | hc
      · exact Int.le_max_left _ _
      · exact Int.le_trans (hclock c hc) (Int.le_max_right _ _)

theorem tracks_after (maxAttempts : Nat) (window : Int) (calls : List Attempt) (hpos : ∀ c ∈ calls, 0 < c.now)
    (hmono : calls.Pairwise fun a b => a.now ≤ b.now) (key : String) (clock : Int)
    (hclock : ∀ c ∈ calls, c.now ≤ clock) :
    Tracks maxAttempts (length ⟨maxAttempts, window, ∅⟩) clock
      ((after ⟨maxAttempts, window, ∅⟩ calls).buckets.index key)
      (allowedTimes key (verdicts ⟨maxAttempts, window, ∅⟩ calls)) := by
  induction calls using List.reverseRecOn generalizing clock with
  | nil => exact .fresh
  | append_singleton calls call ih =>
      rw [List.pairwise_append] at hmono
      have hcall : call.now ≤ clock := hclock call (by simp)
      have hbefore := ih (fun c hc => hpos c (by simp [hc])) hmono.1
      obtain ⟨hmax, hlength⟩ := after_params ⟨maxAttempts, window, ∅⟩ calls
      rw [after_concat, verdicts_append, allowedTimes_append]
      by_cases hkey : call.key = key
      · have hstep := (hbefore call.now (fun c hc => hmono.2.2 c hc call (by simp))).allow (Int.le_refl _)
          (hpos call (by simp))
        rw [verdicts, verdicts, allowedTimes_singleton]
        simp only [RateLimiter.allow, hmax, hlength, hkey, Table.index_insert, true_and, if_true]
        exact hstep.mono hcall
      · have hnone : allowedTimes key ((after ⟨maxAttempts, window, ∅⟩ calls).verdicts [call]) = [] := by
          rw [verdicts, verdicts, allowedTimes_singleton, if_neg (fun h => hkey h.1)]
        rw [hnone, List.append_nil, RateLimiter.allow, Table.index_insert, if_neg (Ne.symm hkey)]
        exact hbefore clock (fun c hc => hclock c (by simp [hc]))

theorem verdicts_filter (limiter other : RateLimiter) {key : String} (hmax : limiter.maxAttempts = other.maxAttempts)
    (hlength : limiter.length = other.length)
    (hbucket : limiter.buckets.index key = other.buckets.index key)
    (calls : List Attempt) :
    (limiter.verdicts calls).filter (·.1.key = key) = other.verdicts (calls.filter (·.key = key)) := by
  induction calls generalizing limiter other with
  | nil => rfl
  | cons c calls ih =>
      by_cases hkey : c.key = key
      · have hresult : (limiter.allow c.key c.now).2 = (other.allow c.key c.now).2 := by
          rw [allow, allow, hmax, hlength, hkey, hbucket]
        rw [List.filter_cons_of_pos (by simpa using hkey), verdicts, verdicts,
          List.filter_cons_of_pos (by simpa using hkey), hresult]
        congr 1
        refine ih (limiter.allow c.key c.now).1 (other.allow c.key c.now).1 hmax hlength ?_
        rw [allow, allow, Table.index_insert, Table.index_insert, hmax, hlength, hkey, hbucket]
      · rw [List.filter_cons_of_neg (by simpa using hkey), verdicts, List.filter_cons_of_neg (by simpa using hkey)]
        refine ih (limiter.allow c.key c.now).1 other hmax hlength ?_
        rw [allow, Table.index_insert, if_neg (Ne.symm hkey), hbucket]

/-- No interval of the length of the window has more than twice the allowed
number of calls for a key, only a key that has just used up its number is
refused, and keys do not disturb each other. The window is as long as asked for
when its nanoseconds fit the clock. -/
theorem allow_bounds (maxAttempts : Nat) (window : Int) (calls : List Attempt) (hpos : ∀ c ∈ calls, 0 < c.now)
    (hmono : calls.Pairwise fun a b => a.now ≤ b.now) :
    (∀ key a, (allowedTimes key (verdicts ⟨maxAttempts, window, ∅⟩ calls)).countP
      (fun t => a ≤ t ∧ t ≤ a + length ⟨maxAttempts, window, ∅⟩) ≤ 2 * maxAttempts) ∧
    (∀ pre call post, verdicts ⟨maxAttempts, window, ∅⟩ calls = pre ++ (call, false) :: post →
      maxAttempts ≤ (allowedTimes call.key pre).countP fun t =>
        call.now - length ⟨maxAttempts, window, ∅⟩ ≤ t ∧ t ≤ call.now) ∧
    (∀ key, (verdicts ⟨maxAttempts, window, ∅⟩ calls).filter (·.1.key = key) =
      verdicts ⟨maxAttempts, window, ∅⟩ (calls.filter (·.key = key))) ∧
    (length ⟨maxAttempts, window, ∅⟩ = window * 1000000000 ↔ -9223372036 ≤ window ∧ window ≤ 9223372036) := by
  refine ⟨?_, ?_, fun key => verdicts_filter _ _ rfl rfl rfl calls, Clock.nanoseconds_eq_iff window⟩
  · intro key a
    obtain ⟨clock, hclock⟩ := exists_clock calls
    obtain ⟨windows, hw, hall⟩ := (tracks_after maxAttempts window calls hpos hmono key clock hclock).all_windows
    rw [hall]
    by_cases hl : 0 ≤ length ⟨maxAttempts, window, ∅⟩
    · exact hw.inInterval_le hl a
    · exact Nat.le_trans (Nat.le_of_eq (Windows.inInterval_eq_zero fun t _ => by omega)) (Nat.zero_le _)
  · intro pre call post h
    obtain ⟨front, back, rfl, rfl, hdenied⟩ := verdicts_split h
    rw [List.pairwise_append, List.pairwise_cons] at hmono
    have hle : ∀ c ∈ front, c.now ≤ call.now := fun c hc => hmono.2.2 c hc call (by simp)
    have htracks := tracks_after maxAttempts window front (fun c hc => hpos c (by simp [hc])) hmono.1 call.key
      call.now hle
    obtain ⟨hmax, hlength⟩ := after_params ⟨maxAttempts, window, ∅⟩ front
    rw [allow, hmax, hlength] at hdenied
    have hmany := htracks.denied (Int.le_refl _) (hpos call (by simp)) hdenied.symm
    apply Nat.le_trans hmany
    apply Nat.le_of_eq
    apply List.countP_congr
    intro t ht
    obtain ⟨v, hv, rfl⟩ := List.mem_map.mp ht
    have hnow := hle v.1 (mem_verdicts (List.mem_filter.mp hv).1)
    simp [hnow]

theorem allow_bounds_burst : verdicts ⟨1, 1, ∅⟩ [⟨"a", 5⟩, ⟨"b", 5⟩, ⟨"a", 6⟩, ⟨"a", 1000000006⟩] =
      [(⟨"a", 5⟩, true), (⟨"b", 5⟩, true), (⟨"a", 6⟩, false), (⟨"a", 1000000006⟩, true)] ∧
    1 ≤ (allowedTimes "a" [(⟨"a", 5⟩, true), (⟨"b", 5⟩, true)]).countP
      (fun t => 6 - length ⟨1, 1, ∅⟩ ≤ t ∧ t ≤ 6) := by
  have hrun : verdicts ⟨1, 1, ∅⟩ [⟨"a", 5⟩, ⟨"b", 5⟩, ⟨"a", 6⟩, ⟨"a", 1000000006⟩] =
      [(⟨"a", 5⟩, true), (⟨"b", 5⟩, true), (⟨"a", 6⟩, false), (⟨"a", 1000000006⟩, true)] := by decide
  refine ⟨hrun, ?_⟩
  obtain ⟨-, hdenied, -, -⟩ := allow_bounds 1 1 [⟨"a", 5⟩, ⟨"b", 5⟩, ⟨"a", 6⟩, ⟨"a", 1000000006⟩] (by decide)
    (by decide)
  exact hdenied [(⟨"a", 5⟩, true), (⟨"b", 5⟩, true)] ⟨"a", 6⟩ [(⟨"a", 1000000006⟩, true)] hrun

/-- A window of more seconds than the clock can count is over at once. -/
theorem not_bounded_of_long_window :
    ¬ (allowedTimes "a" (verdicts ⟨1, 9223372037, ∅⟩ [⟨"a", 1⟩, ⟨"a", 2⟩, ⟨"a", 3⟩])).countP
      (fun t => 1 ≤ t ∧ t ≤ 1 + 9223372037 * 1000000000) ≤ 2 * 1 := by decide

end RateLimiter

end GameServer
