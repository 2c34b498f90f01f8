import Mathlib.Algebra.Order.Ring.Int

namespace GameServer

namespace Clock

/-- Readings are nanoseconds in 64 bits; overflow is taken to wrap. -/
def wrap64 (n : Int) : Int := n.bmod (2 ^ 64)

def nanoseconds (seconds : Int) : Int := wrap64 (seconds * 1000000000)

def addSeconds (now seconds : Int) : Int := wrap64 (now + nanoseconds seconds)

def FitsClock (n : Int) : Prop := -2 ^ 63 ≤ n ∧ n < 2 ^ 63

instance (n : Int) : Decidable (FitsClock n) := inferInstanceAs (Decidable (_ ∧ _))

theorem wrap64_fits (n : Int) : FitsClock (wrap64 n) := by
  have hlow := Int.le_bmod (x := n) (m := 2 ^ 64) (by decide)
  have hhigh := Int.bmod_lt (x := n) (m := 2 ^ 64) (by decide)
  rw [FitsClock, wrap64]
  omega

theorem wrap64_eq_self_iff (n : Int) : wrap64 n = n ↔ FitsClock n := by
  constructor
  · intro h
    exact h ▸ wrap64_fits n
  · rintro ⟨hlow, hhigh⟩
    apply Int.bmod_eq_of_le
    · exact hlow
    · exact hhigh

theorem nanoseconds_eq_iff (seconds : Int) :
    nanoseconds seconds = seconds * 1000000000 ↔ -9223372036 ≤ seconds ∧ seconds ≤ 9223372036 := by
  rw [nanoseconds, wrap64_eq_self_iff, FitsClock]
  omega

theorem addSeconds_eq (now seconds : Int) : addSeconds now seconds = wrap64 (now + seconds * 1000000000) := by
  simp only [addSeconds, nanoseconds, wrap64, Int.add_bmod_bmod]

theorem addSeconds_wrap64 (now seconds : Int) :
    addSeconds now (wrap64 seconds) = wrap64 (now + seconds * 1000000000) := by
  simp only [addSeconds, nanoseconds, wrap64, Int.add_bmod_bmod, Int.bmod_mul_bmod]

theorem addSeconds_eq_plain_iff (now seconds : Int) :
    addSeconds now seconds = now + seconds * 1000000000 ↔ FitsClock (now + seconds * 1000000000) := by
  rw [addSeconds_eq, wrap64_eq_self_iff]

def toTimeT (tp : Int) : Int := tp.tdiv 1000000000

/-- Year, month and day in the Gregorian calendar of a day counted from
1970-01-01. Years start in March here, so that a leap day is the last one. -/
def civil (days : Int) : Int × Int × Int :=
  let z := days + 719468
  let era := z / 146097
  let doe := z % 146097
  let yoe := (doe - doe / 1460 + doe / 36524 - doe / 146096) / 365
  let doy := doe - (365 * yoe + yoe / 4 - yoe / 100)
  let mp := (5 * doy + 2) / 153
  let month := if mp < 10 then mp + 3 else mp - 9
  (yoe + era * 400 + (if month ≤ 2 then 1 else 0), month, doy - (153 * mp + 2) / 5 + 1)

def twoDigits (n : Int) : String := (if n < 10 then "0" else "") ++ toString n

def toIsoString (tp : Int) : String :=
  let tt := toTimeT tp
  let (year, month, day) := civil (tt / 86400)
  let second := tt % 86400
  toString year ++ "-" ++ twoDigits month ++ "-" ++ twoDigits day ++ "T" ++ twoDigits (second / 3600) ++ ":" ++
    twoDigits (second / 60 % 60) ++ ":" ++ twoDigits (second % 60) ++ "Z"

example : toIsoString 1709251199000000000 = "2024-02-29T23:59:59Z" := by decide

end Clock

end GameServer
