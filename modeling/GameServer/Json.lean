import Mathlib.Algebra.Order.Ring.Int

namespace GameServer

/-- A parsed value. A number without fraction or exponent is stored as an
unsigned or a signed 64-bit integer. -/
inductive Json
  | null
  | boolean (b : Bool)
  | numberInteger (n : Int64)
  | numberUnsigned (n : UInt64)
  | numberFloat (literal : String)
  | string (s : String)
  | array (elements : List Json)
  | object (members : List (String × Json))

namespace Json

def find : Json → String → Option Json
  | .object members, key => members.lookup key
  | _, _ => none

def isString : Json → Bool
  | .string _ => true
  | _ => false

def isNumberUnsigned : Json → Bool
  | .numberUnsigned _ => true
  | _ => false

def isNumberInteger : Json → Bool
  | .numberInteger _ | .numberUnsigned _ => true
  | _ => false

def integer? : Json → Option Int
  | .numberInteger n => some n.toInt
  | .numberUnsigned n => some n.toNat
  | _ => none

/-- The cast from a 64-bit integer to int. -/
def narrow (n : Int) : Int := n.bmod 4294967296

def getString : Json → String
  | .string s => s
  | _ => ""

def getUInt64 : Json → Nat
  | .numberUnsigned n => n.toNat
  | .numberInteger n => (n.toInt % 2 ^ 64).toNat
  | _ => 0

def getInt : Json → Int
  | .numberInteger n => narrow n.toInt
  | .numberUnsigned n => narrow n.toNat
  | _ => 0

def FitsInt (n : Int) : Prop := -2147483648 ≤ n ∧ n ≤ 2147483647

theorem narrow_fits (n : Int) : FitsInt (narrow n) := by
  have hlow := Int.le_bmod (x := n) (m := 4294967296) (by omega)
  have hhigh := Int.bmod_lt (x := n) (m := 4294967296) (by omega)
  rw [FitsInt, narrow]
  omega

theorem narrow_eq_self_iff (n : Int) : narrow n = n ↔ FitsInt n := by
  constructor
  · intro h
    exact h ▸ narrow_fits n
  · intro h
    apply Int.bmod_eq_of_le
    · exact h.1
    · exact Int.lt_of_le_of_lt h.2 (by decide)

theorem getInt_of_integer {j : Json} {n : Int} (h : j.integer? = some n) : j.getInt = narrow n := by
  cases j with
  | numberInteger m => rw [← Option.some.inj h]; rfl
  | numberUnsigned m => rw [← Option.some.inj h]; rfl
  | null | boolean | numberFloat | string | array | object => cases h

theorem isNumberInteger_of_integer {j : Json} {n : Int} (h : j.integer? = some n) : j.isNumberInteger = true := by
  cases j with
  | numberInteger | numberUnsigned => rfl
  | null | boolean | numberFloat | string | array | object => cases h

theorem getUInt64_of_integer {j : Json} {n : Int} (h : j.integer? = some n) (hu : j.isNumberUnsigned = true) :
    (j.getUInt64 : Int) = n := by
  cases j with
  | numberUnsigned m => rw [← Option.some.inj h]; rfl
  | null | boolean | numberInteger | numberFloat | string | array | object => cases hu

end Json

/-- What is thrown: by parse, by dump, and by the handlers themselves. -/
inductive Exn
  | parseError
  | typeError
  | runtimeError (what : String)
deriving DecidableEq, Repr

end GameServer
