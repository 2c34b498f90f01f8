import Mathlib.Algebra.Order.Ring.Int
import Mathlib.Data.List.TakeWhile

namespace GameServer

abbrev Bytes := List UInt8

namespace Numeral

def isSpace (b : UInt8) : Bool := b = 32 || (9 ≤ b && b ≤ 13)

def digit (base : Nat) (b : UInt8) : Option Nat :=
  let value :=
    if 48 ≤ b ∧ b ≤ 57 then b.toNat - 48
    else if 97 ≤ b ∧ b ≤ 102 then b.toNat - 87
    else if 65 ≤ b ∧ b ≤ 70 then b.toNat - 55
    else base
  if value < base then some value else none

def isDigit (base : Nat) (b : UInt8) : Bool := (digit base b).isSome

def value (base : Nat) (digits : Bytes) : Nat := digits.foldl (fun v b => base * v + (digit base b).getD 0) 0

def splitSign : Bytes → Option UInt8 × Bytes
  | [] => (none, [])
  | b :: rest => if b = 43 ∨ b = 45 then (some b, rest) else (none, b :: rest)

/-- A minus sign negates modulo 2 to the width. -/
def negateIf (sign : Option UInt8) (width v : Nat) : Nat := if sign = some 45 then (2 ^ width - v) % 2 ^ width else v

end Numeral

end GameServer
