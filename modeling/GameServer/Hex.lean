import GameServer.Numeral

namespace GameServer

def hexDigit (n : Nat) : UInt8 := if n < 10 then UInt8.ofNat (48 + n) else UInt8.ofNat (87 + n)

def bytesToHex (data : Bytes) : Bytes := data.flatMap fun b => [hexDigit (b.toNat / 16), hexDigit (b.toNat % 16)]

/-- The extraction of an unsigned int from a stream in hexadecimal mode. It
fails without digits and on overflow, and leaves what follows unread. -/
def extractHex (text : Bytes) : Option Nat :=
  let (sign, rest) := Numeral.splitSign (text.dropWhile Numeral.isSpace)
  let rest := match rest with
    | 48 :: x :: digits => if x = 120 ∨ x = 88 then digits else rest
    | _ => rest
  let digits := rest.takeWhile (Numeral.isDigit 16)
  let value := Numeral.value 16 digits
  if digits = [] ∨ value ≥ 2 ^ 32 then none else some (Numeral.negateIf sign 32 value)

def hexToBytes : Bytes → Option Bytes
  | [] => some []
  | [_] => none
  | a :: b :: hex =>
    match extractHex [a, b], hexToBytes hex with
    | some byte, some out => some (UInt8.ofNat byte :: out)
    | _, _ => none

theorem extractHex_digits : ∀ a < 16, ∀ b < 16, extractHex [hexDigit a, hexDigit b] = some (16 * a + b) := by
  decide

theorem bytesToHex_cons (b : UInt8) (data : Bytes) :
    bytesToHex (b :: data) = hexDigit (b.toNat / 16) :: hexDigit (b.toNat % 16) :: bytesToHex data := rfl

theorem extractHex_byte (b : UInt8) :
    extractHex [hexDigit (b.toNat / 16), hexDigit (b.toNat % 16)] = some b.toNat := by
  have hb := b.toNat_lt
  rw [extractHex_digits _ (by omega) _ (by omega), Nat.div_add_mod]

/-- What is written in hexadecimal is read back. -/
theorem hexToBytes_bytesToHex (data : Bytes) : hexToBytes (bytesToHex data) = some data := by
  induction data with
  | nil => rfl
  | cons b data ih => simp only [bytesToHex_cons, hexToBytes, extractHex_byte, ih, UInt8.ofNat_toNat]

theorem bytesToHex_injective : Function.Injective bytesToHex := by
  intro data other h
  have hback := congrArg hexToBytes h
  rw [hexToBytes_bytesToHex, hexToBytes_bytesToHex] at hback
  exact Option.some.inj hback

theorem length_bytesToHex (data : Bytes) : (bytesToHex data).length = 2 * data.length := by
  induction data with
  | nil => rfl
  | cons b data ih =>
      rw [bytesToHex_cons]
      simp only [List.length_cons, ih]
      omega

end GameServer
