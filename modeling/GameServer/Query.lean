import GameServer.Numeral
import GameServer.Table

namespace GameServer

def bytes (s : String) : Bytes := s.toByteArray.data.toList

def findFrom (query : Bytes) (c : UInt8) (pos : Nat) : Option Nat := ((query.drop pos).idxOf? c).map (pos + ·)

def emplace (params : Table Bytes Bytes) (key value : Bytes) : Table Bytes Bytes :=
  if key ∈ params then params else params.insert key value

def addPair (params : Table Bytes Bytes) (pair : Bytes) : Table Bytes Bytes :=
  match pair.idxOf? 61 with
  | none => params
  | some eq => if eq + 1 ≤ pair.length then emplace params (pair.take eq) (pair.drop (eq + 1)) else params

def parseQueryLoop (query : Bytes) : Nat → Nat → Table Bytes Bytes → Table Bytes Bytes
  | 0, _, params => params
  | rounds + 1, pos, params =>
    if pos < query.length then
      match findFrom query 38 pos with
      | none => addPair params (query.drop pos)
      | some amp => parseQueryLoop query rounds (amp + 1) (addPair params ((query.drop pos).take (amp - pos)))
    else params

/-- Every round moves the position forward, so the length of the query is
enough of them. -/
def parseQueryParams (query : Bytes) : Table Bytes Bytes := parseQueryLoop query query.length 0 ∅

/-- The number and how many bytes it took, in base 10. Without digits
invalid_argument is thrown, on overflow out_of_range. -/
def stoul (text : Bytes) : Option (UInt64 × Nat) :=
  let (sign, rest) := Numeral.splitSign (text.dropWhile Numeral.isSpace)
  let digits := rest.takeWhile (Numeral.isDigit 10)
  let value := Numeral.value 10 digits
  if digits = [] ∨ value ≥ 2 ^ 64 then none
  else some (UInt64.ofNat (Numeral.negateIf sign 64 value), text.length - rest.length + digits.length)

def parsePositiveInt (value : Bytes) : Option UInt64 :=
  match stoul value with
  | none => none
  | some (parsed, idx) => if idx ≠ value.length then none else some parsed

def parseOrFlag (params : Table Bytes Bytes) (key : Bytes) (dest min max : UInt64) (invalid : Bool) :
    UInt64 × Bool :=
  match params.lookup key with
  | none => (dest, invalid)
  | some text =>
    match parsePositiveInt text with
    | none => (dest, true)
    | some parsed => if parsed < min ∨ parsed > max then (dest, true) else (parsed, invalid)

namespace Numeral

structure Spells (text blanks : Bytes) (sign : Option UInt8) (digits : Bytes) : Prop where
  text_eq : text = blanks ++ sign.toList ++ digits
  blanks : ∀ b ∈ blanks, isSpace b = true
  sign : ∀ b ∈ sign, b = 43 ∨ b = 45
  nonempty : digits ≠ []
  digits : ∀ b ∈ digits, isDigit 10 b = true

theorem isDigit_ten (b : UInt8) : isDigit 10 b = true ↔ 48 ≤ b ∧ b ≤ 57 := by
  simp only [isDigit, digit, UInt8.le_iff_toNat_le]
  grind

theorem splitSign_eq (text : Bytes) :
    text = (splitSign text).1.toList ++ (splitSign text).2 ∧ ∀ b ∈ (splitSign text).1, b = 43 ∨ b = 45 := by
  cases text with
  | nil => simp [splitSign]
  | cons b rest =>
      simp only [splitSign]
      split
      next hb => simpa using hb
      next => simp

theorem splitSign_append {sign : Option UInt8} {digits : Bytes} (hsign : ∀ b ∈ sign, b = 43 ∨ b = 45)
    (hdigits : ∀ b ∈ digits, isDigit 10 b = true) : splitSign (sign.toList ++ digits) = (sign, digits) := by
  cases sign with
  | some b => exact if_pos (hsign b rfl)
  | none =>
      cases digits with
      | nil => rfl
      | cons b rest =>
          have hb := (isDigit_ten b).mp (hdigits b List.mem_cons_self)
          apply if_neg
          rintro (rfl | rfl)
          · exact absurd hb.1 (by decide)
          · exact absurd hb.1 (by decide)

theorem dropWhile_blanks {text blanks digits : Bytes} {sign : Option UInt8} (h : Spells text blanks sign digits) :
    text.dropWhile isSpace = sign.toList ++ digits := by
  rw [h.text_eq, List.append_assoc, List.dropWhile_append_of_pos h.blanks]
  cases hrest : sign.toList ++ digits with
  | nil => rfl
  | cons b rest =>
      have hb : b ∈ sign.toList ∨ b ∈ digits := List.mem_append.mp (hrest ▸ List.mem_cons_self)
      have hspace : isSpace b = false := by
        rcases hb with hb | hb
        · rcases h.sign b (Option.mem_toList.mp hb) with rfl | rfl <;> decide
        · have hdigit := (isDigit_ten b).mp (h.digits b hb)
          simp only [isSpace, UInt8.le_iff_toNat_le, ← UInt8.toNat_inj] at hdigit ⊢
          simp at hdigit ⊢
          omega
      simp [hspace]

end Numeral

open Numeral

theorem stoul_of_spells {text blanks digits : Bytes} {sign : Option UInt8} (h : Spells text blanks sign digits)
    (hvalue : value 10 digits < 2 ^ 64) :
    stoul text = some (UInt64.ofNat (negateIf sign 64 (value 10 digits)), text.length) := by
  have hlen : digits.length ≤ text.length := by
    rw [h.text_eq, List.length_append]
    omega
  simp only [stoul, dropWhile_blanks h, splitSign_append h.sign h.digits, List.takeWhile_eq_self_iff.mpr h.digits]
  rw [if_neg (by simp [h.nonempty]; omega), Nat.sub_add_cancel hlen]

theorem spells_of_stoul {text : Bytes} {n : UInt64} (h : stoul text = some (n, text.length)) :
    ∃ blanks sign digits, Spells text blanks sign digits ∧ value 10 digits < 2 ^ 64 ∧
      n = UInt64.ofNat (negateIf sign 64 (value 10 digits)) := by
  obtain ⟨hbody, hsign⟩ := splitSign_eq (text.dropWhile isSpace)
  have htext : text = text.takeWhile isSpace ++ text.dropWhile isSpace := List.takeWhile_append_dropWhile.symm
  simp only [stoul] at h
  generalize splitSign (text.dropWhile isSpace) = split at h hbody hsign
  obtain ⟨sign, rest⟩ := split
  dsimp only at h hbody hsign
  split at h
  next => cases h
  next hok =>
    obtain ⟨hnonempty, hvalue⟩ := not_or.mp hok
    obtain ⟨hn, hidx⟩ := Prod.mk.inj (Option.some.inj h)
    have hrest : rest.length ≤ text.length := by
      rw [htext, hbody]
      simp only [List.length_append]
      omega
    have hprefix := List.takeWhile_prefix (l := rest) (isDigit 10)
    have hall : rest.takeWhile (isDigit 10) = rest := hprefix.eq_of_length (by have := hprefix.length_le; omega)
    rw [hall] at hnonempty hvalue hn
    refine ⟨text.takeWhile isSpace, sign, rest, ⟨?_, ?_, hsign, hnonempty, List.takeWhile_eq_self_iff.mp hall⟩,
      by omega, hn.symm⟩
    · rw [List.append_assoc, ← hbody]
      exact htext
    · exact fun b hb => List.mem_takeWhile_imp hb

theorem parsePositiveInt_eq_some_iff (text : Bytes) (n : UInt64) :
    parsePositiveInt text = some n ↔ ∃ blanks sign digits, Spells text blanks sign digits ∧
      value 10 digits < 2 ^ 64 ∧ n = UInt64.ofNat (negateIf sign 64 (value 10 digits)) := by
  constructor
  · intro h
    rw [parsePositiveInt] at h
    split at h
    next => cases h
    next parsed idx hs =>
      split at h
      next => cases h
      next hidx =>
        rw [not_ne_iff.mp hidx, Option.some.inj h] at hs
        exact spells_of_stoul hs
  · rintro ⟨blanks, sign, digits, hspells, hvalue, rfl⟩
    rw [parsePositiveInt, stoul_of_spells hspells hvalue]
    exact if_neg fun h => h rfl

end GameServer
