import Mathlib.Tactic.Common

/-!
# Hex — bytes as hexadecimal text, read back leniently

`encode` writes two lower-case digits a byte. `decode` reads digits of
either case in pairs and stops, without complaint, at the first pair
that is not hexadecimal; an odd last digit is dropped. Decoding undoes
encoding, and lower-casing does not change encoded text.
-/

namespace Hex

open List

/-- The digit for a value below 16. -/
def digit (n : Nat) : Char := if n < 10 then Char.ofNat (48 + n) else Char.ofNat (87 + n)

/-- The value of a hexadecimal digit. -/
def value (c : Char) : Option Nat :=
  if '0' ≤ c ∧ c ≤ '9' then some (c.toNat - 48)
  else if 'a' ≤ c ∧ c ≤ 'f' then some (c.toNat - 87)
  else if 'A' ≤ c ∧ c ≤ 'F' then some (c.toNat - 55)
  else none

theorem value_digit {n : Nat} (h : n < 16) : value (digit n) = some n := by
  have key : ∀ n < 16, value (digit n) = some n := by decide
  exact key n h

theorem toLower_digit {n : Nat} (h : n < 16) : (digit n).toLower = digit n := by
  have key : ∀ n < 16, (digit n).toLower = digit n := by decide
  exact key n h

/-- The two digits of a byte. -/
def byteDigits (b : UInt8) : List Char := [digit (b.toNat / 16), digit (b.toNat % 16)]

/-- The bytes of the digit pairs up to the first that is not one. -/
def pairs : List Char → List UInt8
  | hi :: lo :: rest =>
    match value hi, value lo with
    | some h, some l => UInt8.ofNat (16 * h + l) :: pairs rest
    | _, _ => []
  | _ => []

theorem pairs_byteDigits (b : UInt8) (rest : List Char) :
    pairs (byteDigits b ++ rest) = b :: pairs rest := by
  have hb := b.toNat_lt
  show pairs (digit (b.toNat / 16) :: digit (b.toNat % 16) :: rest) = _
  rw [pairs, value_digit (by omega), value_digit (by omega)]
  dsimp only
  rw [Nat.div_add_mod, UInt8.ofNat_toNat]

theorem pairs_flatMap (bytes : List UInt8) : pairs (bytes.flatMap byteDigits) = bytes := by
  induction bytes with
  | nil => rfl
  | cons b bytes ih => rw [flatMap_cons, pairs_byteDigits, ih]

theorem map_toLower_byteDigits (b : UInt8) : (byteDigits b).map Char.toLower = byteDigits b := by
  have hb := b.toNat_lt
  simp only [byteDigits, map_cons, map_nil]
  rw [toLower_digit (by omega), toLower_digit (by omega)]

def encode (bytes : List UInt8) : String := String.ofList (bytes.flatMap byteDigits)

def decode (text : String) : List UInt8 := pairs text.toList

/-- Lower case, for the letters `A` to `Z`. -/
def lower (text : String) : String := String.ofList (text.toList.map Char.toLower)

@[simp] theorem decode_encode (bytes : List UInt8) : decode (encode bytes) = bytes := by
  rw [decode, encode, String.toList_ofList, pairs_flatMap]

theorem encode_inj {a b : List UInt8} : encode a = encode b ↔ a = b := by
  constructor
  · intro h
    rw [← decode_encode a, h, decode_encode]
  · rintro rfl
    rfl

@[simp] theorem lower_encode (bytes : List UInt8) : lower (encode bytes) = encode bytes := by
  simp only [lower, encode, String.toList_ofList, map_flatMap, map_toLower_byteDigits]

/-- Upper case, for the letters `a` to `z`. -/
def upper (text : String) : String := String.ofList (text.toList.map Char.toUpper)

theorem encode_ne_empty {bytes : List UInt8} (h : bytes ≠ []) : encode bytes ≠ "" := by
  obtain ⟨b, rest, rfl⟩ := exists_cons_of_ne_nil h
  intro hempty
  have := congrArg String.toList hempty
  simp [encode, byteDigits] at this

end Hex
