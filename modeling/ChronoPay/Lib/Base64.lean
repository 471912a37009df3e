import Mathlib.Tactic.Common

/-!
# Base64 — bytes as base64 text

`encode` writes three bytes as four characters, the last group padded
with `=`. `decode` is the reading of a lenient decoder: it stops at the
first `=`, skips what is not of the alphabet and takes `-` and `_` for
`+` and `/`. Decoding undoes encoding.
-/

namespace Base64

open List

/-- The character of a value below 64. -/
def digit (n : Nat) : Char :=
  if n < 26 then Char.ofNat (65 + n)
  else if n < 52 then Char.ofNat (71 + n)
  else if n < 62 then Char.ofNat (n - 4)
  else if n = 62 then '+'
  else '/'

/-- The value of a character of either alphabet. -/
def value (c : Char) : Option Nat :=
  if 'A' ≤ c ∧ c ≤ 'Z' then some (c.toNat - 65)
  else if 'a' ≤ c ∧ c ≤ 'z' then some (c.toNat - 71)
  else if '0' ≤ c ∧ c ≤ '9' then some (c.toNat + 4)
  else if c = '+' ∨ c = '-' then some 62
  else if c = '/' ∨ c = '_' then some 63
  else none

theorem value_digit {n : Nat} (h : n < 64) : value (digit n) = some n := by
  have key : ∀ n < 64, value (digit n) = some n := by decide
  exact key n h

/-- The values of the characters for some bytes. -/
def sextets : List UInt8 → List Nat
  | a :: b :: c :: rest =>
    [a.toNat / 4, a.toNat % 4 * 16 + b.toNat / 16, b.toNat % 16 * 4 + c.toNat / 64,
      c.toNat % 64] ++ sextets rest
  | [a, b] => [a.toNat / 4, a.toNat % 4 * 16 + b.toNat / 16, b.toNat % 16 * 4]
  | [a] => [a.toNat / 4, a.toNat % 4 * 16]
  | [] => []

/-- The bytes of a list of values; an incomplete last group gives the
bytes it has in full. -/
def octets : List Nat → List UInt8
  | p :: q :: r :: s :: rest =>
    UInt8.ofNat (p * 4 + q / 16) :: UInt8.ofNat (q % 16 * 16 + r / 4) ::
      UInt8.ofNat (r % 4 * 64 + s) :: octets rest
  | [p, q, r] => [UInt8.ofNat (p * 4 + q / 16), UInt8.ofNat (q % 16 * 16 + r / 4)]
  | [p, q] => [UInt8.ofNat (p * 4 + q / 16)]
  | _ => []

def encode (bytes : List UInt8) : String :=
  String.ofList ((sextets bytes).map digit ++ List.replicate ((3 - bytes.length % 3) % 3) '=')

def decode (text : String) : List UInt8 :=
  octets ((text.toList.takeWhile (· ≠ '=')).filterMap value)

theorem sextets_lt (bytes : List UInt8) : ∀ n ∈ sextets bytes, n < 64 := by
  induction bytes using sextets.induct with
  | case1 a b c rest ih =>
    have ha := a.toNat_lt
    have hb := b.toNat_lt
    have hc := c.toNat_lt
    simp only [sextets, cons_append, nil_append, forall_mem_cons]
    exact ⟨by omega, by omega, by omega, by omega, ih⟩
  | case2 a b =>
    have ha := a.toNat_lt
    have hb := b.toNat_lt
    simp only [sextets, forall_mem_cons]
    exact ⟨by omega, by omega, by omega, forall_mem_nil _⟩
  | case3 a =>
    have ha := a.toNat_lt
    simp only [sextets, forall_mem_cons]
    exact ⟨by omega, by omega, forall_mem_nil _⟩
  | case4 => exact forall_mem_nil _

theorem ofNat_eq_of_toNat {n : Nat} {b : UInt8} (h : n = b.toNat) : UInt8.ofNat n = b := by
  rw [h, UInt8.ofNat_toNat]

theorem octets_sextets (bytes : List UInt8) : octets (sextets bytes) = bytes := by
  induction bytes using sextets.induct with
  | case1 a b c rest ih =>
    have hb := b.toNat_lt
    have hc := c.toNat_lt
    simp only [sextets, cons_append, nil_append, octets]
    rw [ih, ofNat_eq_of_toNat (b := a) (by omega), ofNat_eq_of_toNat (b := b) (by omega),
      ofNat_eq_of_toNat (b := c) (by omega)]
  | case2 a b =>
    have hb := b.toNat_lt
    simp only [sextets, octets]
    rw [ofNat_eq_of_toNat (b := a) (by omega), ofNat_eq_of_toNat (b := b) (by omega)]
  | case3 a =>
    simp only [sextets, octets]
    rw [ofNat_eq_of_toNat (b := a) (by omega)]
  | case4 => rfl

theorem filterMap_value_digits {ns : List Nat} (h : ∀ n ∈ ns, n < 64) :
    (ns.map digit).filterMap value = ns := by
  induction ns with
  | nil => rfl
  | cons n ns ih =>
    obtain ⟨hn, hns⟩ := forall_mem_cons.mp h
    rw [map_cons, filterMap_cons_some (value_digit hn), ih hns]

theorem takeWhile_digits {ns : List Nat} (h : ∀ n ∈ ns, n < 64) (pads : Nat) :
    (ns.map digit ++ List.replicate pads '=').takeWhile (· ≠ '=') = ns.map digit := by
  have hdigit : ∀ n < 64, digit n ≠ '=' := by decide
  have hdigits : ∀ c ∈ ns.map digit, decide (c ≠ '=') = true :=
    forall_mem_map.mpr fun n hn => decide_eq_true (hdigit n (h n hn))
  rw [takeWhile_append_of_pos hdigits, takeWhile_replicate]
  exact append_nil _

@[simp] theorem decode_encode (bytes : List UInt8) : decode (encode bytes) = bytes := by
  have hlt := sextets_lt bytes
  rw [decode, encode, String.toList_ofList, takeWhile_digits hlt, filterMap_value_digits hlt,
    octets_sextets]

/-! ## The URL alphabet -/

example : encode [0x4d, 0x61, 0x6e, 0x4d] = "TWFuTQ==" := by decide +kernel

end Base64
