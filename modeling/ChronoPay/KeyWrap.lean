import Mathlib.Tactic.IntervalCases
import ChronoPay.Lib.Hex
import ChronoPay.Lib.Result

/-!
# KeyWrap — `aesKeyWrap` and `aesKeyUnwrap`

The key is cut into `n` registers of 8 bytes; six rounds run over them,
each step encrypting the integrity register `A` with one register and
folding a counter `t` into `A` byte by byte. AES under the fixed key is
any permutation `E` of 16-byte blocks.

The two sides place the counter differently: wrapping puts its LOW byte
at `A[0]` (`wrapCounter_eq`), unwrapping expects it at `A[7]`
(`unwrapCounter_eq`). What unwrapping does undo is `wrapBigEndian`, the
same rounds with the counter where unwrapping looks for it, and
`unwrap_wrap_iff` says the trip through both functions succeeds exactly
where the two ways of wrapping agree.
-/

namespace ChronoPay.KeyWrap

/-- A register. -/
abbrev Half := Vector UInt8 8

abbrev Block := Vector UInt8 16

/-- `bytes.subarray(offset, offset + 8)`. -/
def half (bytes : List UInt8) (offset : Nat) : Half :=
  Vector.ofFn fun k => bytes.getD (offset + k) 0

/-- `Buffer.concat([A, R])`. -/
def join (A R : Half) : Block :=
  Vector.ofFn fun k => if h : k.val < 8 then A[k.val] else R[k.val - 8]

/-- `B.subarray(0, 8)`. -/
def hi (B : Block) : Half := Vector.ofFn fun k => B[k.val]

/-- `B.subarray(8, 16)`. -/
def lo (B : Block) : Half := Vector.ofFn fun k => B[8 + k.val]

@[simp] theorem hi_join (A R : Half) : hi (join A R) = A := by
  apply Vector.ext
  intro k hk
  simp [hi, join]

@[simp] theorem lo_join (A R : Half) : lo (join A R) = R := by
  apply Vector.ext
  intro k hk
  simp [lo, join]

@[simp] theorem join_hi_lo (B : Block) : join (hi B) (lo B) = B := by
  apply Vector.ext
  intro k hk
  by_cases h8 : k < 8
  · simp [hi, join, h8]
  · have : 8 + (k - 8) = k := by omega
    simp [lo, join, h8, this]

/-! ## The counter -/

/-- `Number((t >> shift) & 0xffn)`. -/
def counterByte (t shift : Nat) : UInt8 := UInt8.ofNat ((t >>> shift) &&& 0xff)

/-- The counter loops of `aesKeyWrap`: the second runs `k` downwards and
writes every byte the first one wrote. -/
def wrapCounter (B : Half) (t : Nat) : Half :=
  let A : Half := Vector.ofFn fun k => B[k] ^^^ (if k.val ≥ 7 then counterByte t 0 else 0)
  ((List.finRange 8).reverse.foldl
    (fun (A, shift) k => (A.set k (B[k] ^^^ counterByte t shift), shift - 8)) (A, 56)).1

/-- The counter loop of `aesKeyUnwrap`, with `k` upwards. -/
def unwrapCounter (A : Half) (t : Nat) : Half :=
  ((List.finRange 8).foldl
    (fun (AxorT, shift) k => (AxorT.set k (A[k] ^^^ counterByte t shift), shift - 8))
    ((Vector.replicate 8 0 : Half), 56)).1

theorem finRange_eight : List.finRange 8 = [⟨0, by decide⟩, ⟨1, by decide⟩, ⟨2, by decide⟩,
    ⟨3, by decide⟩, ⟨4, by decide⟩, ⟨5, by decide⟩, ⟨6, by decide⟩, ⟨7, by decide⟩] := by decide

theorem wrapCounter_eq (B : Half) (t : Nat) :
    wrapCounter B t = Vector.ofFn fun k => B[k] ^^^ counterByte t (8 * k) := by
  apply Vector.ext
  intro k hk
  simp only [wrapCounter, finRange_eight, List.reverse_cons, List.reverse_nil, List.nil_append,
    List.cons_append, List.foldl_cons, List.foldl_nil]
  interval_cases k <;> simp [-Fin.reduceFinMk]

theorem unwrapCounter_eq (A : Half) (t : Nat) :
    unwrapCounter A t = Vector.ofFn fun k => A[k] ^^^ counterByte t (56 - 8 * k) := by
  apply Vector.ext
  intro k hk
  simp only [unwrapCounter, finRange_eight, List.foldl_cons, List.foldl_nil]
  interval_cases k <;> simp [-Fin.reduceFinMk]

@[simp] theorem unwrapCounter_unwrapCounter (A : Half) (t : Nat) :
    unwrapCounter (unwrapCounter A t) t = A := by
  apply Vector.ext
  intro k hk
  simp only [unwrapCounter_eq, Fin.getElem_fin, Vector.getElem_ofFn, UInt8.xor_assoc,
    UInt8.xor_self, UInt8.xor_zero]

/-! ## The rounds -/

/-- The integrity register and the registers of the key. -/
structure Registers (n : Nat) where
  A : Half
  R : Vector Half n
  deriving DecidableEq

/-- The steps `(j, i)` in the order of wrapping; `i` counts from zero. -/
def steps (n : Nat) : List (Nat × Fin n) :=
  (List.range 6).flatMap fun j => (List.finRange n).map fun i => (j, i)

/-- The steps in the order of unwrapping. -/
def unwrapSteps (n : Nat) : List (Nat × Fin n) :=
  (List.range 6).reverse.flatMap fun j => (List.finRange n).reverse.map fun i => (j, i)

theorem unwrapSteps_eq (n : Nat) : unwrapSteps n = (steps n).reverse := by
  rw [steps, List.reverse_flatMap, unwrapSteps]
  congr 1
  funext j
  rw [Function.comp_apply, List.map_reverse]

variable {n : Nat} (E : Equiv.Perm Block)

/-- One wrapping step, with a given way of folding in the counter. -/
def wrapStep (counter : Half → Nat → Half) (s : Registers n) (step : Nat × Fin n) : Registers n :=
  let B := E (join s.A s.R[step.2])
  { A := counter (hi B) (n * step.1 + (step.2 + 1)), R := s.R.set step.2 (lo B) }

def unwrapStep (s : Registers n) (step : Nat × Fin n) : Registers n :=
  let AxorT := unwrapCounter s.A (n * step.1 + (step.2 + 1))
  let B := E.symm (join AxorT s.R[step.2])
  { A := hi B, R := s.R.set step.2 (lo B) }

/-- `Buffer.from("A6A6A6A6A6A6A6A6A", "hex")`: the 17th digit is dropped. -/
def aesKwIv : Half := half (Hex.decode "A6A6A6A6A6A6A6A6A") 0

/-- The registers before the first round. -/
def load (n : Nat) (plainKey : List UInt8) : Registers n :=
  { A := aesKwIv, R := Vector.ofFn fun i => half plainKey (8 * i) }

/-- The output buffer. -/
def Registers.bytes (s : Registers n) : List UInt8 := s.A.toList ++ s.R.flatten.toList

def aesKeyWrap (plainKey : List UInt8) : Except String (List UInt8) :=
  if plainKey.length % 8 ≠ 0 ∨ plainKey.length / 8 < 1 then
    .error "Plain key length must be multiple of 8 bytes"
  else
    let n := plainKey.length / 8
    .ok ((steps n).foldl (wrapStep E wrapCounter) (load n plainKey)).bytes

/-- The rounds of unwrapping and the check of the integrity register. -/
def unwrapBlocks (n : Nat) (wrapped : List UInt8) : Except String (List UInt8) :=
  let s := (unwrapSteps n).foldl (unwrapStep E)
    { A := half wrapped 0, R := Vector.ofFn fun i => half wrapped (8 * (i + 1)) }
  if s.A ≠ aesKwIv then
    .error "AES-KW unwrap integrity check failed — bad KEK or corrupt wrapped DEK"
  else .ok s.R.flatten.toList

def aesKeyUnwrap (wrapped : List UInt8) : Except String (List UInt8) :=
  if wrapped.length % 8 ≠ 0 ∨ wrapped.length / 8 < 2 then .error "Wrapped key length invalid"
  else unwrapBlocks E (wrapped.length / 8 - 1) wrapped

/-- Wrapping with the counter where `aesKeyUnwrap` reads it, as RFC 3394
has it. -/
def wrapBigEndian (plainKey : List UInt8) : List UInt8 :=
  let n := plainKey.length / 8
  ((steps n).foldl (wrapStep E unwrapCounter) (load n plainKey)).bytes

/-! ## Undoing the rounds -/

variable {E} {plainKey : List UInt8}

theorem unwrapStep_wrapStep (s : Registers n) (step : Nat × Fin n) :
    unwrapStep E (wrapStep E unwrapCounter s step) step = s := by
  simp [unwrapStep, wrapStep]

theorem wrapStep_unwrapStep (s : Registers n) (step : Nat × Fin n) :
    wrapStep E unwrapCounter (unwrapStep E s step) step = s := by
  simp [unwrapStep, wrapStep]

/-- A list of steps is undone by the inverse steps in reverse order. -/
theorem foldl_reverse_cancel {σ ι : Type} {f g : σ → ι → σ} (h : ∀ s i, g (f s i) i = s)
    (l : List ι) (s : σ) : l.reverse.foldl g (l.foldl f s) = s := by
  induction l generalizing s with
  | nil => rfl
  | cons i l ih =>
    rw [List.foldl_cons, List.reverse_cons, List.foldl_append, ih]
    exact h s i

/-- All rounds: one state comes out of unwrapping exactly when the other
comes out of wrapping. -/
theorem unwrap_rounds_iff {s u : Registers n} :
    (unwrapSteps n).foldl (unwrapStep E) u = s ↔
      u = (steps n).foldl (wrapStep E unwrapCounter) s := by
  rw [unwrapSteps_eq]
  constructor
  · rintro rfl
    have := foldl_reverse_cancel (wrapStep_unwrapStep (E := E)) (steps n).reverse u
    rw [List.reverse_reverse] at this
    exact this.symm
  · rintro rfl
    exact foldl_reverse_cancel (unwrapStep_wrapStep (E := E)) (steps n) s

/-! ## Registers and bytes -/

theorem half_zero_bytes (s : Registers n) : half s.bytes 0 = s.A := by
  apply Vector.ext
  intro k hk
  simp [half, Registers.bytes, List.getElem?_append]

theorem half_bytes (s : Registers n) (i : Fin n) : half s.bytes (8 * (i + 1)) = s.R[i] := by
  apply Vector.ext
  intro k hk
  have hlt : i * 8 + k < n * 8 := by omega
  have hdiv : (i * 8 + k) / 8 = i := by omega
  have hmod : (i * 8 + k) % 8 = k := by omega
  have hoff : 8 * (i.val + 1) + k - 8 = i * 8 + k := by omega
  have hnot : ¬ 8 * (i.val + 1) + k < 8 := by omega
  simp [half, Registers.bytes, List.getElem?_append, hnot, hoff, hlt, Vector.getElem_flatten,
    hdiv, hmod]

/-- Reading the output buffer gives the registers back. -/
theorem reload (s : Registers n) :
    (⟨half s.bytes 0, Vector.ofFn fun i => half s.bytes (8 * (i + 1))⟩ : Registers n) = s := by
  obtain ⟨A, R⟩ := s
  rw [Registers.mk.injEq]
  refine ⟨half_zero_bytes _, ?_⟩
  apply Vector.ext
  intro i hi
  rw [Vector.getElem_ofFn, half_bytes ⟨A, R⟩ ⟨i, hi⟩]
  rfl

theorem bytes_inj {s u : Registers n} : s.bytes = u.bytes ↔ s = u := by
  constructor
  · intro h
    rw [← reload s, h, reload]
  · rintro rfl
    rfl

theorem length_bytes (s : Registers n) : s.bytes.length = 8 * (n + 1) := by
  simp [Registers.bytes]
  omega

/-- The key registers hold exactly the key. -/
theorem flatten_load (h : plainKey.length = 8 * n) :
    (load n plainKey).R.flatten.toList = plainKey := by
  apply List.ext_getElem
  · simp [h]
    omega
  · intro i h1 h2
    have hsplit : 8 * (i / 8) + i % 8 = i := by omega
    simp [load, half, Vector.getElem_flatten, hsplit, h2]

theorem eq_load_iff (h : plainKey.length = 8 * n) {s : Registers n} :
    s = load n plainKey ↔ s.A = aesKwIv ∧ s.R.flatten.toList = plainKey := by
  constructor
  · rintro rfl
    exact ⟨rfl, flatten_load h⟩
  · rintro ⟨hA, hR⟩
    apply bytes_inj.mp
    rw [Registers.bytes, Registers.bytes, hA, hR, flatten_load h]
    rfl

/-- What unwrapping accepts: the bytes of the state that big-endian
wrapping reaches, and no others. -/
theorem aesKeyUnwrap_bytes (hn : 1 ≤ n) (h : plainKey.length = 8 * n) (s : Registers n) :
    aesKeyUnwrap E s.bytes = .ok plainKey ↔
      s = (steps n).foldl (wrapStep E unwrapCounter) (load n plainKey) := by
  have hdiv : s.bytes.length / 8 - 1 = n := by
    rw [length_bytes]
    omega
  have hok : ¬ (s.bytes.length % 8 ≠ 0 ∨ s.bytes.length / 8 < 2) := by
    rw [length_bytes]
    omega
  rw [← unwrap_rounds_iff, eq_load_iff h, aesKeyUnwrap, if_neg hok, hdiv]
  simp only [unwrapBlocks, reload]
  split
  next hA => simp [hA]
  next hA => simp [Decidable.not_not.mp hA]

/-- **The trip through both functions** returns the key exactly when the
wrapped bytes are those of big-endian wrapping. -/
theorem unwrap_wrap_iff (E : Equiv.Perm Block) {plainKey : List UInt8}
    (h8 : 8 ∣ plainKey.length) (hpos : 0 < plainKey.length) :
    (aesKeyWrap E plainKey >>= aesKeyUnwrap E) = .ok plainKey ↔
      aesKeyWrap E plainKey = .ok (wrapBigEndian E plainKey) := by
  have hlen : plainKey.length = 8 * (plainKey.length / 8) := (Nat.mul_div_cancel' h8).symm
  have hok : ¬ (plainKey.length % 8 ≠ 0 ∨ plainKey.length / 8 < 1) := by omega
  rw [aesKeyWrap, if_neg hok, wrapBigEndian, Except.ok.injEq, bytes_inj]
  exact aesKeyUnwrap_bytes (by omega) hlen _

/-- A permutation on which the two ways of wrapping agree for the zero
key: it exchanges two blocks. -/
theorem unwrap_wrap_exchanged :
    let p : Block := join #v[0xa6, 0xa6, 0xa6, 0xa6, 0xa6, 0xa6, 0xa6, 0xa5] (Vector.replicate 8 0)
    let q : Block := join #v[0xa1, 0xa6, 0xa6, 0xa6, 0xa6, 0xa6, 0xa6, 0xa2] (Vector.replicate 8 0)
    (aesKeyWrap (Equiv.swap p q) (List.replicate 8 0) >>= aesKeyUnwrap (Equiv.swap p q))
      = .ok (List.replicate 8 0) :=
  (unwrap_wrap_iff _ (by decide) (by decide)).mpr (by decide +kernel)

/-- With the identity for AES, the zero key does not come back. -/
theorem unwrap_wrap_identity :
    (aesKeyWrap (Equiv.refl Block) (List.replicate 8 0) >>= aesKeyUnwrap (Equiv.refl Block))
      = .error "AES-KW unwrap integrity check failed — bad KEK or corrupt wrapped DEK" := by
  decide +kernel

end ChronoPay.KeyWrap
