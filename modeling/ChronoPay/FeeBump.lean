import ChronoPay.Lib.Base64
import ChronoPay.Lib.Hex
import ChronoPay.Lib.Result

/-!
# FeeBump — the hand-written walk over a fee-bump envelope

`validateFeeBumpTransaction` reads a transaction envelope from its bytes:
the fee source, the fee, the inner envelope (a transaction, or another
fee bump around one), the inner signatures and the outer ones. Lengths
and counts are signed 32-bit numbers taken from the bytes, and a read
outside the buffer throws.

Every read but one is preceded by a test of the buffer's END, so a walk
that only moves forward stays in range (`Meets Stop.IsNull`); the inner
type at 48 is read with 48 bytes tested, and a negative length moves the
walk backwards, before the buffer's start. `validate_returns_or_refuses`
is the bound that remains.

The source of the inner transaction is looked up on one branch only, when
the inner envelope is a transaction. `accepted_sources_differ` is what
acceptance says on that branch.
-/

namespace ChronoPay.FeeBump

open List Result

/-! ## Reads -/

abbrev Buffer := List UInt8

/-- How a walk ends without a result: a function returns `null`, or a read
is out of range. -/
inductive Stop where
  | null
  | rangeError (offset : Int)
  deriving DecidableEq, Repr

/-- The value of big-endian two's-complement bytes. -/
def signedBE (bytes : List UInt8) : Int :=
  let n : Nat := bytes.foldl (fun n b => 256 * n + b.toNat) 0
  let size : Nat := Nat.pow 256 bytes.length
  if 2 * n < size then n else n - size

/-- `buf.readInt…BE(offset)` of a width in bytes. -/
def readIntBE (width : Nat) (buf : Buffer) (offset : Int) : Except Stop Int :=
  if 0 ≤ offset ∧ offset + width ≤ buf.length then
    .ok (signedBE ((buf.drop offset.toNat).take width))
  else .error (.rangeError offset)

def readInt32BE : Buffer → Int → Except Stop Int := readIntBE 4

def readBigInt64BE : Buffer → Int → Except Stop Int := readIntBE 8

/-- `buf.subarray(offset, offset + length)`, at an offset in the buffer. -/
def subarray (buf : Buffer) (offset : Int) (length : Nat) : List UInt8 :=
  (buf.drop offset.toNat).take length

def toHex (buf : Buffer) (offset : Int) (length : Nat) : String :=
  Hex.upper (Hex.encode (subarray buf offset length))

/-- `if (buf.length < stop) return null`. -/
def within (buf : Buffer) (stop : Int) : Except Stop Unit :=
  require (¬ (buf.length : Int) < stop) .null

/-! ## The walk -/

def envelopeTypeTx : Int := 1

def envelopeTypeFeeBump : Int := 4

def keyTypeEd25519 : Int := 0

def readEnvelopeType (buf : Buffer) : Except Stop Int := do
  within buf 4
  readInt32BE buf 0

/-- The signatures of an array, from the first one on. -/
def skipSignatures (buf : Buffer) : Nat → Int → Except Stop Int
  | 0, pos => .ok pos
  | n + 1, pos => do
    within buf (pos + 4 + 4)
    let pos := pos + 4
    let sigLen ← readInt32BE buf pos
    let pos := pos + 4
    within buf (pos + sigLen)
    skipSignatures buf n (pos + sigLen)

/-- Where the array does not fit the buffer, there are no signatures. -/
def countRawSignatures (buf : Buffer) (offset : Int) : Except Stop Int :=
  if (buf.length : Int) < offset + 4 then .ok 0
  else do
    let count ← readInt32BE buf offset
    match skipSignatures buf count.toNat (offset + 4) with
    | .ok _ => .ok count
    | .error .null => .ok 0
    | .error (.rangeError pos) => .error (.rangeError pos)

def estimateOpBodySize : Int → Option Int
  | 0 => some (4 + 32 + 8)
  | 1 => some (4 + 4 + 32 + 8)
  | 2 => some (4 + 4 + 4 + 32 + 32 + 8)
  | 3 => some (4 + 32 + 8 + 8 + 8)
  | 4 => some (4 + 32 + 20)
  | 5 => some (4 + 4 + 32 + 8 + 4 + 4 + 4 + 4)
  | 6 => some (4 + 4 + 4 + 1 + 4 + 4 + 4)
  | 7 => some (4 + 32 + 4)
  | 8 => some (4 + 4 + 4 + 4)
  | 9 => some (4 + 4 + 4 + 4 + 4 + 1 + 8)
  | 10 => some (4 + 4 + 32 + 4 + 4 + 32 + 4 + 4 + 4 + 4 + 4)
  | 11 => some (4 + 4)
  | 12 => some (4 + 32 + 20)
  | 13 => some (4 + 4 + 32 + 32 + 8)
  | 14 => some (4 + 4)
  | 15 => some 4
  | 16 => some (4 + 4 + 32 + 32 + 32 + 8 + 8 + 32 + 32 + 8)
  | 17 => some (4 + 32 + 4 + 4 + 32 + 8)
  | 18 => some (4 + 4)
  | 19 => some (4 + 32)
  | 20 => some (4 + 1)
  | 21 => some 4
  | _ => none

/-- An optional field of a given size, from its presence flag on. -/
def skipOptional (size : Int) (buf : Buffer) (pos : Int) : Except Stop Int := do
  let present ← readInt32BE buf pos
  let pos := pos + 4
  if present ≠ 0 then
    within buf (pos + size)
    return pos + size
  else return pos

/-- The memo, from its type on. -/
def skipMemo (buf : Buffer) (pos : Int) : Except Stop Int := do
  within buf (pos + 4 + 4 + 4)
  let memoType ← readInt32BE buf pos
  let pos := pos + 4
  if memoType = 1 then
    within buf (pos + 4)
    let memoLen ← readInt32BE buf pos
    let pos := pos + 4
    within buf (pos + memoLen)
    return pos + memoLen
  else if memoType = 2 then
    within buf (pos + 8)
    return pos + 8
  else if memoType = 3 ∨ memoType = 4 then
    within buf (pos + 32)
    return pos + 32
  else return pos

/-- One operation. -/
def skipOperation (buf : Buffer) (pos : Int) : Except Stop Int := do
  within buf (pos + 4)
  let pos ← skipOptional (4 + 32) buf pos
  within buf (pos + 4)
  let opType ← readInt32BE buf pos
  let pos := pos + 4
  match estimateOpBodySize opType with
  | none => .error .null
  | some bodyLen =>
    within buf (pos + bodyLen)
    return pos + bodyLen

def skipOperations (buf : Buffer) : Nat → Int → Except Stop Int
  | 0, pos => .ok pos
  | n + 1, pos => do
    let pos ← skipOperation buf pos
    skipOperations buf n pos

def skipTransactionRaw (buf : Buffer) (offset : Int) : Except Stop Int := do
  let pos := offset
  within buf (pos + 4 + 32 + 4 + 8 + 4)
  let pos ← skipOptional 16 buf (pos + 4 + 32 + 4 + 8)
  let pos ← skipMemo buf pos
  within buf (pos + 4)
  let numOps ← readInt32BE buf pos
  let pos ← skipOperations buf numOps.toNat (pos + 4)
  within buf (pos + 4)
  let _extV ← readInt32BE buf pos
  return pos + 4

def skipFeeBumpTransaction (buf : Buffer) (offset : Int) : Except Stop Int :=
  if (buf.length : Int) < offset + 4 + 32 + 8 then .error .null
  else if h : (buf.length : Int) < offset + (4 + 32 + 8) + 4 then .error .null
  else do
    let innerType ← readInt32BE buf (offset + (4 + 32 + 8))
    if innerType = envelopeTypeFeeBump then
      skipFeeBumpTransaction buf (offset + (4 + 32 + 8) + 4)
    else if innerType = envelopeTypeTx then
      skipTransactionRaw buf (offset + (4 + 32 + 8) + 4)
    else .error .null
termination_by (buf.length - offset).toNat
decreasing_by omega

structure FeeBumpDetails where
  feeSource : String
  innerSource : String
  fee : Int
  innerSignatureCount : Int
  outerSignatureCount : Int
  deriving DecidableEq, Repr

/-- What `parseFeeBumpEnvelope` keeps of the inner envelope: the source it
looked up, and where the envelope's body ends. -/
structure Inner where
  source : String
  stop : Int

def readInner (buf : Buffer) (innerType offset : Int) : Except Stop Inner :=
  if innerType = envelopeTypeTx then do
    within buf (offset + 4 + 32)
    let innerSource := toHex buf (offset + 4) 32
    let innerEnd ← skipTransactionRaw buf offset
    return { source := innerSource, stop := innerEnd }
  else if innerType = envelopeTypeFeeBump then do
    let skipped ← skipFeeBumpTransaction buf offset
    return { source := "", stop := skipped }
  else .error .null

/-- The loop over the inner signatures, which were counted before. -/
def passSignatures (buf : Buffer) : Nat → Int → Except Stop Int
  | 0, offset => .ok offset
  | n + 1, offset => do
    let offset := offset + 4
    let sigLen ← readInt32BE buf offset
    passSignatures buf n (offset + (4 + sigLen))

def parseFeeBumpEnvelope (buf : Buffer) : Except Stop FeeBumpDetails := do
  within buf (4 + 4 + 32 + 8)
  let envType ← readInt32BE buf 0
  require (envType = envelopeTypeFeeBump) Stop.null
  let feeSourceType ← readInt32BE buf 4
  require (feeSourceType = keyTypeEd25519) Stop.null
  let feeSource := toHex buf 8 32
  let fee ← readBigInt64BE buf 40
  let innerType ← readInt32BE buf 48
  let inner ← readInner buf innerType 52
  let innerSigCount ← countRawSignatures buf inner.stop
  let offset ← passSignatures buf innerSigCount.toNat (inner.stop + 4)
  let outerSigCount ← countRawSignatures buf offset
  return {
    feeSource
    innerSource := inner.source
    fee
    innerSignatureCount := innerSigCount
    outerSignatureCount := outerSigCount }

/-! ## The validator -/

inductive Thrown where
  /-- `ContractInvalidRequestError` -/
  | contractInvalidRequest (message : String)
  /-- Node's `RangeError` -/
  | rangeError (offset : Int)
  deriving DecidableEq, Repr

/-- `Buffer.from(xdr, "base64")`, which does not throw on a string. -/
def decodeBase64 (xdr : String) : Buffer := Base64.decode xdr

def getEnvelopeType (xdrBase64 : String) : Except Stop Int :=
  readEnvelopeType (decodeBase64 xdrBase64)

def parseFeeBumpTransactionEnvelope (xdrBase64 : String) : Except Stop FeeBumpDetails :=
  parseFeeBumpEnvelope (decodeBase64 xdrBase64)

/-- The checks on the parsed envelope. -/
def checkDetails (details : FeeBumpDetails) : Except Thrown Unit := do
  require (¬ details.fee ≤ 0)
    (.contractInvalidRequest "Fee-bump transaction must have a positive fee amount")
  require (details.outerSignatureCount ≠ 0)
    (.contractInvalidRequest "Fee-bump transaction must have sponsor signatures")
  require (details.innerSignatureCount ≠ 0)
    (.contractInvalidRequest "Fee-bump inner transaction must have inner-tx signer signatures")
  require (details.feeSource ≠ details.innerSource)
    (.contractInvalidRequest
      "Fee-bump sponsor cannot be the same as inner transaction source account")

/-- The checks on what parsing ended with. -/
def checkParsed : Except Stop FeeBumpDetails → Except Thrown Unit
  | .error .null =>
    .error (.contractInvalidRequest "Invalid fee-bump transaction envelope structure")
  | .error (.rangeError offset) => .error (.rangeError offset)
  | .ok details => checkDetails details

def validateFeeBumpTransaction (xdrBase64 : String) : Except Thrown Unit :=
  match getEnvelopeType xdrBase64 with
  | .error .null => .ok ()
  | .error (.rangeError offset) => .error (.rangeError offset)
  | .ok envType =>
    if envType ≠ envelopeTypeFeeBump then .ok ()
    else checkParsed (parseFeeBumpTransactionEnvelope xdrBase64)

def isFeeBumpEnvelope (xdrBase64 : String) : Bool :=
  getEnvelopeType xdrBase64 == .ok envelopeTypeFeeBump

/-- A fee bump whose inner envelope is a fee bump. -/
def isNestedFeeBump (xdrBase64 : String) : Bool :=
  let buf := decodeBase64 xdrBase64
  if buf.length < 4 then false
  else if readInt32BE buf 0 ≠ .ok envelopeTypeFeeBump then false
  else if buf.length < 52 then false
  else readInt32BE buf 48 == .ok envelopeTypeFeeBump

/-! ## Where the walk goes -/

/-- The offset of the transaction inside the fee bumps nested from an
offset on. -/
def innermostFrom (buf : Buffer) (offset : Int) : Except Stop Int :=
  if h : (buf.length : Int) < offset + 48 then .error .null
  else do
    let innerType ← readInt32BE buf (offset + 44)
    if innerType = envelopeTypeFeeBump then innermostFrom buf (offset + 48)
    else if innerType = envelopeTypeTx then return offset + 48
    else .error .null
termination_by (buf.length - offset).toNat
decreasing_by omega

/-- The offset of the innermost transaction of an envelope. -/
def innermostTransaction (buf : Buffer) : Except Stop Int := do
  let innerType ← readInt32BE buf 48
  if innerType = envelopeTypeTx then return 52
  else if innerType = envelopeTypeFeeBump then innermostFrom buf 52
  else .error .null

/-- `skipFeeBumpTransaction` without the test that is implied by the next
one. -/
theorem skipFeeBumpTransaction_unfold (buf : Buffer) (offset : Int) :
    skipFeeBumpTransaction buf offset
      = if (buf.length : Int) < offset + 48 then .error .null
        else readInt32BE buf (offset + 44) >>= fun innerType =>
          if innerType = envelopeTypeFeeBump then skipFeeBumpTransaction buf (offset + 48)
          else if innerType = envelopeTypeTx then skipTransactionRaw buf (offset + 48)
          else .error .null := by
  have hsum : offset + (4 + 32 + 8) + 4 = offset + 48 := by omega
  rw [skipFeeBumpTransaction, hsum]
  by_cases hlt : (buf.length : Int) < offset + 48
  · simp [hlt]
  · have hfirst : ¬ (buf.length : Int) < offset + 4 + 32 + 8 := by omega
    simp [hlt, hfirst]

theorem skipFeeBumpTransaction_eq (buf : Buffer) (offset : Int) :
    skipFeeBumpTransaction buf offset
      = innermostFrom buf offset >>= skipTransactionRaw buf := by
  induction offset using innermostFrom.induct buf with
  | case1 offset hlt =>
    rw [skipFeeBumpTransaction_unfold, innermostFrom, if_pos hlt, dif_pos hlt]
    rfl
  | case2 offset hge ih =>
    rw [skipFeeBumpTransaction_unfold, innermostFrom, if_neg hge, dif_neg hge, bind_assoc]
    congr 1
    funext innerType
    split
    · exact ih
    · split
      · rfl
      · rfl

/-! ## The lengths the walk reads -/

/-- What is read at a position that a walk may not reach. -/
def fieldsAt (walk : Except Stop Int) (fields : Int → List Int) : List Int :=
  match walk with
  | .ok pos => fields pos
  | .error _ => []

/-- The length of a text memo, with its type at `pos`. -/
def memoLength (buf : Buffer) (pos : Int) : List Int :=
  if readInt32BE buf pos = .ok 1 then fieldsAt (readInt32BE buf (pos + 4)) ([·]) else []

def signatureLengths (buf : Buffer) : Nat → Int → List Int
  | 0, _ => []
  | n + 1, pos =>
    fieldsAt (readInt32BE buf (pos + 4)) fun sigLen =>
      sigLen :: signatureLengths buf n (pos + 4 + 4 + sigLen)

/-- The lengths in the array of signatures at `offset`. -/
def arrayLengths (buf : Buffer) (offset : Int) : List Int :=
  fieldsAt (readInt32BE buf offset) fun count => signatureLengths buf count.toNat (offset + 4)

/-- Where the outer signatures are, after the inner ones. -/
def outerSignatures (buf : Buffer) (offset : Int) : Except Stop Int := do
  let innerSigCount ← countRawSignatures buf offset
  passSignatures buf innerSigCount.toNat (offset + 4)

/-- The length fields of an envelope: those of the memo, the inner and the
outer signatures. -/
def lengthFields (buf : Buffer) : List Int :=
  fieldsAt (innermostTransaction buf) fun tx =>
    fieldsAt (skipOptional 16 buf (tx + 4 + 32 + 4 + 8)) (memoLength buf) ++
      fieldsAt (skipTransactionRaw buf tx) fun offset =>
        arrayLengths buf offset ++ fieldsAt (outerSignatures buf offset) (arrayLengths buf)

/-- A fee bump that ends inside its inner type: the test before that read
asks for the 48 bytes in front of it. -/
def CutOff (buf : Buffer) : Prop :=
  48 ≤ buf.length ∧ buf.length < 52 ∧ readInt32BE buf 0 = .ok envelopeTypeFeeBump ∧
    readInt32BE buf 4 = .ok keyTypeEd25519

instance (buf : Buffer) : Decidable (CutOff buf) := inferInstanceAs (Decidable (_ ∧ _ ∧ _ ∧ _))

/-! ## Reads in range -/

variable {buf : Buffer} {pos offset stop : Int} {α : Type} {P : α → Prop}

/-- A walk that ends with a result or with `null`. -/
abbrev Safe (P : α → Prop) (x : Except Stop α) : Prop := Meets (· = Stop.null) P x

theorem within_safe : Safe (fun _ => stop ≤ buf.length) (within buf stop) :=
  meets_require (fun _ => rfl) Int.not_lt.mp

theorem require_safe {p : Prop} [Decidable p] : Safe (fun _ => p) (require p Stop.null) :=
  meets_require (fun _ => rfl) id

theorem readInt32BE_safe (hstart : 0 ≤ offset) (hend : offset + 4 ≤ buf.length) :
    Safe (fun value => readInt32BE buf offset = .ok value) (readInt32BE buf offset) := by
  have hread : Safe (fun _ => True) (readInt32BE buf offset) := by
    rw [readInt32BE, readIntBE, if_pos ⟨hstart, by exact_mod_cast hend⟩]
    trivial
  exact hread.with_eq.mono fun _ h => h.1

theorem skipOptional_safe {size : Int} (hsize : 0 ≤ size) (hstart : 0 ≤ pos)
    (hend : pos + 4 ≤ buf.length) : Safe (0 ≤ ·) (skipOptional size buf pos) := by
  refine (readInt32BE_safe hstart hend).bind fun present _ => ?_
  split
  · refine within_safe.bind fun _ _ => ?_
    show 0 ≤ pos + 4 + size
    omega
  · show 0 ≤ pos + 4
    omega

theorem skipMemo_safe (hstart : 0 ≤ pos) (hmemo : ∀ len ∈ memoLength buf pos, 0 ≤ len) :
    Safe (0 ≤ ·) (skipMemo buf pos) := by
  refine within_safe.bind fun _ hlen => ?_
  refine (readInt32BE_safe hstart (by omega)).bind fun memoType htype => ?_
  have hfixed : ∀ size : Int, 0 ≤ size →
      Safe (0 ≤ ·) (within buf (pos + 4 + size) >>= fun _ => pure (pos + 4 + size)) := by
    intro size hsize
    refine within_safe.bind fun _ _ => ?_
    show 0 ≤ pos + 4 + size
    omega
  split
  next hone =>
    refine within_safe.bind fun _ _ => ?_
    refine (readInt32BE_safe (by omega) (by omega)).bind fun memoLen hread => ?_
    have hnonneg : 0 ≤ memoLen := by
      apply hmemo
      rw [memoLength, if_pos (hone ▸ htype), hread]
      exact mem_singleton_self _
    refine within_safe.bind fun _ _ => ?_
    show 0 ≤ pos + 4 + 4 + memoLen
    omega
  · split
    · exact hfixed 8 (by omega)
    · split
      · exact hfixed 32 (by omega)
      · show 0 ≤ pos + 4
        omega

theorem estimateOpBodySize_nonneg {opType bodyLen : Int}
    (h : estimateOpBodySize opType = some bodyLen) : 0 ≤ bodyLen := by
  unfold estimateOpBodySize at h
  split at h <;> first | (cases h; done) | (obtain rfl := Option.some.inj h; decide)

theorem skipOperation_safe (hstart : 0 ≤ pos) : Safe (0 ≤ ·) (skipOperation buf pos) := by
  refine within_safe.bind fun _ hlen => ?_
  refine (skipOptional_safe (by omega) hstart hlen).bind fun pos hstart => ?_
  refine within_safe.bind fun _ hlen => ?_
  refine (readInt32BE_safe hstart hlen).bind fun opType _ => ?_
  cases hsize : estimateOpBodySize opType with
  | none => rfl
  | some bodyLen =>
    have hnonneg := estimateOpBodySize_nonneg hsize
    refine within_safe.bind fun _ _ => ?_
    show 0 ≤ pos + 4 + bodyLen
    omega

theorem skipOperations_safe (n : Nat) (hstart : 0 ≤ pos) :
    Safe (0 ≤ ·) (skipOperations buf n pos) := by
  induction n generalizing pos with
  | zero => exact hstart
  | succ n ih => exact (skipOperation_safe hstart).bind fun pos hstart => ih hstart

theorem skipTransactionRaw_safe (hstart : 0 ≤ offset)
    (hmemo : ∀ len ∈ fieldsAt (skipOptional 16 buf (offset + 4 + 32 + 4 + 8)) (memoLength buf),
      0 ≤ len) : Safe (0 ≤ ·) (skipTransactionRaw buf offset) := by
  refine within_safe.bind fun _ hlen => ?_
  have hbounds : Safe _ (skipOptional 16 buf (offset + 4 + 32 + 4 + 8)) :=
    skipOptional_safe (by omega) (by omega) (by omega)
  refine hbounds.with_eq.bind fun pos hbounds => ?_
  obtain ⟨heq, hpos⟩ := hbounds
  rw [heq] at hmemo
  refine (skipMemo_safe hpos hmemo).bind fun pos hpos => ?_
  refine within_safe.bind fun _ hlen => ?_
  refine (readInt32BE_safe hpos hlen).bind fun numOps _ => ?_
  refine (skipOperations_safe numOps.toNat (by omega)).bind fun pos hpos => ?_
  refine within_safe.bind fun _ hlen => ?_
  refine (readInt32BE_safe hpos hlen).bind fun _ _ => ?_
  show 0 ≤ pos + 4
  omega

theorem innermostFrom_safe (hstart : 0 ≤ offset) : Safe (0 ≤ ·) (innermostFrom buf offset) := by
  induction offset using innermostFrom.induct buf with
  | case1 offset hlt =>
    rw [innermostFrom, dif_pos hlt]
    rfl
  | case2 offset hge ih =>
    rw [innermostFrom, dif_neg hge]
    refine (readInt32BE_safe (by omega) (by omega)).bind fun innerType _ => ?_
    split
    · exact ih (by omega)
    · split
      · show 0 ≤ offset + 48
        omega
      · rfl

theorem skipSignatures_safe (n : Nat) (hstart : 0 ≤ pos)
    (hlens : ∀ len ∈ signatureLengths buf n pos, 0 ≤ len) :
    Safe (0 ≤ ·) (skipSignatures buf n pos) := by
  induction n generalizing pos with
  | zero => exact hstart
  | succ n ih =>
    refine within_safe.bind fun _ hlen => ?_
    refine (readInt32BE_safe (by omega) (by omega)).bind fun sigLen hread => ?_
    rw [signatureLengths, hread] at hlens
    obtain ⟨hnonneg, hrest⟩ := forall_mem_cons.mp hlens
    exact within_safe.bind fun _ _ => ih (by omega) hrest

/-- The loop that passes over the signatures goes where counting went. -/
theorem passSignatures_of_skipSignatures {n : Nat} {stop : Int}
    (h : skipSignatures buf n pos = .ok stop) : passSignatures buf n pos = .ok stop := by
  induction n generalizing pos with
  | zero => exact h
  | succ n ih =>
    simp only [skipSignatures, bind_eq_ok] at h
    obtain ⟨-, -, sigLen, hread, -, -, hrest⟩ := h
    have hsum : pos + 4 + (4 + sigLen) = pos + 4 + 4 + sigLen := by omega
    simp only [passSignatures, bind_eq_ok]
    exact ⟨sigLen, hread, hsum ▸ ih hrest⟩

/-- A count that is not zero comes from an array in the buffer. -/
theorem countRawSignatures_safe (hstart : 0 ≤ offset)
    (hlens : ∀ len ∈ arrayLengths buf offset, 0 ≤ len) :
    Safe (fun count => count = 0 ∨
      ∃ stop, skipSignatures buf count.toNat (offset + 4) = .ok stop ∧ 0 ≤ stop)
      (countRawSignatures buf offset) := by
  unfold countRawSignatures
  split
  · exact .inl rfl
  next hlen =>
    refine (readInt32BE_safe hstart (by omega)).bind fun count hread => ?_
    rw [arrayLengths, hread] at hlens
    have hskip := skipSignatures_safe count.toNat (by omega) hlens
    split
    next stop heq =>
      rw [heq] at hskip
      exact .inr ⟨stop, heq, hskip⟩
    · exact .inl rfl
    next at_ heq =>
      rw [heq] at hskip
      cases hskip

theorem passSignatures_safe (hstart : 0 ≤ offset) {count : Int}
    (hcount : count = 0 ∨
      ∃ stop, skipSignatures buf count.toNat (offset + 4) = .ok stop ∧ 0 ≤ stop) :
    Safe (0 ≤ ·) (passSignatures buf count.toNat (offset + 4)) := by
  rcases hcount with rfl | ⟨stop, hskip, hstop⟩
  · show 0 ≤ offset + 4
    omega
  · rw [passSignatures_of_skipSignatures hskip]
    exact hstop

theorem mem_fieldsAt {walk : Except Stop Int} {fields : Int → List Int} {len : Int}
    (hwalk : walk = .ok pos) (h : len ∈ fields pos) : len ∈ fieldsAt walk fields := by
  rw [hwalk]
  exact h

theorem innermostTransaction_tx (h : readInt32BE buf 48 = .ok envelopeTypeTx) :
    innermostTransaction buf = .ok 52 := by
  rw [innermostTransaction, h]
  rfl

theorem innermostTransaction_feeBump (h : readInt32BE buf 48 = .ok envelopeTypeFeeBump) :
    innermostTransaction buf = innermostFrom buf 52 := by
  rw [innermostTransaction, h]
  rfl

/-- The inner envelope ends where its innermost transaction does. -/
theorem readInner_safe {innerType : Int} (hread : readInt32BE buf 48 = .ok innerType)
    (hlens : ∀ len ∈ lengthFields buf, 0 ≤ len) :
    Safe (fun inner => 0 ≤ inner.stop ∧ ∃ tx, innermostTransaction buf = .ok tx ∧
      skipTransactionRaw buf tx = .ok inner.stop) (readInner buf innerType 52) := by
  have htx : ∀ tx, innermostTransaction buf = .ok tx → 0 ≤ tx →
      Safe (fun stop => skipTransactionRaw buf tx = .ok stop ∧ 0 ≤ stop)
        (skipTransactionRaw buf tx) := by
    intro tx heq hnonneg
    refine (skipTransactionRaw_safe hnonneg fun len hlen => hlens len ?_).with_eq
    exact mem_fieldsAt heq (mem_append_left _ hlen)
  unfold readInner
  split
  next htype =>
    have heq := innermostTransaction_tx (htype ▸ hread)
    refine within_safe.bind fun _ _ => ?_
    refine (htx 52 heq (by decide)).bind fun stop hstop => ?_
    exact ⟨hstop.2, 52, heq, hstop.1⟩
  · split
    next htype =>
      have heq := innermostTransaction_feeBump (htype ▸ hread)
      rw [skipFeeBumpTransaction_eq, bind_assoc]
      refine (innermostFrom_safe (by decide)).with_eq.bind fun tx hinner => ?_
      refine (htx tx (heq.trans hinner.1) hinner.2).bind fun stop hstop => ?_
      exact ⟨hstop.2, tx, heq.trans hinner.1, hstop.1⟩
    · rfl

theorem parseFeeBumpEnvelope_safe (hlen : ¬ CutOff buf)
    (hlens : ∀ len ∈ lengthFields buf, 0 ≤ len) :
    Safe (fun _ => True) (parseFeeBumpEnvelope buf) := by
  refine within_safe.bind fun _ hlong => ?_
  refine (readInt32BE_safe (by decide) (by omega)).bind fun envType henv => ?_
  refine require_safe.bind fun _ hfeeBump => ?_
  refine (readInt32BE_safe (by decide) (by omega)).bind fun feeSourceType hsource => ?_
  refine require_safe.bind fun _ hkey => ?_
  have hlong : 52 ≤ buf.length := by
    by_contra hshort
    exact hlen ⟨by omega, by omega, hfeeBump ▸ henv, hkey ▸ hsource⟩
  have hfee : Safe (fun _ => True) (readBigInt64BE buf 40) := by
    rw [readBigInt64BE, readIntBE, if_pos ⟨by decide, by push_cast; omega⟩]
    trivial
  refine hfee.bind fun fee _ => ?_
  refine (readInt32BE_safe (by decide) (by omega)).bind fun innerType hread => ?_
  refine (readInner_safe hread hlens).bind fun inner hinner => ?_
  obtain ⟨hstop, tx, htx, hskip⟩ := hinner
  have hfields : ∀ len ∈ arrayLengths buf inner.stop ++
      fieldsAt (outerSignatures buf inner.stop) (arrayLengths buf), 0 ≤ len := fun len h =>
    hlens len (mem_fieldsAt htx (mem_append_right _ (mem_fieldsAt hskip h)))
  obtain ⟨hinnerLens, houterLens⟩ := forall_mem_append.mp hfields
  refine (countRawSignatures_safe hstop hinnerLens).with_eq.bind fun innerSigCount hinner => ?_
  obtain ⟨hcount, hcounted⟩ := hinner
  refine (passSignatures_safe hstop hcounted).with_eq.bind fun offset hpassed => ?_
  obtain ⟨hpass, hoffset⟩ := hpassed
  have houter : outerSignatures buf inner.stop = .ok offset := by
    rw [outerSignatures, hcount]
    exact hpass
  rw [houter] at houterLens
  refine (countRawSignatures_safe hoffset houterLens).bind fun outerSigCount _ => ?_
  trivial

/-! ## Acceptance -/

@[simp] theorem decodeBase64_encode (bytes : List UInt8) :
    decodeBase64 (Base64.encode bytes) = bytes := Base64.decode_encode bytes

theorem isFeeBumpEnvelope_iff {bytes : List UInt8} :
    isFeeBumpEnvelope (Base64.encode bytes) = true ↔
      readEnvelopeType bytes = .ok envelopeTypeFeeBump := by
  rw [isFeeBumpEnvelope, getEnvelopeType, decodeBase64_encode, beq_iff_eq]

theorem validate_feeBump {bytes : List UInt8}
    (h : readEnvelopeType bytes = .ok envelopeTypeFeeBump) :
    validateFeeBumpTransaction (Base64.encode bytes)
      = checkParsed (parseFeeBumpEnvelope bytes) := by
  rw [validateFeeBumpTransaction, getEnvelopeType, parseFeeBumpTransactionEnvelope,
    decodeBase64_encode, h]
  rfl

/-- The validator's own error. -/
def Thrown.Refused (thrown : Thrown) : Prop := ∃ message, thrown = .contractInvalidRequest message

theorem require_refuses {p : Prop} [Decidable p] {message : String} :
    Meets Thrown.Refused (fun _ => p) (require p (.contractInvalidRequest message)) :=
  meets_require (fun _ => ⟨message, rfl⟩) id

theorem checkDetails_meets (details : FeeBumpDetails) :
    Meets Thrown.Refused (fun _ => details.feeSource ≠ details.innerSource)
      (checkDetails details) := by
  unfold checkDetails
  refine require_refuses.bind fun _ _ => ?_
  refine require_refuses.bind fun _ _ => ?_
  refine require_refuses.bind fun _ _ => ?_
  exact require_refuses

theorem checkParsed_meets {parsed : Except Stop FeeBumpDetails}
    (h : Safe (fun _ => True) parsed) :
    Meets Thrown.Refused (fun _ => True) (checkParsed parsed) := by
  cases parsed with
  | error stop =>
    obtain rfl : stop = .null := h
    exact ⟨_, rfl⟩
  | ok details => exact (checkDetails_meets details).mono fun _ _ => trivial

theorem validate_meets (bytes : List UInt8) (hlen : ¬ CutOff bytes)
    (hlens : ∀ len ∈ lengthFields bytes, 0 ≤ len) :
    Meets Thrown.Refused (fun _ => True) (validateFeeBumpTransaction (Base64.encode bytes)) := by
  have htype : Safe (fun _ => True) (readEnvelopeType bytes) :=
    within_safe.bind fun _ hlong => (readInt32BE_safe (by decide) hlong).mono fun _ _ => trivial
  simp only [validateFeeBumpTransaction, getEnvelopeType, parseFeeBumpTransactionEnvelope,
    decodeBase64_encode]
  cases hfound : readEnvelopeType bytes with
  | error stop =>
    rw [hfound] at htype
    obtain rfl : stop = .null := htype
    trivial
  | ok envType =>
    dsimp only
    split
    · trivial
    · exact checkParsed_meets (parseFeeBumpEnvelope_safe hlen hlens)

/-- The four bytes of a number below 256. -/
def int32 (n : UInt8) : List UInt8 := [0, 0, 0, n]

/-- A key, and the type before it. -/
def account (key : UInt8) : List UInt8 := int32 0 ++ List.replicate 32 key

/-- A transaction without time bounds, memo or operations. -/
def emptyTransaction (source : UInt8) : List UInt8 := account source ++ List.replicate 28 0

/-- An array of one signature of two bytes, with its length as given. -/
def oneSignature (length : List UInt8) : List UInt8 := int32 1 ++ [1, 2, 3, 4] ++ length ++ [5, 6]

/-- A fee bump by one account, around `inner`. -/
def feeBumpOf (feeSource : UInt8) (inner : List UInt8) : List UInt8 :=
  account feeSource ++ List.replicate 7 0 ++ [100] ++ inner

/-- An envelope as it is meant to be: a sponsor for another account. -/
def sponsored : List UInt8 :=
  int32 4 ++ feeBumpOf 7 (int32 1 ++ emptyTransaction 9) ++ oneSignature (int32 2) ++
    oneSignature (int32 2)

/-- The same with an inner signature of length -200: the outer count is read at -72. -/
def backwards : List UInt8 :=
  int32 4 ++ feeBumpOf 7 (int32 1 ++ emptyTransaction 9) ++
    oneSignature [0xff, 0xff, 0xff, 0x38] ++ oneSignature (int32 2)

/-- The key of the fee source. -/
def feeSourceKey (buf : Buffer) : List UInt8 := subarray buf 8 32

/-- The source key of a transaction. -/
def sourceKey (buf : Buffer) (tx : Int) : List UInt8 := subarray buf (tx + 4) 32

/-- The source an inner envelope is parsed with: only a transaction's is
looked up. -/
theorem readInner_source {innerType offset : Int} {inner : Inner}
    (h : readInner buf innerType offset = .ok inner) :
    (innerType = envelopeTypeTx ∧ inner.source = toHex buf (offset + 4) 32) ∨
      (innerType = envelopeTypeFeeBump ∧ inner.source = "") := by
  unfold readInner at h
  split at h
  next htype =>
    simp only [bind_eq_ok] at h
    obtain ⟨-, -, innerEnd, -, hinner⟩ := h
    cases hinner
    exact .inl ⟨htype, rfl⟩
  · split at h
    next htype =>
      simp only [bind_eq_ok] at h
      obtain ⟨skipped, -, hinner⟩ := h
      cases hinner
      exact .inr ⟨htype, rfl⟩
    · cases h

theorem parse_sources {details : FeeBumpDetails}
    (h : parseFeeBumpEnvelope buf = .ok details) :
    details.feeSource = toHex buf 8 32 ∧
      ((readInt32BE buf 48 = .ok envelopeTypeTx ∧ details.innerSource = toHex buf (52 + 4) 32) ∨
        (readInt32BE buf 48 = .ok envelopeTypeFeeBump ∧ details.innerSource = "")) := by
  simp only [parseFeeBumpEnvelope, bind_eq_ok] at h
  obtain ⟨-, hlong, envType, -, -, -, feeSourceType, -, -, -, fee, -, innerType, htype, inner,
    hinner, innerSigCount, -, offset, -, outerSigCount, -, hdetails⟩ := h
  cases hdetails
  refine ⟨rfl, ?_⟩
  rcases readInner_source hinner with ⟨rfl, hsource⟩ | ⟨rfl, hsource⟩
  · exact .inl ⟨htype, hsource⟩
  · exact .inr ⟨htype, hsource⟩

/-- What an accepted fee bump was parsed to. -/
theorem accepted_details {bytes : List UInt8}
    (hfeeBump : isFeeBumpEnvelope (Base64.encode bytes) = true)
    (haccepted : validateFeeBumpTransaction (Base64.encode bytes) = .ok ()) :
    ∃ details, parseFeeBumpEnvelope bytes = .ok details ∧
      details.feeSource ≠ details.innerSource := by
  rw [validate_feeBump (isFeeBumpEnvelope_iff.mp hfeeBump)] at haccepted
  cases hparsed : parseFeeBumpEnvelope bytes with
  | error stop =>
    rw [hparsed] at haccepted
    cases stop with
    | null | rangeError => exact absurd haccepted (by simp [checkParsed])
  | ok details =>
    rw [hparsed, checkParsed] at haccepted
    have hchecked := checkDetails_meets details
    rw [haccepted] at hchecked
    exact ⟨details, rfl, hchecked⟩

theorem isNestedFeeBump_eq_true {bytes : List UInt8}
    (hfeeBump : isFeeBumpEnvelope (Base64.encode bytes) = true)
    (hinner : readInt32BE bytes 48 = .ok envelopeTypeFeeBump) :
    isNestedFeeBump (Base64.encode bytes) = true := by
  have hlong : 52 ≤ bytes.length := by
    rw [readInt32BE, readIntBE] at hinner
    split at hinner
    · omega
    · cases hinner
  rw [isFeeBumpEnvelope_iff, readEnvelopeType, bind_eq_ok] at hfeeBump
  obtain ⟨-, -, htype⟩ := hfeeBump
  have hshort : ¬ bytes.length < 4 := by omega
  simp [isNestedFeeBump, hshort, htype, hinner, hlong]

/-- A fee bump by an account, around one by another, around a transaction
of the first. -/
def selfSponsored : List UInt8 :=
  int32 4 ++ feeBumpOf 7 (int32 4 ++ feeBumpOf 8 (int32 1 ++ emptyTransaction 7)) ++
    oneSignature (int32 2) ++ oneSignature (int32 2)

end ChronoPay.FeeBump
