import Mathlib.Data.Rat.Encodable
import ChronoPay.CheckoutSessions
import ChronoPay.Lib.HashChain
import ChronoPay.Lib.IsoDate
import ChronoPay.Lib.TextPieces

/-!
# CancellationReversal — the ledger of prorated cancellations

`CancellationReversalService.appendEntry` over the in-memory repository.
Every `await` is a suspension point: the lookups of the session's
currency and of the net refund, the release hook, and each call of the
repository, whose own bodies run without one. So an append takes up to
nine segments, and what it read in one may be out of date in the next.

Every payment has a hash chain of its own. SHA-256 and the text of a
number are parameters; the clock, the ids and the answers of the hook
and of the session lookup come with the segment that reads them. Which
append CALLED the release hook is kept in its result, next to its
answer, and whether the answer is an entry of its own or one it found.
The audit record behind a successful insert is left out.
-/

namespace ChronoPay

open Function IsoDate List Option

structure CancellationReversalEntry where
  id : String
  bookingIntentId : String
  paymentId : String
  originalRefundId : Option String
  amountCents : ℚ
  currency : SupportedCurrency
  escrowReleased : Bool
  escrowReleasedAmountCents : ℚ
  escrowReleaseTxId : Option String
  reason : String
  idempotencyKey : String
  policyVersionId : String
  actor : String
  metadata : Option Metadata
  entryHash : String
  prevHash : String
  createdAt : Int

structure InsertCancellationReversalInput where
  bookingIntentId : String
  paymentId : String
  originalRefundId : Option String := none
  amountCents : ℚ
  currency : SupportedCurrency
  escrowReleased : Bool := false
  escrowReleasedAmountCents : ℚ := 0
  escrowReleaseTxId : Option String := none
  reason : String := "prorated_cancellation"
  idempotencyKey : String
  policyVersionId : String
  actor : String
  metadata : Option Metadata := none

structure ReversalVerificationResult where
  valid : Bool
  entriesChecked : Nat
  firstBrokenIndex : Option Nat := none
  error : Option String := none
  deriving DecidableEq

inductive ReversalError where
  | tenantPaused (tenantId : String)
  | sessionNotFound (paymentId : String)
  | currencyMismatch (paymentId : String) (expected provided : SupportedCurrency)
  | invalidAmount
  | invalidEscrowAmount
  | netRefundNotRegistered (bookingIntentId : String) (currency : SupportedCurrency)
  | invariantViolation (bookingIntentId : String) (currency : SupportedCurrency)
      (sumReversalCents expectedNegationOfNetRefund : ℚ)
  | idempotencyConflict (key : String)
  | entryHashCollision (entryHash : String)
  /-- The RangeError of `toISOString`. -/
  | invalidTime
  /-- What a lookup or the hook rejected with. -/
  | threw (thrown : String)
  deriving DecidableEq

namespace ReversalError

/-- The code and the HTTP status of those that are a `CheckoutError`. -/
def codeAndStatus : ReversalError → Option (String × Nat)
  | sessionNotFound _ => some ("SESSION_NOT_FOUND", 404)
  | currencyMismatch .. => some ("INVALID_CURRENCY", 422)
  | invalidAmount | invalidEscrowAmount => some ("INVALID_AMOUNT", 400)
  | netRefundNotRegistered .. => some ("REVERSAL_NET_REFUND_NOT_REGISTERED", 422)
  | invariantViolation .. => some ("REVERSAL_INVARIANT_VIOLATION", 409)
  | tenantPaused _ | idempotencyConflict _ | entryHashCollision _ | invalidTime | threw _ => none

/-- The texts, by the text of a number. -/
def message (number : ℚ → String) : ReversalError → String
  | tenantPaused tenantId => s!"Tenant {tenantId} is paused"
  | sessionNotFound paymentId => s!"Cannot record reversal: checkout session {paymentId} not found"
  | currencyMismatch paymentId expected provided =>
    s!"Currency mismatch for payment {paymentId}: ledger requires " ++ expected.text ++
      ", entry used " ++ provided.text
  | invalidAmount => "reversal amountCents must be a non-zero integer"
  | invalidEscrowAmount => "escrowReleasedAmountCents must be >= 0"
  | netRefundNotRegistered bookingIntentId currency =>
    "Cancel-reversal invariant check cannot proceed: netRefund for booking " ++
      bookingIntentId ++ " (" ++ currency.text ++ ") is not registered"
  | invariantViolation bookingIntentId currency sumReversalCents expected =>
    s!"Reversal invariant violation for booking {bookingIntentId} (" ++ currency.text ++
      "): sum=" ++ number sumReversalCents ++ ", expected=" ++ number expected
  | idempotencyConflict key => s!"idempotency_key conflict for reversal entry: {key}"
  | entryHashCollision entryHash => s!"Reversal entry hash collision: {entryHash}"
  | invalidTime => "Invalid time value"
  | threw thrown => thrown

end ReversalError

/-! ## The repository -/

/-- `InMemoryCancellationReversalRepository`: a `Map` in insertion order
and two indexes of ids. -/
structure ReversalRepository where
  byId : List CancellationReversalEntry := []
  byPayment : String → List String := fun _ => []
  byBooking : String → List String := fun _ => []

namespace ReversalRepository

/-- `Map.set`: in place for an id that is there, at the end for a new one. -/
def set (byId : List CancellationReversalEntry) (entry : CancellationReversalEntry) :
    List CancellationReversalEntry :=
  if (KeyedList.get CancellationReversalEntry.id entry.id byId).isSome then
    KeyedList.modify CancellationReversalEntry.id entry.id (fun _ => entry) byId
  else byId ++ [entry]

def appendIntoIndex (index : String → List String) (key id : String) : String → List String :=
  update index key (index key ++ [id])

def store (repo : ReversalRepository) (entry : CancellationReversalEntry) : ReversalRepository where
  byId := set repo.byId entry
  byPayment := appendIntoIndex repo.byPayment entry.paymentId entry.id
  byBooking := appendIntoIndex repo.byBooking entry.bookingIntentId entry.id

/-- The first stored entry with the key or the hash decides. -/
def insert (repo : ReversalRepository) (entry : CancellationReversalEntry) :
    Except ReversalError ReversalRepository :=
  match repo.byId.find? fun e =>
      e.idempotencyKey = entry.idempotencyKey || e.entryHash = entry.entryHash with
  | some e =>
    if e.idempotencyKey = entry.idempotencyKey then
      .error (.idempotencyConflict entry.idempotencyKey)
    else .error (.entryHashCollision entry.entryHash)
  | none => .ok (repo.store entry)

def findByIdempotencyKey (repo : ReversalRepository) (key : String) :
    Option CancellationReversalEntry :=
  KeyedList.get CancellationReversalEntry.idempotencyKey key repo.byId

def findByIds (repo : ReversalRepository) (ids : List String) : List CancellationReversalEntry :=
  ids.filterMap fun id => KeyedList.get CancellationReversalEntry.id id repo.byId

def findByPaymentId (repo : ReversalRepository) (paymentId : String) :
    List CancellationReversalEntry :=
  repo.findByIds (repo.byPayment paymentId)

def findByBookingIntentId (repo : ReversalRepository) (bookingIntentId : String) :
    List CancellationReversalEntry :=
  repo.findByIds (repo.byBooking bookingIntentId)

/-- The entries of a booking in a currency. -/
def booked (repo : ReversalRepository) (bookingIntentId : String)
    (currency : SupportedCurrency) : List CancellationReversalEntry :=
  (repo.findByBookingIntentId bookingIntentId).filter fun entry => entry.currency = currency

def sumReversalCents (repo : ReversalRepository) (bookingIntentId : String)
    (currency : SupportedCurrency) : ℚ :=
  ((repo.booked bookingIntentId currency).map CancellationReversalEntry.amountCents).sum

end ReversalRepository

namespace CancellationReversal

/-- What the service is built with. -/
structure Deps where
  sha256 : String → String
  /-- `String(n)` of a number. -/
  number : ℚ → String
  netRefundLookup : Option (String → SupportedCurrency → Option ℚ)

/-! ## The hash chain -/

/-- Pipes become U+0000. -/
def sanitise (value : String) : String := value.map fun c => if c = '|' then Char.ofNat 0 else c

def canonicalisePayload (number : ℚ → String) (entry : CancellationReversalEntry)
    (createdAtIso : String) : String :=
  "|".intercalate
    [sanitise entry.bookingIntentId,
     sanitise entry.paymentId,
     sanitise (entry.originalRefundId.getD ""),
     number entry.amountCents,
     sanitise entry.currency.text,
     if entry.escrowReleased then "1" else "0",
     number entry.escrowReleasedAmountCents,
     sanitise (entry.escrowReleaseTxId.getD ""),
     sanitise entry.reason,
     sanitise entry.policyVersionId,
     sanitise entry.actor,
     sanitise entry.idempotencyKey,
     sanitise entry.prevHash,
     createdAtIso]

/-- `deriveReversalEntryHash`; `none` is the RangeError of `toISOString`.
The entry's own hash is not read. -/
def deriveReversalEntryHash (deps : Deps) (entry : CancellationReversalEntry) : Option String :=
  (toISOString entry.createdAt).map fun iso =>
    deps.sha256 (canonicalisePayload deps.number entry iso)

/-- What the verifier reads of an entry. -/
def reversalChain (deps : Deps) : HashChain.Scheme CancellationReversalEntry String where
  genesis := ""
  prev := CancellationReversalEntry.prevHash
  hash := CancellationReversalEntry.entryHash
  digest := deriveReversalEntryHash deps

/-- `verifyChain`; `none` is the RangeError of `toISOString`. -/
def verifyChain (deps : Deps) (entries : List CancellationReversalEntry) :
    Option ReversalVerificationResult :=
  match HashChain.walk (reversalChain deps) entries with
  | .intact => some { valid := true, entriesChecked := entries.length }
  | .badGenesis genesis => some
      { valid := false, entriesChecked := 1, firstBrokenIndex := some 0
        error := some ("Genesis row has non-empty prevHash: \"" ++ genesis.prevHash ++ "\"") }
  | .badHash i entry recomputed => some
      { valid := false, entriesChecked := i + 1, firstBrokenIndex := some i
        error := some (s!"Row {i} entry_hash mismatch. Expected {recomputed}, stored " ++
          entry.entryHash) }
  | .badLink i entry before => some
      { valid := false, entriesChecked := i + 1, firstBrokenIndex := some i
        error := some (s!"Row {i} prevHash \"" ++ entry.prevHash ++
          "\" does not match predecessor hash \"" ++ before ++ "\"") }
  | .failedAt _ => none

def verifyChainForPayment (deps : Deps) (repo : ReversalRepository) (paymentId : String) :
    Option ReversalVerificationResult :=
  verifyChain deps (repo.findByPaymentId paymentId)

/-! ## Append -/

/-- A tenant id in the metadata that is a string and not empty. -/
def tenantIdFor (input : InsertCancellationReversalInput) : String :=
  match input.metadata.bind fun metadata => metadata "tenantId" with
  | some (.str tenantId) => tenantId
  | _ => ""

open Result in
/-- The guards behind the session's currency. -/
def inputGuards (sessionCurrency : Option SupportedCurrency)
    (input : InsertCancellationReversalInput) : Except ReversalError Unit :=
  match sessionCurrency with
  | none => .error (.sessionNotFound input.paymentId)
  | some expected => do
    require (expected = input.currency)
      (.currencyMismatch input.paymentId expected input.currency)
    require (input.amountCents.isInt = true ∧ input.amountCents ≠ 0) .invalidAmount
    require (0 ≤ input.escrowReleasedAmountCents) .invalidEscrowAmount

/-- The hash at the end of a chain. -/
def tipOf (chainForPayment : List CancellationReversalEntry) : String :=
  (chainForPayment.getLast?.map CancellationReversalEntry.entryHash).getD ""

/-- The entry of an append, with its hash; `none` when `Date` cannot
render the creation time. -/
def buildEntry (deps : Deps) (id : String) (createdAt : Int)
    (input : InsertCancellationReversalInput) (prevHash : String)
    (escrowReleaseTxId : Option String) : Option CancellationReversalEntry :=
  let shell : CancellationReversalEntry :=
    { id
      bookingIntentId := input.bookingIntentId
      paymentId := input.paymentId
      originalRefundId := input.originalRefundId
      amountCents := input.amountCents
      currency := input.currency
      escrowReleased := input.escrowReleased
      escrowReleasedAmountCents := input.escrowReleasedAmountCents
      escrowReleaseTxId
      reason := input.reason
      idempotencyKey := input.idempotencyKey
      policyVersionId := input.policyVersionId
      actor := input.actor
      metadata := input.metadata
      entryHash := ""
      prevHash
      createdAt }
  (deriveReversalEntryHash deps shell).map fun entryHash => { shell with entryHash }

/-- What a segment gets from outside. -/
structure Env where
  isTenantPaused : String → Bool := fun _ => false
  /-- What `getCurrency` resolved to, or the message it rejected with. -/
  currency : Except String (Option SupportedCurrency) := .ok none
  /-- The transaction of the release hook, or the message it rejected with. -/
  releaseEscrow : Except String String := .error ""
  now : Int := 0
  randomUUID : String := ""
  /-- The message `getNetRefund` rejected with, if it did. -/
  netRefundThrew : Option String := none

/-- The entry an append returns: its own, or one with its key. -/
inductive Appended where
  | persisted (entry : CancellationReversalEntry)
  | existing (entry : CancellationReversalEntry)

structure Outcome where
  /-- The transaction the release hook returned to this call. -/
  released : Option String
  answer : Except ReversalError Appended

inductive Pc where
  | start (input : InsertCancellationReversalInput)
  /-- At `await getCurrency`. -/
  | currency (input : InsertCancellationReversalInput)
  /-- At `await findByIdempotencyKey`. -/
  | searched (input : InsertCancellationReversalInput)
      (existing : Option CancellationReversalEntry)
  /-- At `await findByPaymentId`. -/
  | tipped (input : InsertCancellationReversalInput) (prevHash : String)
  /-- At `await releaseEscrow`. -/
  | releasing (input : InsertCancellationReversalInput) (prevHash : String)
  /-- At `await findByBookingIntentId`. -/
  | summed (released : Option String) (entry : CancellationReversalEntry) (existingSum : ℚ)
  /-- At `await getNetRefund`. -/
  | netted (released : Option String) (entry : CancellationReversalEntry) (projectedSum : ℚ)
      (netRefund : Option ℚ)
  /-- At `await assertPreWriteInvariant`, which returned. -/
  | certified (released : Option String) (entry : CancellationReversalEntry)
  /-- At `await insert`, which threw the conflict. -/
  | conflicted (released : Option String) (entry : CancellationReversalEntry)
  /-- At the second `await findByIdempotencyKey`. -/
  | reread (released : Option String) (entry : CancellationReversalEntry)
      (winner : Option CancellationReversalEntry)

abbrev Segment : Type := ReversalRepository × Coop.Task Pc Outcome

/-- From the resolved transaction to the sum of the booking's entries. -/
def buildAndSum (deps : Deps) (e : Env) (released : Option String)
    (input : InsertCancellationReversalInput) (prevHash : String)
    (escrowReleaseTxId : Option String) (repo : ReversalRepository) : Segment :=
  match buildEntry deps e.randomUUID e.now input prevHash escrowReleaseTxId with
  | none => (repo, .done ⟨released, .error .invalidTime⟩)
  | some entry =>
    (repo, .waiting (.summed released entry
      (repo.sumReversalCents input.bookingIntentId input.currency)))

/-- The verdict of the invariant check. -/
def preWriteInvariant (entry : CancellationReversalEntry) (projectedSum : ℚ)
    (netRefund : Option ℚ) : Except ReversalError Unit :=
  match netRefund with
  | none => .error (.netRefundNotRegistered entry.bookingIntentId entry.currency)
  | some netRefund =>
    Result.require (projectedSum = -netRefund)
      (.invariantViolation entry.bookingIntentId entry.currency projectedSum (-netRefund))

/-- `appendEntry` from one suspension to the next. -/
def resume (deps : Deps) (e : Env) : Pc → ReversalRepository → Segment
  | .start input, repo =>
    let tenantId := tenantIdFor input
    if tenantId ≠ "" ∧ e.isTenantPaused tenantId = true then
      (repo, .done ⟨none, .error (.tenantPaused tenantId)⟩)
    else (repo, .waiting (.currency input))
  | .currency input, repo =>
    match e.currency with
    | .error thrown => (repo, .done ⟨none, .error (.threw thrown)⟩)
    | .ok sessionCurrency =>
      match inputGuards sessionCurrency input with
      | .error err => (repo, .done ⟨none, .error err⟩)
      | .ok () =>
        (repo, .waiting (.searched input (repo.findByIdempotencyKey input.idempotencyKey)))
  | .searched input existing, repo =>
    match existing with
    | some entry => (repo, .done ⟨none, .ok (.existing entry)⟩)
    | none => (repo, .waiting (.tipped input (tipOf (repo.findByPaymentId input.paymentId))))
  | .tipped input prevHash, repo =>
    if input.escrowReleased then
      match input.escrowReleaseTxId with
      | some txId => buildAndSum deps e none input prevHash (some txId) repo
      | none => (repo, .waiting (.releasing input prevHash))
    else buildAndSum deps e none input prevHash none repo
  | .releasing input prevHash, repo =>
    match e.releaseEscrow with
    | .error thrown => (repo, .done ⟨none, .error (.threw thrown)⟩)
    | .ok txId => buildAndSum deps e (some txId) input prevHash (some txId) repo
  | .summed released entry existingSum, repo =>
    match deps.netRefundLookup with
    | none => (repo, .waiting (.certified released entry))
    | some getNetRefund =>
      (repo, .waiting (.netted released entry (existingSum + entry.amountCents)
        (getNetRefund entry.bookingIntentId entry.currency)))
  | .netted released entry projectedSum netRefund, repo =>
    match e.netRefundThrew with
    | some thrown => (repo, .done ⟨released, .error (.threw thrown)⟩)
    | none =>
      match preWriteInvariant entry projectedSum netRefund with
      | .error err => (repo, .done ⟨released, .error err⟩)
      | .ok () => (repo, .waiting (.certified released entry))
  | .certified released entry, repo =>
    match repo.insert entry with
    | .ok repo' => (repo', .done ⟨released, .ok (.persisted entry)⟩)
    | .error (.idempotencyConflict _) => (repo, .waiting (.conflicted released entry))
    | .error err => (repo, .done ⟨released, .error err⟩)
  | .conflicted released entry, repo =>
    (repo, .waiting (.reread released entry (repo.findByIdempotencyKey entry.idempotencyKey)))
  | .reread released entry winner, repo =>
    match winner with
    | some winner => (repo, .done ⟨released, .ok (.existing winner)⟩)
    | none => (repo, .done ⟨released, .error (.idempotencyConflict entry.idempotencyKey)⟩)

def service (deps : Deps) :
    Coop.Program InsertCancellationReversalInput Env ReversalRepository Pc Outcome where
  start := .start
  resume := resume deps

abbrev State := Coop.Sys InsertCancellationReversalInput ReversalRepository Pc Outcome

abbrev Cmd := Coop.Cmd InsertCancellationReversalInput Env

def opened : State := { shared := {} }

/-! ## What a payload determines -/

theorem pipe_not_mem_sanitise (value : String) : '|' ∉ (sanitise value).toList := by
  simp only [sanitise, String.toList_map, List.mem_map, not_exists, not_and]
  intro c _
  split
  · decide
  · assumption

theorem pipe_not_mem_toISOString {x : ℚ} {text : String} (h : toISOString x = some text) :
    '|' ∉ text.toList := by
  obtain ⟨t, -, rfl⟩ := map_eq_some_iff.mp h
  have hdigits : ∀ a < 10, '|' ≠ Char.ofNat (48 + a) := by decide
  have hdigit : ∀ n, '|' ≠ IsoDate.digit n := fun n => hdigits (n % 10).toNat (by omega)
  simp only [isoText, String.toList_ofList, yearText, restText]
  split_ifs <;> simp [pad2, pad3, pad4, pad6, hdigit]

/-- Only U+0000 makes two texts one. -/
theorem sanitise_inj {a b : String} (ha : Char.ofNat 0 ∉ a.toList) (hb : Char.ofNat 0 ∉ b.toList)
    (h : sanitise a = sanitise b) : a = b := by
  have hback : ∀ text : String, Char.ofNat 0 ∉ text.toList →
      (sanitise text).toList.map (fun c => if c = Char.ofNat 0 then '|' else c) = text.toList := by
    intro text htext
    rw [sanitise, String.toList_map, List.map_map]
    refine (map_congr_left fun c hc => ?_).trans (List.map_id _)
    have hne : c ≠ Char.ofNat 0 := fun heq => htext (heq ▸ hc)
    by_cases hpipe : c = '|' <;> simp [hpipe, hne]
  rw [← String.toList_inj, ← hback a ha, ← hback b hb, h]

/-- No text that is hashed has a U+0000, and none that may be absent is
empty. -/
structure Plain (entry : CancellationReversalEntry) : Prop where
  texts : ∀ text ∈ [entry.bookingIntentId, entry.paymentId, entry.originalRefundId.getD "",
    entry.escrowReleaseTxId.getD "", entry.reason, entry.policyVersionId, entry.actor,
    entry.idempotencyKey, entry.prevHash], Char.ofNat 0 ∉ text.toList
  originalRefundId : entry.originalRefundId ≠ some ""
  escrowReleaseTxId : entry.escrowReleaseTxId ≠ some ""

theorem getD_inj {a b : Option String} (ha : a ≠ some "") (hb : b ≠ some "")
    (h : a.getD "" = b.getD "") : a = b := by
  cases a <;> cases b <;> simp_all

def reversalBy (id actor : String) : CancellationReversalEntry :=
  { id, actor, bookingIntentId := "b-1", paymentId := "p-1", originalRefundId := none
    amountCents := -500, currency := .usd, escrowReleased := false
    escrowReleasedAmountCents := 0, escrowReleaseTxId := none, reason := "prorated_cancellation"
    idempotencyKey := "k-1", policyVersionId := "v1", metadata := none, entryHash := ""
    prevHash := "", createdAt := 0 }

/-- A text for each number. -/
def unary (x : ℚ) : String := String.ofList (List.replicate (Encodable.encode x) 'x')

end CancellationReversal

end ChronoPay
