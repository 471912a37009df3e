import Mathlib.Data.List.Sort
import ChronoPay.CancellationReversal

/-!
# PgReversals — the reversal ledger on Postgres

`appendEntry` hashes the time that the SERVICE's clock reads. The
`INSERT` does not list `created_at`: the column takes the database's
clock, in microseconds, and it is that time the verifier hashes, and the
rows are ordered by. So a chain verifies while the two clocks agree to
the millisecond and the database's only moves forward, and the id
columns return what was written (`uuid` is the text a UUID column makes
of a text).

The calls do not overlap. What else the database can refuse a row for
(a foreign key, a check, a text it cannot store) comes with the call.
-/

namespace ChronoPay

open HashChain KeyedList List

namespace CancellationReversal.Pg

structure Row where
  id : String
  /-- The columns the INSERT lists, but for `prev_hash`. -/
  columns : CancellationReversalEntry
  prevHash : Option String
  /-- In microseconds. -/
  createdAt : Int

abbrev Table := List Row

/-- A call, with what it meets. -/
structure Call where
  input : InsertCancellationReversalInput
  env : Env := {}
  /-- `NOW()` of the INSERT. -/
  dbNow : Int
  /-- `gen_random_uuid()` of the INSERT. -/
  rowId : String
  dbError : Option String := none

/-- `mapRow`; a `Date` has milliseconds. -/
def mapRow (row : Row) : CancellationReversalEntry :=
  { row.columns with
    id := row.id
    prevHash := row.prevHash.getD ""
    createdAt := row.createdAt / 1000 }

section

variable (uuid : String → String)

/-- The row the INSERT makes of an entry. -/
def rowOf (call : Call) (entry : CancellationReversalEntry) : Row where
  id := call.rowId
  columns :=
    { entry with
      bookingIntentId := uuid entry.bookingIntentId
      paymentId := uuid entry.paymentId
      originalRefundId := entry.originalRefundId.map uuid }
  prevHash := if entry.prevHash = "" then none else some entry.prevHash
  createdAt := call.dbNow

def insert (call : Call) (entry : CancellationReversalEntry) (table : Table) :
    Except ReversalError Table := do
  if let some thrown := call.dbError then throw (.threw thrown)
  Result.require (¬ table.any (·.columns.idempotencyKey = entry.idempotencyKey))
    (.idempotencyConflict entry.idempotencyKey)
  Result.require (¬ table.any (·.columns.entryHash = entry.entryHash))
    (.entryHashCollision entry.entryHash)
  Result.require (¬ (entry.prevHash = "" ∧ table.any (·.prevHash = none)))
    (.threw "duplicate key value violates unique constraint \"idx_cancellation_reversal_genesis\"")
  return table ++ [rowOf uuid call entry]

/-- `ORDER BY created_at ASC, id ASC`. -/
def ordered (table : Table) : Table :=
  table.insertionSort fun a b =>
    a.createdAt < b.createdAt ∨ a.createdAt = b.createdAt ∧ a.id ≤ b.id

def findByIdempotencyKey (key : String) (table : Table) : Option CancellationReversalEntry :=
  (table.find? (·.columns.idempotencyKey = key)).map mapRow

def findByPaymentId (paymentId : String) (table : Table) : List CancellationReversalEntry :=
  (ordered (table.filter (·.columns.paymentId = uuid paymentId))).map mapRow

def findByBookingIntentId (bookingIntentId : String) (table : Table) :
    List CancellationReversalEntry :=
  (ordered (table.filter (·.columns.bookingIntentId = uuid bookingIntentId))).map mapRow

end

section

variable (deps : Deps) (uuid : String → String)

/-- `assertPreWriteInvariant`. -/
def assertPreWriteInvariant (call : Call) (entry : CancellationReversalEntry) (table : Table) :
    Except ReversalError Unit :=
  match deps.netRefundLookup, call.env.netRefundThrew with
  | none, _ => .ok ()
  | some _, some thrown => .error (.threw thrown)
  | some getNetRefund, none =>
    let booked := (findByBookingIntentId uuid entry.bookingIntentId table).filter
      fun other => other.currency = entry.currency
    preWriteInvariant entry
      ((booked.map CancellationReversalEntry.amountCents).sum + entry.amountCents)
      (getNetRefund entry.bookingIntentId entry.currency)

def resolveTxId (call : Call) : Except ReversalError (Option String) :=
  if call.input.escrowReleased then
    match call.input.escrowReleaseTxId with
    | some txId => .ok (some txId)
    | none => (call.env.releaseEscrow.mapError .threw).map some
  else .ok none

/-- `appendEntry` up to the write: an entry with the key, or a new one. -/
def prepare (call : Call) (table : Table) : Except ReversalError Appended := do
  let tenantId := tenantIdFor call.input
  Result.require (¬ (tenantId ≠ "" ∧ call.env.isTenantPaused tenantId = true))
    (.tenantPaused tenantId)
  let sessionCurrency ← call.env.currency.mapError .threw
  inputGuards sessionCurrency call.input
  match findByIdempotencyKey call.input.idempotencyKey table with
  | some existing => return .existing existing
  | none =>
    let prevHash := tipOf (findByPaymentId uuid call.input.paymentId table)
    let escrowReleaseTxId ← resolveTxId call
    match buildEntry deps call.env.randomUUID call.env.now call.input prevHash
        escrowReleaseTxId with
    | none => throw .invalidTime
    | some entry =>
      assertPreWriteInvariant deps uuid call entry table
      return .persisted entry

def appendEntry (call : Call) (table : Table) : Table × Except ReversalError Appended :=
  match prepare deps uuid call table with
  | .ok (.persisted entry) =>
    match insert uuid call entry table with
    | .ok table' => (table', .ok (.persisted (mapRow (rowOf uuid call entry))))
    | .error (.idempotencyConflict key) =>
      match findByIdempotencyKey key table with
      | some winner => (table, .ok (.existing winner))
      | none => (table, .error (.idempotencyConflict key))
    | .error err => (table, .error err)
  | answer => (table, answer)

/-- The table after some calls, one after the other. -/
def appended (calls : List Call) (table : Table) : Table :=
  Machine.run (fun table call => (appendEntry deps uuid call table).1) table calls

def verifyChainForPayment (paymentId : String) (table : Table) :
    Option ReversalVerificationResult :=
  verifyChain deps (findByPaymentId uuid paymentId table)

end

variable {deps : Deps} {uuid : String → String} {call : Call} {table : Table}
  {entry : CancellationReversalEntry} {paymentId : String}

/-! ## One append -/

/-- An append changes nothing, or adds the row of an entry that was built
on the tip of the payment's chain. -/
theorem appendEntry_table (deps : Deps) (uuid : String → String) (call : Call) (table : Table) :
    (appendEntry deps uuid call table).1 = table ∨
    ∃ entry txId, (appendEntry deps uuid call table).1 = table ++ [rowOf uuid call entry] ∧
      buildEntry deps call.env.randomUUID call.env.now call.input
        (tipOf (findByPaymentId uuid call.input.paymentId table)) txId = some entry := by
  unfold appendEntry
  split
  next entry hprepare =>
    split
    next table' hinsert =>
      refine .inr ⟨entry, ?_⟩
      have htable : table' = table ++ [rowOf uuid call entry] := by
        unfold insert at hinsert
        cases hdb : call.dbError with
        | some thrown =>
          simp [hdb, throw, throwThe, MonadExceptOf.throw, bind, Except.bind] at hinsert
        | none =>
          simp only [hdb, Result.bind_eq_ok] at hinsert
          obtain ⟨_, -, _, -, _, -, hinsert⟩ := hinsert
          exact (Except.ok.inj hinsert).symm
      simp only [prepare, Result.bind_eq_ok] at hprepare
      obtain ⟨_, -, _, -, _, -, hprepare⟩ := hprepare
      split at hprepare
      · cases hprepare
      · obtain ⟨txId, -, hprepare⟩ := Result.bind_eq_ok.mp hprepare
        split at hprepare
        · cases hprepare
        next built hbuilt =>
          obtain ⟨_, -, hprepare⟩ := Result.bind_eq_ok.mp hprepare
          cases hprepare
          exact ⟨txId, htable, hbuilt⟩
    · split <;> exact .inl rfl
    · exact .inl rfl
  · exact .inl rfl

/-- The id columns of the call return what was written. -/
structure Canonical (uuid : String → String) (call : Call) : Prop where
  bookingIntentId : uuid call.input.bookingIntentId = call.input.bookingIntentId
  paymentId : uuid call.input.paymentId = call.input.paymentId
  originalRefundId : call.input.originalRefundId.map uuid = call.input.originalRefundId

/-- What was built is read back, under the row's id, if the clocks agree. -/
theorem mapRow_rowOf {id prevHash : String} {txId : Option String}
    (hbuilt : buildEntry deps id call.env.now call.input prevHash txId = some entry)
    (hcanonical : Canonical uuid call) (hclock : call.env.now = call.dbNow / 1000) :
    mapRow (rowOf uuid call entry) = { entry with id := call.rowId } ∧
      entry.prevHash = prevHash ∧ deriveReversalEntryHash deps entry = some entry.entryHash := by
  obtain ⟨entryHash, hhash, rfl⟩ := Option.map_eq_some_iff.mp hbuilt
  refine ⟨?_, rfl, hhash⟩
  have hprev : (if prevHash = "" then none else some prevHash).getD "" = prevHash := by
    split_ifs with hempty
    · exact hempty.symm
    · rfl
  simp only [mapRow, rowOf, hcanonical.bookingIntentId, hcanonical.paymentId,
    hcanonical.originalRefundId, hprev, hclock]

/-! ## A run -/

/-- Rows in the order they were written, which form a chain. -/
structure Chained (deps : Deps) (paymentId : String) (table : Table) : Prop where
  payment : ∀ row ∈ table, row.columns.paymentId = paymentId
  sorted : table.Pairwise (·.createdAt < ·.createdAt)
  linked : Linked (reversalChain deps) "" (table.map mapRow)

theorem Chained.findByPaymentId (h : Chained deps paymentId table)
    (hid : uuid paymentId = paymentId) :
    findByPaymentId uuid paymentId table = table.map mapRow := by
  have hall : table.filter (fun row => row.columns.paymentId = uuid paymentId) = table := by
    rw [filter_eq_self]
    intro row hrow
    simp [h.payment row hrow, hid]
  rw [Pg.findByPaymentId, hall, ordered, List.Pairwise.insertionSort_eq]
  exact h.sorted.imp fun hlt => .inl hlt

theorem Chained.append (h : Chained deps paymentId table)
    (hpayment : call.input.paymentId = paymentId) (hcanonical : Canonical uuid call)
    (hclock : call.env.now = call.dbNow / 1000)
    (hlater : ∀ row ∈ table, row.createdAt < call.dbNow) :
    Chained deps paymentId (appendEntry deps uuid call table).1 := by
  rcases appendEntry_table deps uuid call table with hsame | ⟨entry, txId, htable, hbuilt⟩
  · rwa [hsame]
  · obtain ⟨hread, hprev, hhash⟩ := mapRow_rowOf hbuilt hcanonical hclock
    have hid : uuid paymentId = paymentId := hpayment ▸ hcanonical.paymentId
    rw [htable]
    refine ⟨?_, ?_, ?_⟩
    · refine forall_mem_concat h.payment ?_
      have hcolumn := congrArg CancellationReversalEntry.paymentId hread
      obtain ⟨entryHash, -, rfl⟩ := Option.map_eq_some_iff.mp hbuilt
      exact hcolumn.trans hpayment
    · rw [pairwise_append]
      refine ⟨h.sorted, pairwise_singleton _ _, fun row hrow other hother => ?_⟩
      rw [mem_singleton.mp hother]
      exact hlater row hrow
    · rw [map_append, map_singleton, hread]
      refine h.linked.concat ?_ hhash
      rw [hpayment, h.findByPaymentId hid] at hprev
      rw [tip_eq_getLast?]
      exact hprev

theorem appendEntry_older {t : Int} (h : ∀ row ∈ table, row.createdAt < t)
    (hcall : call.dbNow < t) :
    ∀ row ∈ (appendEntry deps uuid call table).1, row.createdAt < t := by
  rcases appendEntry_table deps uuid call table with hsame | ⟨entry, txId, htable, -⟩
  · rwa [hsame]
  · rw [htable]
    exact forall_mem_concat h hcall

/-- A call for the payment, under clocks that agree. -/
structure InStep (uuid : String → String) (paymentId : String) (call : Call) : Prop where
  payment : call.input.paymentId = paymentId
  canonical : Canonical uuid call
  clock : call.env.now = call.dbNow / 1000

theorem Chained.appended {calls : List Call} (h : Chained deps paymentId table)
    (hcalls : ∀ call ∈ calls, InStep uuid paymentId call)
    (hforward : calls.Pairwise (·.dbNow < ·.dbNow))
    (holder : ∀ call ∈ calls, ∀ row ∈ table, row.createdAt < call.dbNow) :
    Chained deps paymentId (appended deps uuid calls table) := by
  induction calls generalizing table with
  | nil => exact h
  | cons call calls ih =>
    rw [pairwise_cons] at hforward
    rw [forall_mem_cons] at hcalls holder
    obtain ⟨hcall, hcalls⟩ := hcalls
    refine ih (h.append hcall.payment hcall.canonical hcall.clock holder.1) hcalls hforward.2 ?_
    intro other hother
    exact appendEntry_older (holder.2 other hother) (hforward.1 other hother)

/-- **The chain on Postgres verifies** when the database's clock moves
forward from call to call and reads, in milliseconds, what the service's
does, and the ids are canonical. -/
theorem pg_chain_valid (deps : Deps) (uuid : String → String) (paymentId : String)
    (calls : List Call) (hid : uuid paymentId = paymentId)
    (hcalls : ∀ call ∈ calls, InStep uuid paymentId call)
    (hforward : calls.Pairwise (·.dbNow < ·.dbNow)) :
    (verifyChainForPayment deps uuid paymentId (appended deps uuid calls [])).map
      ReversalVerificationResult.valid = some true := by
  have hempty : Chained deps paymentId [] := ⟨forall_mem_nil _, .nil, trivial⟩
  have hchained := hempty.appended hcalls hforward fun _ _ => forall_mem_nil _
  rw [verifyChainForPayment, hchained.findByPaymentId hid, verifyChain,
    walk_eq_intact.mpr hchained.linked]
  rfl

def samplePayment : String := "7d3a0c52-4d0e-4f7a-9a53-0c3a5b1e9f20"

/-- An append of -100 cents, by what the two clocks read. -/
def sampleCall (key : String) (now dbNow : Int) : Call where
  input :=
    { bookingIntentId := "52b1c6de-93a4-4c0b-8a0e-2f6f1f0d7c11", paymentId := samplePayment,
      amountCents := -100, currency := .usd, idempotencyKey := key, policyVersionId := "v1",
      actor := "ann" }
  env := { currency := .ok (some .usd), now }
  dbNow
  rowId := "0f0e8a3b-1f59-4f3c-b1c7-6f2f6f0a9b" ++ key

def sampleLedger : Deps where
  sha256 := id
  number n := toString n.num
  netRefundLookup := none

theorem pg_chain_valid_twice :
    (verifyChainForPayment sampleLedger id samplePayment
      (appended sampleLedger id [sampleCall "01" 1 1500, sampleCall "02" 2 2500] [])).map
      ReversalVerificationResult.valid = some true := by
  refine pg_chain_valid sampleLedger id samplePayment _ rfl ?_ (by decide)
  simp only [forall_mem_cons]
  exact ⟨⟨rfl, ⟨rfl, rfl, rfl⟩, rfl⟩, ⟨rfl, ⟨rfl, rfl, rfl⟩, rfl⟩, forall_mem_nil _⟩

/-- The database is a second ahead, and the first row does not verify. -/
theorem pg_chain_clocks_apart :
    (verifyChainForPayment sampleLedger id samplePayment
      (appended sampleLedger id [sampleCall "01" 0 1000000] [])).map
      (fun result => (result.valid, result.firstBrokenIndex)) = some (false, some 0) := by
  decide +kernel

end CancellationReversal.Pg

end ChronoPay
