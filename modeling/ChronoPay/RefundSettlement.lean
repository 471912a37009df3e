import ChronoPay.Lib.Coop
import ChronoPay.Lib.KeyedList
import ChronoPay.SettlementReconciler

/-!
# RefundSettlement — refunds on their way to the chain

The refund half of `SettlementReconciler`. A refund is queued, submitted
by a callback that POSTs its transaction, and then polled until it is
final. The records are shared objects in one map: a submission keeps its
record across the `await` of the callback, and a reconciliation keeps the
records it found active across all of its polls, and both write into them
whatever happened in between.

Nothing ever leaves the map, so a record is modelled by its key. What the
chain has accepted is not in the program: `submissions` is the list of the
callbacks that succeeded. The listeners of the emitted events and the log
are left out.
-/

namespace ChronoPay

namespace RefundSettlement

inductive RefundSettlementStatus where
  | pendingChain
  | submitted
  | pendingFinality
  | settled
  | failed
  deriving DecidableEq, Repr

/-- What the ledger says of a refund. -/
structure LedgerEntry where
  refundRequestId : String
  bookingIntentId : String := ""
  escrowHoldId : String := ""
  buyerId : String := ""
  supplierId : String := ""
  grossAmountCents : ℚ := 0
  platformFeeReversedCents : ℚ := 0
  prepaidTaxReversedCents : ℚ := 0
  netRefundCents : ℚ := 0
  currency : String := ""
  deriving DecidableEq, Repr

structure RefundSettlementRecord extends LedgerEntry where
  submittedChainTxId : Option String := none
  settlementChainTxId : Option String := none
  status : RefundSettlementStatus
  confirmations : ℚ
  attempts : Nat
  lastPolledAt : Option Int := none
  createdAt : Int
  submittedAt : Option Int := none
  settledAt : Option Int := none
  failedAt : Option Int := none
  failureReason : Option String := none
  deriving DecidableEq, Repr

structure Store where
  records : List RefundSettlementRecord := []
  /-- The requests whose callback succeeded, with the transaction. -/
  submissions : List (String × String) := []

namespace Store

def get (s : Store) (refundRequestId : String) : Option RefundSettlementRecord :=
  KeyedList.get (fun r => r.refundRequestId) refundRequestId s.records

/-- Mutate a record. -/
def update (s : Store) (refundRequestId : String)
    (f : RefundSettlementRecord → RefundSettlementRecord) : Store :=
  { s with records := KeyedList.modify (fun r => r.refundRequestId) refundRequestId f s.records }

end Store

/-! ## Records -/

/-- A record as it is queued. -/
def queued (now : Int) (entry : LedgerEntry) : RefundSettlementRecord :=
  { entry with status := .pendingChain, confirmations := 0, attempts := 0, createdAt := now }

/-- The callback succeeded. -/
def submittedWith (hash : String) (now : Int) (r : RefundSettlementRecord) :
    RefundSettlementRecord :=
  { r with
    submittedChainTxId := some hash, submittedAt := some now, status := .submitted
    attempts := r.attempts + 1 }

def maxAttempts : Nat := 5

/-- The callback failed. -/
def submissionFailed (reason : String) (now : Int) (r : RefundSettlementRecord) :
    RefundSettlementRecord :=
  let attempts := r.attempts + 1
  if attempts ≥ maxAttempts then
    { r with attempts, status := .failed, failedAt := some now, failureReason := some reason }
  else { r with attempts }

/-- The transaction to poll, if there is one that is not empty. -/
def polledTx (r : RefundSettlementRecord) : Option String :=
  match r.submittedChainTxId.or r.settlementChainTxId with
  | some txHash => if txHash = "" then none else some txHash
  | none => none

/-- What an answer of Horizon does to a record. -/
def applyFinality (minConfirmations : ℚ) (txHash : String) (now : Int)
    (status : ChainFinalityStatus) (r : RefundSettlementRecord) : RefundSettlementRecord :=
  if status.found = false then r
  else if status.successful ≠ some true then
    { r with
      status := .failed, failedAt := some now
      failureReason := some "Refund chain transaction rejected" }
  else
    let r := { r with confirmations := status.confirmations }
    let r := if r.status = .submitted then { r with status := .pendingFinality } else r
    if minConfirmations ≤ status.confirmations then
      { r with status := .settled, settledAt := some now, settlementChainTxId := some txHash }
    else r

/-! ## Operations -/

inductive Request where
  | queueEscrowRefundSettlement (ledgerEntry : LedgerEntry)
  | submitRefundToChain (refundRequestId : String)
  | reconcileRefunds
  deriving DecidableEq, Repr

inductive RefundError where
  | unknownRefund (refundRequestId : String)
  /-- What the submit callback rejected with. -/
  | submit (thrown : String)
  deriving DecidableEq, Repr

def RefundError.message : RefundError → String
  | unknownRefund refundRequestId => s!"Unknown refundRequestId: {refundRequestId}"
  | submit thrown => thrown

/-- What a segment gets from outside: the clock, the answer of the submit
callback, and those of Horizon. -/
structure Env where
  now : Int := 0
  submitXdr : Except String String := .error ""
  latestLedger : Except String Int := .ok 0
  finality : Except String ChainFinalityStatus := .error ""

/-- The record of the refund, for the operations that return one. -/
abbrev Outcome : Type := Except RefundError (Option String)

inductive Pc where
  | start (request : Request)
  /-- At `await submitXdrFn()`. -/
  | submitting (refundRequestId : String)
  /-- At `await getLatestLedgerSequence()`, with the active records. -/
  | fetching (active : List String)
  /-- At `await getTransactionFinality(…)` for one record. -/
  | polling (refundRequestId txHash : String) (latestLedger : Int) (rest : List String)
  deriving DecidableEq

abbrev Segment : Type := Store × Coop.Task Pc Outcome

def Active (status : RefundSettlementStatus) : Prop :=
  status = .submitted ∨ status = .pendingFinality

instance (status : RefundSettlementStatus) : Decidable (Active status) :=
  inferInstanceAs (Decidable (_ ∨ _))

/-- The loop over the active records, up to the next one that is polled. -/
def pollNext (now : Int) (latestLedger : Int) : List String → Store → Segment
  | [], s => (s, .done (.ok none))
  | refundRequestId :: rest, s =>
    match (s.get refundRequestId).bind polledTx with
    | none => pollNext now latestLedger rest s
    | some txHash =>
      (s.update refundRequestId fun r => { r with lastPolledAt := some now },
        .waiting (.polling refundRequestId txHash latestLedger rest))

def resume (minConfirmations : ℚ) (e : Env) : Pc → Store → Segment
  | .start (.queueEscrowRefundSettlement ledgerEntry), s =>
    match s.get ledgerEntry.refundRequestId with
    | some existing => (s, .done (.ok (some existing.refundRequestId)))
    | none =>
      ({ s with records := s.records ++ [queued e.now ledgerEntry] },
        .done (.ok (some ledgerEntry.refundRequestId)))
  | .start (.submitRefundToChain refundRequestId), s =>
    match s.get refundRequestId with
    | none => (s, .done (.error (.unknownRefund refundRequestId)))
    | some r =>
      if r.status = .settled ∨ r.status = .submitted ∨ r.status = .pendingFinality then
        (s, .done (.ok (some refundRequestId)))
      else (s, .waiting (.submitting refundRequestId))
  | .start .reconcileRefunds, s =>
    let active := (s.records.filter fun r => Active r.status).map fun r => r.refundRequestId
    if active = [] then (s, .done (.ok none)) else (s, .waiting (.fetching active))
  | .submitting refundRequestId, s =>
    match e.submitXdr with
    | .ok hash =>
      ({ s.update refundRequestId (submittedWith hash e.now) with
         submissions := s.submissions ++ [(refundRequestId, hash)] },
        .done (.ok (some refundRequestId)))
    | .error thrown =>
      (s.update refundRequestId (submissionFailed thrown e.now), .done (.error (.submit thrown)))
  | .fetching active, s =>
    match e.latestLedger with
    | .error _ => (s, .done (.ok none))
    | .ok latestLedger => pollNext e.now latestLedger active s
  | .polling refundRequestId txHash latestLedger rest, s =>
    match e.finality with
    | .error _ => pollNext e.now latestLedger rest s
    | .ok status =>
      pollNext e.now latestLedger rest
        (s.update refundRequestId (applyFinality minConfirmations txHash e.now status))

def reconciler (minConfirmations : ℚ) : Coop.Program Request Env Store Pc Outcome where
  start := .start
  resume := resume minConfirmations

abbrev State := Coop.Sys Request Store Pc Outcome

abbrev Cmd := Coop.Cmd Request Env

def opened : State := { shared := {} }

end RefundSettlement

end ChronoPay
