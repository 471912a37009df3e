import ChronoPay.BookingIntents
import ChronoPay.Lib.HashChain
import ChronoPay.Lib.Machine
import ChronoPay.Reservation

/-!
# SchedulingService — bundles, supplier cancellation and the refund ledger

One `SchedulingService` over a slot repository and a fixed intent
repository. Its own state is the map of reserved bundles and the refund
ledger with two indexes. The operations are synchronous, so a run is a
sequence of calls; but a call that THROWS keeps what it did before, and
every operation below returns the state next to its result.

The entry objects are shared between the ledger and its indexes, which
is modelled by letting the indexes hold positions in the ledger. SHA-256
is a parameter; ids and clock readings come with the call.
-/

namespace ChronoPay

open Function IsoDate

inductive EscrowRefundStatus where
  | requested
  | ledgerWritten
  | chainSettling
  | completed
  | failed
  deriving DecidableEq, Repr

structure EscrowRefundLedgerEntry where
  id : String
  bookingIntentId : String
  buyerId : Option String
  supplierId : Option String
  refundRequestId : String
  escrowHoldId : String
  grossAmountCents : Int
  platformFeeReversedCents : Int
  prepaidTaxReversedCents : Int
  netRefundCents : Int
  currency : String
  cancelledBySupplierAt : ℚ
  slotStartTime : Int
  hoursBeforeStart : ℚ
  chainTxId : Option String
  status : EscrowRefundStatus
  ledgerHash : String
  prevLedgerHash : String
  createdAt : ℚ
  deriving DecidableEq, Repr

structure SupplierPreSlotCancelResult where
  refundRequestId : String
  ledgerEntry : EscrowRefundLedgerEntry
  releasedSlots : List String
  grossRefund : Int
  platformFeeReversed : Int
  taxReversed : Int
  netRefund : Int
  deriving DecidableEq, Repr

structure SchedulingState where
  slots : Slots
  reservedBundles : String → Option (List String) := fun _ => none
  refundLedger : List EscrowRefundLedgerEntry := []
  refundLedgerByRequestId : String → Option Nat := fun _ => none
  refundLedgerByIntentId : String → List Nat := fun _ => []

/-- What a call of the supplier cancellation gets from outside: its
arguments, the clock reading and the two random ids. -/
structure SupplierCancel where
  bookingIntentId : String
  cancelledAt : ℚ
  chainTxId : Option String := none
  refundUuid : String := ""
  entryUuid : String := ""
  deriving DecidableEq, Repr

namespace SchedulingService

abbrev Outcome (α : Type) : Type := SchedulingState × Except SchedulingError α

/-! ## Slots and bundles -/

def reserveSlot (switches : Switches) (slotId : String) (now : Int) (tenantId : Option String)
    (s : SchedulingState) : Outcome Unit :=
  match ChronoPay.reserveSlot switches tenantId now slotId s.slots with
  | .error err => (s, .error err)
  | .ok slots => ({ s with slots }, .ok ())

/-- `reserveBundle`; the i-th slot is reserved when the clock reads `now i`.
The tenant is NOT passed on to the single reservations. -/
def reserveBundle (switches : Switches) (now : Nat → Int) (bundleId : String)
    (slotIds : List String) (tenantId : Option String) (s : SchedulingState) : Outcome Unit :=
  match switches.pausedTenant tenantId with
  | some tenant => (s, .error (.tenantPaused tenant))
  | none =>
    if (s.reservedBundles bundleId).isSome then (s, .error (.bundleAlreadyReserved bundleId))
    else
      let uniqueSlotIds := slotIds.eraseDups
      match reserveEach switches now 0 uniqueSlotIds s.slots with
      | (slots, _, none) =>
        let reservedBundles := update s.reservedBundles bundleId (some uniqueSlotIds)
        ({ s with slots, reservedBundles }, .ok ())
      | (slots, reserved, some err) =>
        match releaseEach reserved slots with
        | (slots', none) => ({ s with slots := slots' }, .error (.bundleReservation bundleId err))
        | (slots', some err') => ({ s with slots := slots' }, .error err')

def releaseBundle (bundleId : String) (s : SchedulingState) : Outcome Unit :=
  match s.reservedBundles bundleId with
  | none => (s, .error (.bundleNotFound bundleId))
  | some slotIds =>
    match releaseEach slotIds s.slots with
    | (slots, some err) => ({ s with slots }, .error err)
    | (slots, none) =>
      let reservedBundles := update s.reservedBundles bundleId none
      ({ s with slots, reservedBundles }, .ok ())

/-! ## The refund ledger -/

section

variable (sha256 : String → String)

def deriveRefundLedgerHash (refundRequestId prevHash : String)
    (grossAmount feeReversed taxReversed netRefund : Int) (createdAtIso : String) : String :=
  sha256 (s!"{refundRequestId}|{prevHash}|{grossAmount}|{feeReversed}|{taxReversed}|" ++
    s!"{netRefund}|{createdAtIso}")

/-- What the chain check reads of an entry; a creation time `Date` cannot
render has no digest. -/
def refundChain : HashChain.Scheme EscrowRefundLedgerEntry String where
  genesis := ""
  prev := EscrowRefundLedgerEntry.prevLedgerHash
  hash := EscrowRefundLedgerEntry.ledgerHash
  digest entry := (toISOString entry.createdAt).map fun createdAtIso =>
    deriveRefundLedgerHash sha256 entry.refundRequestId entry.prevLedgerHash
      entry.grossAmountCents entry.platformFeeReversedCents entry.prepaidTaxReversedCents
      entry.netRefundCents createdAtIso

structure ChainReport where
  valid : Bool
  firstBrokenIndex : Int
  entriesChecked : Nat
  deriving DecidableEq, Repr

/-- `verifyRefundLedgerChain`; `none` is the RangeError of `toISOString`. -/
def verifyRefundLedgerChain (refundLedger : List EscrowRefundLedgerEntry) : Option ChainReport :=
  let chain := refundChain sha256
  match HashChain.verifyFrom chain chain.genesis 0 refundLedger with
  | .intact => some ⟨true, -1, refundLedger.length⟩
  | .brokenAt i => some ⟨false, i, i + 1⟩
  | .failedAt _ => none

end

def findRefundByRequestId (refundRequestId : String) (s : SchedulingState) :
    Option EscrowRefundLedgerEntry :=
  (s.refundLedgerByRequestId refundRequestId).bind (s.refundLedger[·]?)

def findRefundsByIntentId (bookingIntentId : String) (s : SchedulingState) :
    List EscrowRefundLedgerEntry :=
  (s.refundLedgerByIntentId bookingIntentId).filterMap (s.refundLedger[·]?)

/-- Push an entry and index it. -/
def pushRefund (entry : EscrowRefundLedgerEntry) (s : SchedulingState) : SchedulingState :=
  let position := s.refundLedger.length
  { s with
    refundLedger := s.refundLedger ++ [entry]
    refundLedgerByRequestId :=
      update s.refundLedgerByRequestId entry.refundRequestId (some position)
    refundLedgerByIntentId :=
      update s.refundLedgerByIntentId entry.bookingIntentId
        (s.refundLedgerByIntentId entry.bookingIntentId ++ [position]) }

/-- Mutate the entry of a refund request in place. -/
def updateRefund (refundRequestId : String)
    (f : EscrowRefundLedgerEntry → EscrowRefundLedgerEntry) (s : SchedulingState) :
    Outcome EscrowRefundLedgerEntry :=
  match s.refundLedgerByRequestId refundRequestId with
  | none => (s, .error (.escrowRefundLedgerIntegrity refundRequestId))
  | some position =>
    match s.refundLedger[position]? with
    | none => (s, .error (.escrowRefundLedgerIntegrity refundRequestId))
    | some entry =>
      ({ s with refundLedger := s.refundLedger.set position (f entry) }, .ok (f entry))

def markRefundSettled (refundRequestId chainTxId : String) :
    SchedulingState → Outcome EscrowRefundLedgerEntry :=
  updateRefund refundRequestId fun entry =>
    { entry with chainTxId := some chainTxId, status := .completed }

def markRefundFailed (refundRequestId : String) :
    SchedulingState → Outcome EscrowRefundLedgerEntry :=
  updateRefund refundRequestId fun entry => { entry with status := .failed }

/-! ## Cancellation by the supplier before the slot starts -/

/-- The bundle an intent names, where an empty id is falsy. -/
def bundleOf (intent : BookingIntentRecord) : Option String :=
  intent.bundleId.filter fun bundleId => bundleId ≠ ""

/-- `new CancellationAfterSlotStartError(…)`, whose text formats the start
time and so may throw the RangeError instead. -/
def cancellationAfterSlotStartError (bookingIntentId : String) (slotStartTime : Int)
    (cancelledAt : ℚ) : SchedulingError :=
  match toISOString slotStartTime with
  | some iso => .cancellationAfterSlotStart bookingIntentId slotStartTime iso cancelledAt
  | none => .invalidTime

/-- The checks at the head of the cancellation. -/
def cancellableIntent (intents : BookingIntents) (call : SupplierCancel) :
    Except SchedulingError BookingIntentRecord :=
  match intents.findById call.bookingIntentId with
  | none => .error (.slotNotFound call.bookingIntentId)
  | some intent =>
    if intent.startTime ≤ call.cancelledAt then
      .error (cancellationAfterSlotStartError call.bookingIntentId intent.startTime
        call.cancelledAt)
    else .ok intent

/-- Release the slots of the intent, then its bundle if that is reserved. -/
def releaseHolds (intent : BookingIntentRecord) (s : SchedulingState) : Outcome Unit :=
  match releaseEach (intent.slotIds.getD []) s.slots with
  | (slots, some err) => ({ s with slots }, .error err)
  | (slots, none) =>
    match bundleOf intent with
    | none => ({ s with slots }, .ok ())
    | some bundleId =>
      if (s.reservedBundles bundleId).isSome then releaseBundle bundleId { s with slots }
      else ({ s with slots }, .ok ())

/-- The entry of a cancellation, chained to the tail of the ledger; `none`
when `Date` cannot render the creation time. -/
def refundEntry (sha256 : String → String) (call : SupplierCancel)
    (intent : BookingIntentRecord) (refundLedger : List EscrowRefundLedgerEntry) :
    Option EscrowRefundLedgerEntry :=
  let pricing := intent.pricingSnapshot
  let grossRefund := (pricing.map PricingSnapshot.resolvedPrice).getD 0
  let platformFeeReversed :=
    (pricing.bind PricingSnapshot.platformFeeCents).getD (mathRound (grossRefund * 0.05))
  let taxReversed := (pricing.bind PricingSnapshot.taxCents).getD (mathRound (grossRefund * 0.08))
  let netRefund := grossRefund + taxReversed
  let refundRequestId := "refund_" ++ call.refundUuid
  let prevHash := (refundLedger.getLast?.map EscrowRefundLedgerEntry.ledgerHash).getD ""
  (toISOString call.cancelledAt).map fun createdAtIso =>
    { id := call.entryUuid
      bookingIntentId := call.bookingIntentId
      buyerId := intent.buyerId
      supplierId := intent.supplierId
      refundRequestId
      escrowHoldId := intent.escrowHoldId.getD ("hold_" ++ call.bookingIntentId)
      grossAmountCents := grossRefund
      platformFeeReversedCents := platformFeeReversed
      prepaidTaxReversedCents := taxReversed
      netRefundCents := netRefund
      currency := (pricing.bind PricingSnapshot.currency).getD "USD"
      cancelledBySupplierAt := call.cancelledAt
      slotStartTime := intent.startTime
      hoursBeforeStart := (intent.startTime - call.cancelledAt) / (1000 * 60 * 60)
      chainTxId := call.chainTxId
      status := if call.chainTxId.getD "" = "" then .ledgerWritten else .chainSettling
      ledgerHash := deriveRefundLedgerHash sha256 refundRequestId prevHash grossRefund
        platformFeeReversed taxReversed netRefund createdAtIso
      prevLedgerHash := prevHash
      createdAt := call.cancelledAt }

/-- `handleSupplierCancelBeforeSlotStart`. The intent is only READ: its
status is neither checked nor changed. -/
def handleSupplierCancelBeforeSlotStart (sha256 : String → String) (intents : BookingIntents)
    (call : SupplierCancel) (s : SchedulingState) : Outcome SupplierPreSlotCancelResult :=
  match cancellableIntent intents call with
  | .error err => (s, .error err)
  | .ok intent =>
    match releaseHolds intent s with
    | (s', .error err) => (s', .error err)
    | (s', .ok ()) =>
      match refundEntry sha256 call intent s'.refundLedger with
      | none => (s', .error .invalidTime)
      | some entry =>
        (pushRefund entry s', .ok
          { refundRequestId := entry.refundRequestId
            ledgerEntry := entry
            releasedSlots := intent.slotIds.getD []
            grossRefund := entry.grossAmountCents
            platformFeeReversed := entry.platformFeeReversedCents
            taxReversed := entry.prepaidTaxReversedCents
            netRefund := entry.netRefundCents })

/-! ## Runs -/

/-- One call on the service, with what it gets from outside. -/
inductive Call where
  | reserveSlot (switches : Switches) (slotId : String) (now : Int) (tenantId : Option String)
  | reserveBundle (switches : Switches) (now : Nat → Int) (bundleId : String)
      (slotIds : List String) (tenantId : Option String)
  | releaseBundle (bundleId : String)
  | supplierCancel (call : SupplierCancel)
  | markRefundSettled (refundRequestId chainTxId : String)
  | markRefundFailed (refundRequestId : String)

/-- The state a call leaves, whether it returns or throws. -/
def step (sha256 : String → String) (intents : BookingIntents) (s : SchedulingState) :
    Call → SchedulingState
  | .reserveSlot switches slotId now tenantId => (reserveSlot switches slotId now tenantId s).1
  | .reserveBundle switches now bundleId slotIds tenantId =>
    (reserveBundle switches now bundleId slotIds tenantId s).1
  | .releaseBundle bundleId => (releaseBundle bundleId s).1
  | .supplierCancel call => (handleSupplierCancelBeforeSlotStart sha256 intents call s).1
  | .markRefundSettled refundRequestId chainTxId =>
    (markRefundSettled refundRequestId chainTxId s).1
  | .markRefundFailed refundRequestId => (markRefundFailed refundRequestId s).1

/-! ## The checks and releases of a cancellation -/

section

variable {intents : BookingIntents} {call : SupplierCancel} {s : SchedulingState}
  {bundleId : String} {intent : BookingIntentRecord}

/-- The rows of all the slots are in the repository. -/
def RowsPresent (slots : Slots) (slotIds : List String) : Prop :=
  ∀ slotId ∈ slotIds, (slots.findById slotId).isSome = true

instance (slots : Slots) (slotIds : List String) : Decidable (RowsPresent slots slotIds) :=
  inferInstanceAs (Decidable (∀ slotId ∈ slotIds, _))

/-- The slots of the intent's bundle, if that is reserved. -/
def bundleSlots (intent : BookingIntentRecord) (s : SchedulingState) : List String :=
  ((bundleOf intent).bind s.reservedBundles).getD []

theorem cancellableIntent_eq_ok : cancellableIntent intents call = .ok intent ↔
    intents.findById call.bookingIntentId = some intent ∧ call.cancelledAt < intent.startTime := by
  unfold cancellableIntent
  cases intents.findById call.bookingIntentId with
  | none => simp
  | some found =>
    by_cases hlate : (found.startTime : ℚ) ≤ call.cancelledAt
    · simp only [hlate, if_true, reduceCtorEq, Option.some.injEq, false_iff, not_and, not_lt]
      rintro rfl
      exact hlate
    · simp only [hlate, if_false, Except.ok.injEq, Option.some.injEq]
      refine ⟨?_, fun h => h.1⟩
      rintro rfl
      exact ⟨rfl, not_le.mp hlate⟩

theorem releaseBundle_ok_iff {slotIds : List String}
    (hbundle : s.reservedBundles bundleId = some slotIds) :
    (releaseBundle bundleId s).2 = .ok () ↔ RowsPresent s.slots slotIds := by
  have hrows : RowsPresent s.slots slotIds ↔ _ := releaseEach_none_iff.symm
  rw [hrows]
  simp only [releaseBundle, hbundle]
  rcases releaseEach slotIds s.slots with ⟨slots, _ | err⟩ <;> simp

theorem rowsPresent_setMany {slots : Slots} {freed slotIds : List String} {b : Bool} :
    RowsPresent (slots.setMany freed b) slotIds ↔ RowsPresent slots slotIds := by
  simp [RowsPresent]

end

/-! ## A booking to run on -/

/-- A short booking tomorrow whose supplier will cancel. -/
def soldIntent : BookingIntentRecord :=
  { id := "intent-1", slotId := "slot-1", professional := "pro", customerId := "buyer",
    startTime := 86400000, endTime := 90000000, status := .confirmed,
    createdAt := "1970-01-01T00:00:00.000Z", slotIds := some ["slot-1"],
    bundleId := some "bundle-1"
    pricingSnapshot := some
      { strategyId := .fixed, resolvedPrice := 10000, basePrice := 10000, slotStartMs := 86400000,
        nowMs := 0, activeBookings := 0, capacity := 1, config := .fixed } }

def soldIntents : BookingIntents := { intents := [soldIntent], sequence := 2 }

def soldSlot : SlotRecord :=
  { id := "slot-1", professional := "pro", startTime := 86400000, endTime := 90000000,
    bookable := false }

/-- The supplier cancels the booking at midnight. -/
def cancelAtMidnight : Call :=
  .supplierCancel { bookingIntentId := "intent-1", cancelledAt := 0, refundUuid := "a" }

/-- The supplier cancels it again an hour later. -/
def cancelAtOne : Call :=
  .supplierCancel { bookingIntentId := "intent-1", cancelledAt := 3600000, refundUuid := "b" }

/-- SHA-256 on the texts of the two cancellations, and on that of the
second with a cent more; elsewhere something injective. -/
def sampleSha256 (text : String) : String :=
  let first := "06d44c05af9f9edf96e781729aa0f77c3cda4da4df1f0197c117c34caa7b900a"
  if text = "refund_a||10000|500|800|10800|1970-01-01T00:00:00.000Z" then first
  else if text = "refund_b|" ++ first ++ "|10000|500|800|10800|1970-01-01T01:00:00.000Z" then
    "69df0f58b11f56cffaf190560f7782a17c10806375b06da2221c629413f284df"
  else if text = "refund_b|" ++ first ++ "|10000|500|800|10801|1970-01-01T01:00:00.000Z" then
    "899fa13f2d34ff384a314dc908fbc387ce94154f25cd9ff201b2098ec8b2eba1"
  else "#" ++ text

theorem sampleSha256_injective : Injective sampleSha256 := by
  -- no digest starts with the mark of the texts that are not in the table
  have hmark : ∀ digest text : String, digest.toList.head? ≠ some '#' → digest ≠ "#" ++ text := by
    rintro _ text hhead rfl
    simp at hhead
  intro text text' h
  unfold sampleSha256 at h
  dsimp only at h
  split_ifs at h <;> first
    | (subst_vars; rfl)
    | exact absurd h (by decide)
    | exact absurd h (hmark _ _ (by decide))
    | exact absurd h.symm (hmark _ _ (by decide))
    | exact (String.append_right_inj _).mp h

end SchedulingService

end ChronoPay
