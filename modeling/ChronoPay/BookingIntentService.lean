import ChronoPay.JsText
import ChronoPay.Lib.Coop
import ChronoPay.RefundPolicy
import ChronoPay.Reservation

/-!
# BookingIntentService — the seven writing requests as cooperative calls

A request runs without interruption from one `await` to the next; at an
`await` any other request may run. Each continuation (`Pc`) holds the
locals the source keeps across that `await`: in particular the COPIES of
slots and intents it read, which other requests do not update.

One segment is split in two. `segment` is the code between two awaits up
to its effect: it reads the store, evaluates the checks in source order
and ends in ONE `Segment`. `perform` is the effect itself. So what a
request can do to the store is read off the constructors of `Segment`.

Everything the outside decides is in `Env`: the clocks, one reading per
place in the source that reads one, the pause switch, the configuration
stores, and the outcome of the currency and strike services.
-/

namespace ChronoPay

open Result

/-! ## Requests and responses -/

structure AuthContext where
  userId : String
  role : String
  deriving DecidableEq, Repr

/-- A number the type system does not force to be finite; `none` is
`NaN` or an infinity. -/
abbrev JsNumber := Option ℚ

structure CreateBookingIntentInput where
  slotId : String
  note : Option String := none
  bookingType : Option BookingType := none
  holdDeadlineMs : Option Int := none
  buyerCurrency : Option SupportedCurrency := none
  deriving DecidableEq, Repr

structure RefundInput where
  reason : Option String := none
  cancelledAtMs : Option JsNumber := none
  deriving DecidableEq, Repr

structure NoShowInput where
  reason : Option String := none
  forfeitRatio : Option JsNumber := none
  deriving DecidableEq, Repr

/-- The requests that move an existing intent. -/
inductive IntentOp where
  | confirmIntent (actor : AuthContext)
  | cancelIntent (actor : AuthContext)
  | refundIntent (actor : AuthContext) (input : RefundInput)
  | expireIntent
  | autoRefundHold (force : Bool)
  | markNoShow (actor : AuthContext) (input : NoShowInput)
  deriving DecidableEq, Repr

inductive Request where
  | createIntent (input : CreateBookingIntentInput) (actor : AuthContext)
  | transition (op : IntentOp) (intentId : String)
  deriving DecidableEq, Repr

structure BookingIntentError where
  status : Nat
  message : String
  code : String
  deriving DecidableEq, Repr

/-- The code `BookingIntentError` derives from its status. -/
def defaultCode : Nat → String
  | 400 => "BAD_REQUEST"
  | 403 => "FORBIDDEN"
  | 404 => "NOT_FOUND"
  | 409 => "CONFLICT"
  | 422 => "UNPROCESSABLE_ENTITY"
  | _ => "INTERNAL_ERROR"

/-- What a request can throw: its own errors and those of the layers below. -/
inductive ServiceError where
  | bookingIntent (err : BookingIntentError)
  /-- The repository's ConflictError. -/
  | conflict (slotId : String)
  | scheduling (err : SchedulingError)
  | pricing (err : PricingError)
  | policy (err : PolicyError)
  | refund (err : RefundError)
  /-- "BookingIntent with id … not found" -/
  | intentRowMissing (intentId : String)
  /-- The strike service rejected. -/
  | strike (message : String)
  deriving DecidableEq, Repr

/-- `new BookingIntentError(status, message)`. -/
def fault (status : Nat) (message : String) : ServiceError :=
  .bookingIntent ⟨status, message, defaultCode status⟩

/-- `new BookingIntentError(status, message, code)`. -/
def faultWithCode (status : Nat) (message code : String) : ServiceError :=
  .bookingIntent ⟨status, message, code⟩

structure RefundResponse where
  intent : BookingIntentRecord
  refundAmountCents : ℚ
  refundRatio : ℚ
  consumedRatio : ℚ
  reason : String
  policyVersionId : String
  fee : ℚ
  holdFee : ℚ
  taxReversal : ℚ
  breakdown : RefundBreakdown
  deriving DecidableEq, Repr

structure NoShowResponse where
  intent : BookingIntentRecord
  status : BookingIntentStatus
  buyerId : String
  supplierId : String
  forfeitAmountCents : Int
  strikeId : String
  autoSuspended : Bool
  reason : String
  deriving DecidableEq, Repr

inductive Response where
  | intent (intent : BookingIntentRecord)
  | refund (response : RefundResponse)
  | noShow (response : NoShowResponse)
  deriving DecidableEq, Repr

abbrev Outcome := Except ServiceError Response

/-! ## The environment -/

/-- The places that read the service's `nowMs`. -/
inductive ClockSite where
  | bundleExpiry
  | pricing
  | cancellationSnapshot
  | holdFeeSnapshot
  | fxCapture
  | holdDeadline
  | holdLapse
  | refund
  | refundTerms
  | noShow
  deriving DecidableEq, Repr

/-- The places that read the service's `now`. -/
inductive StampSite where
  | holdPlacedAt
  | createdAt
  | refundedAt
  | refundMetadata
  deriving DecidableEq, Repr

structure Env where
  nowMs : ClockSite → Int
  now : StampSite → String
  /-- `Date.now()` as `reserveSlot` reads it. -/
  dateNow : Int
  escrowPaused : Bool := false
  overrides : SupplierOverrides := fun _ => none
  /-- `graceWindowService.resolve(category)`, in seconds. -/
  graceSeconds : Option String → Int := fun _ => 900
  /-- What `getRate` resolved to, or the message it rejected with. -/
  fxRate : Except (Option String) ℚ := .ok 1
  /-- What `issueStrike` resolved to: strike id and suspension. -/
  strike : Except String (String × Bool) := .ok ("", false)

/-- What the constructor of the service fixes. -/
structure ServiceConfig where
  policyRegistry : VersionedPolicyRegistry := createDefaultRegistry
  holdFeeRegistry : HoldFeePolicyRegistry := fun _ => none
  hasFxRateProvider : Bool := false
  noShowGraceMs : Option Nat := none

structure Store where
  slots : Slots
  intents : BookingIntents := {}
  deriving DecidableEq, Repr

/-! ## Continuations and effects -/

/-- The snapshots a new intent stores. -/
structure CreateSnapshots where
  pricing : Option PricingSnapshot
  cancellation : CancellationPolicySnapshot
  holdFee : HoldFeePolicySnapshot
  deriving DecidableEq, Repr

inductive Pc where
  | start (request : Request)
  /-- `createIntent` after `await findBySlotIdAndCustomer`. -/
  | createOwn (input : CreateBookingIntentInput) (actor : AuthContext) (slot : SlotRecord)
      (existingForCustomer : Option BookingIntentRecord)
  /-- `createIntent` after `await findBySlotId`. -/
  | createForSlot (input : CreateBookingIntentInput) (actor : AuthContext) (slot : SlotRecord)
      (existingForSlot : Option BookingIntentRecord)
  /-- `createIntent` after `await listAll`. -/
  | createPricing (input : CreateBookingIntentInput) (actor : AuthContext) (slot : SlotRecord)
      (intents : List BookingIntentRecord)
  /-- `createIntent` after `await getRate`. -/
  | createFx (input : CreateBookingIntentInput) (actor : AuthContext) (slot : SlotRecord)
      (snapshots : CreateSnapshots) (base target : SupportedCurrency)
  /-- `createIntent` after `await create`. -/
  | createReserve (slotId : String) (intent : BookingIntentRecord)
  /-- A transition after `await findById`. -/
  | loaded (op : IntentOp) (intentId : String) (found : Option BookingIntentRecord)
  /-- The `expireIntent` inside `confirmIntent`, after its `await findById`. -/
  | confirmExpiring (intentId : String) (found : Option BookingIntentRecord)
  /-- `markNoShow` after `await issueStrike`. -/
  | noShowStruck (intentId : String) (intent : BookingIntentRecord) (forfeitAmountCents : Int)
      (reason : String)
  /-- A transition after `await update`, about to release the slot. -/
  | releasing (slotId : String) (outcome : Outcome)
  /-- An awaited promise that rejected. -/
  | rejected (err : ServiceError)
  deriving DecidableEq, Repr

/-- How the code between two awaits ends. -/
inductive Segment where
  | throw (err : ServiceError)
  /-- Nothing written; suspend. -/
  | await (pc : Pc)
  /-- `await repository.create(draft)`. -/
  | create (draft : BookingIntentRecord) (next : BookingIntentRecord → Pc)
  /-- `repository.update(intentId, …)` with what comes after it. -/
  | update (intentId : String) (updates : BookingIntentRecord → BookingIntentRecord)
      (next : BookingIntentRecord → Coop.Task Pc Outcome)
  /-- `reserveSlot(slotId)`, then return. -/
  | reserve (slotId : String) (response : Response)
  /-- `releaseSlotBestEffort(slotId)`, then settle. -/
  | release (slotId : String) (outcome : Outcome)

/-- The effect of a segment. A rejected `create` surfaces after the
await; a synchronous `update` throws in place. -/
def perform (e : Env) : Segment → Store → Store × Coop.Task Pc Outcome
  | .throw err, s => (s, .done (.error err))
  | .await pc, s => (s, .waiting pc)
  | .create draft next, s =>
    match s.intents.create draft with
    | none => (s, .waiting (.rejected (.conflict draft.slotId)))
    | some (intents, created) => ({ s with intents }, .waiting (next created))
  | .update intentId updates next, s =>
    match s.intents.update intentId updates with
    | none => (s, .done (.error (.intentRowMissing intentId)))
    | some (intents, updated) => ({ s with intents }, next updated)
  | .reserve slotId response, s =>
    match reserveSlot { escrowPaused := e.escrowPaused } none e.dateNow slotId s.slots with
    | .error err => (s, .done (.error (.scheduling err)))
    | .ok slots => ({ s with slots }, .done (.ok response))
  | .release slotId outcome, s =>
    ({ s with slots := releaseSlotBestEffort slotId s.slots }, .done outcome)

/-- Checks first, then the rest of the segment. -/
def attempt {α : Type} (checks : Except ServiceError α) (rest : α → Segment) : Segment :=
  match checks with
  | .error err => .throw err
  | .ok a => rest a

/-! ## `createIntent` -/

/-- `assertBundleTransferable`: only an admin may book a slot whose
bundle was marked as not transferable. -/
def transferableTo (slot : SlotRecord) (actor : AuthContext) : Prop :=
  slot.transferable ≠ some false ∨ actor.role = "admin"

instance (slot : SlotRecord) (actor : AuthContext) : Decidable (transferableTo slot actor) :=
  inferInstanceAs (Decidable (_ ∨ _))

/-- The checks before the first await; the slot is a copy. -/
def checkSlot (e : Env) (input : CreateBookingIntentInput) (actor : AuthContext) (slots : Slots) :
    Except ServiceError SlotRecord :=
  match slots.findById input.slotId with
  | none => .error (fault 404 "Selected slot was not found.")
  | some slot => do
    require (slot.bookable = true) (fault 409 "Selected slot is not bookable.")
    require (slot.expiredAt (e.nowMs .bundleExpiry) = false)
      (faultWithCode 422 "Bundle for this slot has expired. Redemption is no longer available."
        "BUNDLE_EXPIRED")
    require (transferableTo slot actor)
      (faultWithCode 422 s!"Bundle {slot.id} is not transferable" "BUNDLE_NOT_TRANSFERABLE")
    require (slot.professional ≠ actor.userId)
      (fault 403 "You cannot create a booking intent for your own slot.")
    return slot

def checkExistingForCustomer (existing : Option BookingIntentRecord) : Except ServiceError Unit :=
  require (existing = none) (fault 409 "A booking intent already exists for this slot.")

def checkExistingForSlot (existing : Option BookingIntentRecord) : Except ServiceError Unit :=
  require (existing = none) (fault 409 "Selected slot already has an active booking intent.")

def captureSnapshots (cfg : ServiceConfig) (e : Env) (slot : SlotRecord)
    (pricing : Option PricingSnapshot) : Except ServiceError CreateSnapshots := do
  let cancellation ← (snapshotCurrentPolicy cfg.policyRegistry e.overrides slot.professional
    (e.nowMs .cancellationSnapshot)).mapError .policy
  return { pricing, cancellation,
           holdFee := snapshotForSupplier cfg.holdFeeRegistry slot.professional
             (e.nowMs .holdFeeSnapshot) }

/-- The currency pair to fetch a rate for, if one is needed. -/
def fxPair (cfg : ServiceConfig) (input : CreateBookingIntentInput) (slot : SlotRecord) :
    Option (SupportedCurrency × SupportedCurrency) :=
  if cfg.hasFxRateProvider then
    slot.currency.bind fun base => input.buyerCurrency.map fun target => (base, target)
  else none

def captureFxRate (e : Env) (base target : SupportedCurrency) :
    Except ServiceError FxRateSnapshot :=
  match e.fxRate with
  | .ok rate =>
    .ok { rate, baseCurrency := base, targetCurrency := target, capturedAtMs := e.nowMs .fxCapture }
  | .error message => .error (fault 500 (message.getD "Failed to fetch FX rate"))

/-- A refundable hold needs a deadline in the future. -/
def checkHoldDeadline (e : Env) (input : CreateBookingIntentInput) : Except ServiceError Unit :=
  if input.bookingType = some .refundableHold then
    match input.holdDeadlineMs with
    | none => .error (fault 400 "holdDeadlineMs is required for refundable_hold bookings.")
    | some deadline =>
      require (e.nowMs .holdDeadline < deadline)
        (fault 400 "holdDeadlineMs must be in the future for refundable_hold bookings.")
  else .ok ()

/-- The record passed to `repository.create`. -/
def draftIntent (e : Env) (input : CreateBookingIntentInput) (actor : AuthContext)
    (slot : SlotRecord) (snapshots : CreateSnapshots) (fxRateSnapshot : Option FxRateSnapshot) :
    BookingIntentRecord :=
  let hold : Bool := input.bookingType = some .refundableHold
  { slotId := slot.id
    professional := slot.professional
    customerId := actor.userId
    startTime := slot.startTime
    endTime := slot.endTime
    status := if hold then .holdPlaced else .pending
    note := input.note
    createdAt := e.now .createdAt
    bookingType := some (input.bookingType.getD .standard)
    holdUntilMs := if hold then input.holdDeadlineMs else none
    holdPlacedAt := if hold then some (e.now .holdPlacedAt) else none
    pricingSnapshot := snapshots.pricing
    cancellationPolicySnapshot := some snapshots.cancellation
    holdFeePolicySnapshot := some snapshots.holdFee
    fxRateSnapshot }

def createInsert (e : Env) (input : CreateBookingIntentInput) (actor : AuthContext)
    (slot : SlotRecord) (snapshots : CreateSnapshots) (fx : Option FxRateSnapshot) : Segment :=
  attempt (checkHoldDeadline e input) fun _ =>
    .create (draftIntent e input actor slot snapshots fx) fun intent =>
      .createReserve input.slotId intent

def createSnapshots (cfg : ServiceConfig) (e : Env) (input : CreateBookingIntentInput)
    (actor : AuthContext) (slot : SlotRecord) (pricing : Option PricingSnapshot) : Segment :=
  attempt (captureSnapshots cfg e slot pricing) fun snapshots =>
    match fxPair cfg input slot with
    | some (base, target) => .await (.createFx input actor slot snapshots base target)
    | none => createInsert e input actor slot snapshots none

/-! ## Transitions of an existing intent -/

/-- The kinds of transition. -/
inductive Move where
  | confirm
  | cancel
  | refund
  | expire
  | autoRefund
  | noShow
  deriving DecidableEq, Repr

/-- The statuses a transition accepts, checked on the copy it read. -/
def Move.accepts : Move → BookingIntentStatus → Bool
  | confirm, status => status = .pending || status = .holdPlaced
  | cancel, status => status = .pending || status = .holdPlaced
  | refund, status =>
    !(status = .cancelled || status = .expired || status = .holdRefunded || status = .noShow)
  | expire, status => status = .pending || status = .holdPlaced
  | autoRefund, status => status = .holdPlaced
  | noShow, status => status = .confirmed

def requireFound : Option BookingIntentRecord → Except ServiceError BookingIntentRecord
  | some intent => .ok intent
  | none => .error (fault 404 "Booking intent not found.")

/-- The status check, with the text `Cannot … "status" …`. -/
def requireStatus (move : Move) (before after : String) (intent : BookingIntentRecord) :
    Except ServiceError Unit :=
  require (move.accepts intent.status = true)
    (fault 409 (before ++ "\"" ++ intent.status.text ++ "\"" ++ after))

def requireOwner (actor : AuthContext) (message : String) (intent : BookingIntentRecord) :
    Except ServiceError Unit :=
  require (intent.customerId = actor.userId ∨ actor.role = "admin") (fault 403 message)

/-- `holdUntilMs !== undefined && holdUntilMs <= nowMs()`. -/
def BookingIntentRecord.holdLapsed (intent : BookingIntentRecord) (nowMs : Int) : Bool :=
  intent.holdUntilMs.any fun holdUntilMs => decide (holdUntilMs ≤ nowMs)

def refundedWith (e : Env) (status : BookingIntentStatus) (amount : ℚ) (reason : String)
    (intent : BookingIntentRecord) : BookingIntentRecord :=
  { intent with
    status
    refundedAt := some (e.now .refundedAt)
    refundMetadata := some
      { refundedAt := e.now .refundMetadata, refundedAmountCents := amount,
        refundReason := reason } }

def checkConfirm (actor : AuthContext) (found : Option BookingIntentRecord) :
    Except ServiceError BookingIntentRecord := do
  let intent ← requireFound found
  requireOwner actor "Only the intent owner or admin can confirm a booking intent." intent
  requireStatus .confirm "Cannot confirm intent with status " "." intent
  return intent

/-- `confirmIntent`; a lapsed hold is expired instead. -/
def confirmIntent (e : Env) (actor : AuthContext) (intentId : String)
    (found : Option BookingIntentRecord) (s : Store) : Segment :=
  attempt (checkConfirm actor found) fun intent =>
    if intent.bookingType = some .refundableHold ∧ intent.holdLapsed (e.nowMs .holdLapse) = true
    then .await (.confirmExpiring intentId (s.intents.findById intentId))
    else .update intentId (fun stored => { stored with status := .confirmed }) fun updated =>
      .done (.ok (.intent updated))

def checkCancel (actor : AuthContext) (found : Option BookingIntentRecord) :
    Except ServiceError BookingIntentRecord := do
  let intent ← requireFound found
  requireOwner actor "You are not authorized to cancel this booking intent." intent
  requireStatus .cancel "Cannot cancel intent with status " "." intent
  return intent

/-- The fields `cancelIntent` writes; a placed hold is refunded in full. -/
def cancelUpdates (e : Env) (actor : AuthContext) (intent : BookingIntentRecord) :
    BookingIntentRecord → BookingIntentRecord :=
  if intent.bookingType = some .refundableHold ∧ intent.status = .holdPlaced then
    refundedWith e .holdRefunded intent.resolveIntentPrice
      (if actor.role = "admin" then "admin_action" else "customer_cancel")
  else fun stored => { stored with status := .cancelled }

def cancelIntent (e : Env) (actor : AuthContext) (intentId : String)
    (found : Option BookingIntentRecord) : Segment :=
  attempt (checkCancel actor found) fun intent =>
    .update intentId (cancelUpdates e actor intent) fun updated =>
      .waiting (.releasing intent.slotId (.ok (.intent updated)))

def checkExpire (found : Option BookingIntentRecord) : Except ServiceError BookingIntentRecord := do
  let intent ← requireFound found
  requireStatus .expire "Cannot expire intent with status " "." intent
  return intent

/-- `expireIntent`, settling as `outcome` says once the slot is released. -/
def expireIntent (intentId : String) (found : Option BookingIntentRecord)
    (outcome : BookingIntentRecord → Outcome) : Segment :=
  attempt (checkExpire found) fun intent =>
    .update intentId (fun stored => { stored with status := .expired }) fun updated =>
      .waiting (.releasing intent.slotId (outcome updated))

def checkAutoRefund (e : Env) (force : Bool) (found : Option BookingIntentRecord) :
    Except ServiceError BookingIntentRecord := do
  let intent ← requireFound found
  require (intent.bookingType = some .refundableHold)
    (fault 409 ("Cannot auto-refund intent with booking type \""
      ++ (intent.bookingType.getD .standard).text
      ++ "\"; only refundable holds are eligible."))
  requireStatus .autoRefund "Cannot auto-refund intent with status " "." intent
  require (force = true ∨ intent.holdLapsed (e.nowMs .holdLapse) = true)
    (fault 409 "Refundable hold has not reached its holdUntilMs deadline yet.")
  return intent

def autoRefundHold (e : Env) (force : Bool) (intentId : String)
    (found : Option BookingIntentRecord) : Segment :=
  attempt (checkAutoRefund e force found) fun intent =>
    .update intentId (refundedWith e .holdRefunded intent.resolveIntentPrice "hold_auto_refund")
      fun updated => .waiting (.releasing intent.slotId (.ok (.intent updated)))

/-- The trimmed reason, or the default when nothing is left of it. -/
def normalizedReason (default : String) (reason : Option String) : String :=
  let trimmed := trim (reason.getD default)
  if trimmed = "" then default else trimmed

def checkRefund (actor : AuthContext) (found : Option BookingIntentRecord) :
    Except ServiceError BookingIntentRecord := do
  let intent ← requireFound found
  requireOwner actor "You are not authorized to refund this booking intent." intent
  -- an empty `refundedAt` is falsy
  require (intent.refundMetadata = none ∧ intent.refundedAt.getD "" = "")
    (fault 409 "Intent has already been refunded.")
  requireStatus .refund "Cannot refund intent with status " "." intent
  return intent

/-- Only an admin may backdate the cancellation. -/
def effectiveCancelledAtMs (e : Env) (actor : AuthContext) (input : RefundInput) :
    Except ServiceError ℚ :=
  if actor.role = "admin" then
    match input.cancelledAtMs with
    | none => .ok (e.nowMs .refund)
    | some none => .error (fault 400 "cancelledAtMs must be a valid number.")
    | some (some cancelledAtMs) => do
      require (cancelledAtMs ≤ e.nowMs .refund)
        (fault 400 "Admin override cancelledAtMs cannot be in the future.")
      return cancelledAtMs
  else .ok (e.nowMs .refund)

structure RefundAmounts where
  refundAmountCents : ℚ
  refundRatio : ℚ
  consumedRatio : ℚ
  breakdown : RefundBreakdown
  deriving DecidableEq, Repr

def refundAmounts (cfg : ServiceConfig) (e : Env) (intent : BookingIntentRecord)
    (cancelledAtMs : ℚ) : Except ServiceError RefundAmounts :=
  if cancelledAtMs < intent.startTime then do
    let breakdown ← (calculateRefund cfg.policyRegistry e.overrides (e.nowMs .refundTerms)
      intent).mapError .refund
    return { refundAmountCents := breakdown.netRefund
             refundRatio := (breakdown.tierApplied.map (·.refundRatio)).getD 0
             consumedRatio := 0
             breakdown }
  else do
    let summary ← (calculateDurationBasedRefund intent.resolveIntentPrice intent.startTime
      intent.endTime cancelledAtMs).mapError .refund
    return { refundAmountCents := summary.refundAmountCents
             refundRatio := summary.remainingRatio
             consumedRatio := summary.consumedRatio
             breakdown :=
               { fee := 0, taxReversal := 0, netRefund := summary.refundAmountCents
                 policyVersion := (intent.cancellationPolicySnapshot.map
                   (·.policyVersionId)).getD legacyV1VersionId
                 tierApplied := none
                 hoursUntilStart := hoursBetween cancelledAtMs intent.startTime
                 basePrice := intent.resolveIntentPrice
                 holdFee := 0 } }

def refundChecks (cfg : ServiceConfig) (e : Env) (actor : AuthContext) (input : RefundInput)
    (found : Option BookingIntentRecord) :
    Except ServiceError (BookingIntentRecord × RefundAmounts) := do
  let intent ← checkRefund actor found
  let cancelledAtMs ← effectiveCancelledAtMs e actor input
  let amounts ← refundAmounts cfg e intent cancelledAtMs
  return (intent, amounts)

def refundIntent (cfg : ServiceConfig) (e : Env) (actor : AuthContext) (input : RefundInput)
    (intentId : String) (found : Option BookingIntentRecord) : Segment :=
  attempt (refundChecks cfg e actor input found) fun (intent, amounts) =>
    let reason := normalizedReason "partial_refund" input.reason
    .update intentId (refundedWith e .cancelled amounts.refundAmountCents reason) fun updated =>
      .waiting (.releasing intent.slotId (.ok (.refund
        { intent := updated
          refundAmountCents := amounts.refundAmountCents
          refundRatio := amounts.refundRatio
          consumedRatio := amounts.consumedRatio
          reason
          policyVersionId := amounts.breakdown.policyVersion
          fee := amounts.breakdown.fee
          holdFee := amounts.breakdown.holdFee
          taxReversal := amounts.breakdown.taxReversal
          breakdown := amounts.breakdown })))

def resolveNoShowGraceMs (cfg : ServiceConfig) (e : Env) (slots : Slots) (slotId : String) : Int :=
  match cfg.noShowGraceMs with
  | some graceMs => graceMs
  | none => e.graceSeconds ((slots.findById slotId).bind (·.category)) * 1000

def forfeitRatio (input : NoShowInput) : Except ServiceError ℚ :=
  match input.forfeitRatio.getD (some (2 / 10)) with
  | some ratio => do
    require (0 < ratio ∧ ratio ≤ 1) (fault 400 "forfeitRatio must be a number between 0 and 1.")
    return ratio
  | none => .error (fault 400 "forfeitRatio must be a number between 0 and 1.")

def checkNoShow (cfg : ServiceConfig) (e : Env) (actor : AuthContext) (input : NoShowInput)
    (slots : Slots) (found : Option BookingIntentRecord) :
    Except ServiceError (BookingIntentRecord × ℚ) := do
  let intent ← requireFound found
  require (actor.role = "admin" ∨ intent.professional = actor.userId)
    (fault 403 "Only the supplier can mark this booking intent as a no-show.")
  requireStatus .noShow "Cannot mark intent with status " " as a no-show." intent
  let graceMs := resolveNoShowGraceMs cfg e slots intent.slotId
  require (intent.startTime + graceMs ≤ e.nowMs .noShow)
    (fault 409
      s!"Cannot mark a no-show before the booked slot has started (start time + {graceMs}ms grace).")
  let ratio ← forfeitRatio input
  return (intent, ratio)

/-- `markNoShow` up to the call of the strike service. -/
def markNoShow (cfg : ServiceConfig) (e : Env) (actor : AuthContext) (input : NoShowInput)
    (intentId : String) (found : Option BookingIntentRecord) (s : Store) : Segment :=
  attempt (checkNoShow cfg e actor input s.slots found) fun (intent, ratio) =>
    .await (.noShowStruck intentId intent (mathRound (intent.resolveIntentPrice * ratio))
      (normalizedReason "Buyer no-show" input.reason))

/-- `markNoShow` once the strike service has answered. -/
def noShowStruck (e : Env) (intentId : String) (intent : BookingIntentRecord)
    (forfeitAmountCents : Int) (reason : String) : Segment :=
  attempt (e.strike.mapError .strike) fun (strikeId, autoSuspended) =>
    .update intentId (fun stored => { stored with status := .noShow }) fun updated =>
      .waiting (.releasing intent.slotId (.ok (.noShow
        { intent := updated, status := updated.status, buyerId := intent.customerId,
          supplierId := intent.professional, forfeitAmountCents, strikeId, autoSuspended,
          reason })))

/-! ## The program -/

def transition (cfg : ServiceConfig) (e : Env) (intentId : String)
    (found : Option BookingIntentRecord) (s : Store) : IntentOp → Segment
  | .confirmIntent actor => confirmIntent e actor intentId found s
  | .cancelIntent actor => cancelIntent e actor intentId found
  | .refundIntent actor input => refundIntent cfg e actor input intentId found
  | .expireIntent => expireIntent intentId found fun updated => .ok (.intent updated)
  | .autoRefundHold force => autoRefundHold e force intentId found
  | .markNoShow actor input => markNoShow cfg e actor input intentId found s

/-- The code that runs when a continuation is resumed, up to its effect. -/
def segment (cfg : ServiceConfig) (e : Env) (s : Store) : Pc → Segment
  | .start (.createIntent input actor) =>
    attempt (checkSlot e input actor s.slots) fun slot =>
      .await (.createOwn input actor slot
        (s.intents.findBySlotIdAndCustomer input.slotId actor.userId))
  | .start (.transition op intentId) => .await (.loaded op intentId (s.intents.findById intentId))
  | .createOwn input actor slot existingForCustomer =>
    attempt (checkExistingForCustomer existingForCustomer) fun _ =>
      .await (.createForSlot input actor slot (s.intents.findBySlotId input.slotId))
  | .createForSlot input actor slot existingForSlot =>
    attempt (checkExistingForSlot existingForSlot) fun _ =>
      if slot.pricingStrategy.isSome then
        .await (.createPricing input actor slot s.intents.listAll)
      else createSnapshots cfg e input actor slot none
  | .createPricing input actor slot intents =>
    attempt ((resolvePricingSnapshot slot intents (e.nowMs .pricing)).mapError .pricing)
      fun pricing => createSnapshots cfg e input actor slot pricing
  | .createFx input actor slot snapshots base target =>
    attempt (captureFxRate e base target) fun fx =>
      createInsert e input actor slot snapshots (some fx)
  | .createReserve slotId intent => .reserve slotId (.intent intent)
  | .loaded op intentId found => transition cfg e intentId found s op
  -- the confirmation waits for the expiry, then throws; if the expiry
  -- throws, that error is the confirmation's
  | .confirmExpiring intentId found =>
    expireIntent intentId found fun _ =>
      .error (faultWithCode 409 "Hold has expired." "HOLD_EXPIRED")
  | .noShowStruck intentId intent forfeitAmountCents reason =>
    noShowStruck e intentId intent forfeitAmountCents reason
  | .releasing slotId outcome => .release slotId outcome
  | .rejected err => .throw err

def service (cfg : ServiceConfig) : Coop.Program Request Env Store Pc Outcome where
  start := .start
  resume e pc s := perform e (segment cfg e s pc) s

abbrev ServiceState := Coop.Sys Request Store Pc Outcome

abbrev ServiceCmd := Coop.Cmd Request Env

/-- The service over the given slots, before any request. -/
def opened (slots : Slots) : ServiceState := { shared := { slots } }

end ChronoPay
