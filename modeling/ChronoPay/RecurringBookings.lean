import Mathlib.Data.List.Infix
import ChronoPay.Lib.Lease
import ChronoPay.BookingIntentService

/-!
# RecurringBookings — `RecurringBookingRulesEngine`

One call books every occurrence of a recurrence rule, one after the
other: find a bookable slot at that instant, authorise, reserve it, and
only then persist the intent, releasing the slot again if that fails. A
failed occurrence goes into the report and the loop continues.

The expander of recurrence rules is a parameter. So are the two gates an
application injects: the transferability check, which blocks or lets
pass, and the capture of policy snapshots, which may throw.
-/

namespace ChronoPay

open IsoDate Result

/-! ## The rule text -/

/-- A valid `Date`, in ms. -/
structure Instant where
  ms : Int
  valid : -maxTime ≤ ms ∧ ms ≤ maxTime
  deriving DecidableEq, Repr

def Instant.toISOString (t : Instant) : String := isoText t.ms

/-- What the injected expander throws. -/
inductive ExpandError where
  | recurrence (message : String)
  | other (message : String)
  deriving DecidableEq, Repr

inductive RecurringBookingError where
  /-- RecurringBookingRulesError -/
  | rules (message : String)
  | other (message : String)
  deriving DecidableEq, Repr

/-- A `DTSTART` line without an explicit zone makes the rule ambiguous. -/
def ambiguousStart (normalized : String) : Bool :=
  match (splitLines normalized.toList).find? ("DTSTART".toList.isPrefixOf ·) with
  | none => false
  | some line =>
    ((line.dropWhile (· ≠ ':')).drop 1).getLast? ≠ some 'Z' &&
      !decide ("TZID=".toList <:+: normalized.toList)

def expand (expandRule : String → Except ExpandError (List Instant)) (rrule : String) :
    Except RecurringBookingError (List Instant) := do
  require (trim rrule ≠ "") (RecurringBookingError.rules "rrule must be a non-empty string")
  require (ambiguousStart (trim rrule) = false)
    (RecurringBookingError.rules "Ambiguous DTSTART: missing explicit timezone offset (Z or TZID)")
  match expandRule (trim rrule) with
  | .ok occurrences => .ok occurrences
  | .error (.recurrence message) => .error (.rules message)
  | .error (.other message) => .error (.other message)

/-! ## Requests and reports -/

structure RecurringBookingActor where
  userId : String
  role : Option String := none
  deriving DecidableEq, Repr

structure RecurringOptions where
  note : Option String := none
  bookingType : Option BookingType := none
  holdDeadlineMs : Option Int := none
  deriving DecidableEq, Repr

structure RecurringRequest where
  rrule : String
  actor : RecurringBookingActor
  opts : RecurringOptions := {}
  deriving DecidableEq, Repr

/-- Why an intent could not be persisted. -/
inductive PersistError where
  /-- "BookingIntent already exists for slot …" -/
  | conflict (slotId : String)
  | snapshots (message : String)
  | pricing (err : PricingError)
  deriving DecidableEq, Repr

inductive FailureReason where
  /-- "No available slot at this time" -/
  | noSlot
  /-- "Bundle … is not transferable" -/
  | notTransferable (slotId : String)
  /-- "Cannot book your own slot" -/
  | ownSlot
  /-- "Customer already has an intent for this slot" -/
  | customerHasIntent
  /-- "Slot already has active booking intent" -/
  | slotHasIntent
  /-- "Slot has already been booked" -/
  | alreadyBooked
  /-- The text of the SlotExpiredError. -/
  | expired (err : SchedulingError)
  /-- "Failed to reserve slot …: …" -/
  | reserveFailed (slotId : String) (err : SchedulingError)
  /-- "Failed to create booking intent: …" -/
  | createFailed (err : PersistError)
  deriving DecidableEq, Repr

/-- What `materializeOccurrence` returns. -/
inductive OccurrenceOutcome where
  | success (intent : BookingIntentRecord)
  | failure (reason : FailureReason)
  deriving DecidableEq, Repr

structure RecurringBookingFailure where
  date : String
  reason : FailureReason
  deriving DecidableEq, Repr

structure RecurringBookingReport where
  successes : List BookingIntentRecord := []
  failures : List RecurringBookingFailure := []
  deriving DecidableEq, Repr

def RecurringBookingReport.push (report : RecurringBookingReport) (occurrence : Instant) :
    OccurrenceOutcome → RecurringBookingReport
  | .success intent => { report with successes := report.successes ++ [intent] }
  | .failure reason =>
    { report with failures := report.failures ++ [⟨occurrence.toISOString, reason⟩] }

/-! ## The cooperative program -/

structure PolicySnapshots where
  cancellation : Option CancellationPolicySnapshot := none
  holdFee : Option HoldFeePolicySnapshot := none
  deriving DecidableEq, Repr

structure RecurringEnv where
  /-- The clock read when a price is captured. -/
  nowMs : Int
  createdAt : String
  holdPlacedAt : String
  dateNow : Int
  escrowPaused : Bool := false
  /-- The injected gate lets the actor book the slot. -/
  transferable : SlotRecord → RecurringBookingActor → Bool := fun _ _ => true
  /-- The injected capture, or the message it throws. -/
  capturePolicySnapshots : String → Except String PolicySnapshots := fun _ => .ok {}

/-- The locals of the loop: the request, the report so far and the
occurrences after the current one. -/
structure Progress where
  request : RecurringRequest
  report : RecurringBookingReport
  rest : List Instant
  deriving DecidableEq, Repr

inductive RecurringPc where
  | start (request : RecurringRequest)
  /-- The loop after `await materializeOccurrence`. -/
  | next (p : Progress)
  /-- After `await findBySlotIdAndCustomer`. -/
  | ownRead (p : Progress) (t : Instant) (slot : SlotRecord) (found : Option BookingIntentRecord)
  /-- After `await findBySlotId`. -/
  | slotRead (p : Progress) (t : Instant) (slot : SlotRecord) (found : Option BookingIntentRecord)
  /-- After `await listAll`, with the slot reserved. -/
  | pricing (p : Progress) (t : Instant) (slot : SlotRecord) (snapshots : PolicySnapshots)
      (intents : List BookingIntentRecord)
  /-- After `await create` resolved. -/
  | persisted (p : Progress) (t : Instant) (intent : BookingIntentRecord)
  /-- After `await create` rejected, with the slot reserved. -/
  | refused (p : Progress) (t : Instant) (slotId : String)
  deriving DecidableEq, Repr

abbrev RecurringTask := Coop.Task RecurringPc (Except RecurringBookingError RecurringBookingReport)

/-- `materializeOccurrence` returned: push its outcome, then loop. -/
def conclude (p : Progress) (t : Instant) (outcome : OccurrenceOutcome) : RecurringTask :=
  .waiting (.next { p with report := p.report.push t outcome })

def fail (p : Progress) (t : Instant) (reason : FailureReason) : RecurringTask :=
  conclude p t (.failure reason)

/-- The start of `materializeOccurrence`, up to its first await. -/
def findSlot (e : RecurringEnv) (p : Progress) (t : Instant) (s : Store) : RecurringTask :=
  match s.slots.find? fun slot => slot.startTime = t.ms && slot.bookable with
  | none => fail p t .noSlot
  | some slot =>
    if e.transferable slot p.request.actor = false then fail p t (.notTransferable slot.id)
    else if slot.professional = p.request.actor.userId then fail p t .ownSlot
    else .waiting (.ownRead p t slot
      (s.intents.findBySlotIdAndCustomer slot.id p.request.actor.userId))

/-- The head of the loop. -/
def advance (e : RecurringEnv) (p : Progress) (s : Store) : RecurringTask :=
  match p.rest with
  | [] => .done (.ok p.report)
  | t :: rest => findSlot e { p with rest } t s

def reserveFailure (slotId : String) : SchedulingError → FailureReason
  | .slotNotBookable _ => .alreadyBooked
  | .slotExpired id validUntil iso => .expired (.slotExpired id validUntil iso)
  | .slotNotFound _ => .noSlot
  | err => .reserveFailed slotId err

def occurrenceDraft (e : RecurringEnv) (p : Progress) (slot : SlotRecord)
    (snapshots : PolicySnapshots) (pricingSnapshot : Option PricingSnapshot) :
    BookingIntentRecord :=
  let isRefundableHold : Bool := p.request.opts.bookingType = some .refundableHold
  { slotId := slot.id
    professional := slot.professional
    customerId := p.request.actor.userId
    startTime := slot.startTime
    endTime := slot.endTime
    status := if isRefundableHold then .holdPlaced else .pending
    note := p.request.opts.note
    createdAt := e.createdAt
    bookingType := some (p.request.opts.bookingType.getD .standard)
    holdPlacedAt := if isRefundableHold then some e.holdPlacedAt else none
    holdUntilMs := if isRefundableHold then p.request.opts.holdDeadlineMs else none
    pricingSnapshot
    cancellationPolicySnapshot := snapshots.cancellation
    holdFeePolicySnapshot := snapshots.holdFee }

/-- `await create(…)`, with the slot reserved. -/
def persist (e : RecurringEnv) (p : Progress) (t : Instant) (slot : SlotRecord)
    (snapshots : PolicySnapshots) (pricing : Option PricingSnapshot) (s : Store) :
    Store × RecurringTask :=
  match s.intents.create (occurrenceDraft e p slot snapshots pricing) with
  | none => (s, .waiting (.refused p t slot.id))
  | some (intents, intent) => ({ s with intents }, .waiting (.persisted p t intent))

/-- The compensation: release, then report the failure. -/
def compensate (p : Progress) (t : Instant) (slotId : String) (err : PersistError) (s : Store) :
    Store × RecurringTask :=
  ({ s with slots := releaseSlotBestEffort slotId s.slots }, fail p t (.createFailed err))

/-- Reserve, capture the snapshots and persist, up to the next await. -/
def reserveAndPersist (e : RecurringEnv) (p : Progress) (t : Instant) (slot : SlotRecord)
    (s : Store) : Store × RecurringTask :=
  match reserveSlot { escrowPaused := e.escrowPaused } none e.dateNow slot.id s.slots with
  | .error err => (s, fail p t (reserveFailure slot.id err))
  | .ok slots =>
    match e.capturePolicySnapshots slot.professional with
    | .error message => compensate p t slot.id (.snapshots message) { s with slots }
    | .ok snapshots =>
      if slot.pricingStrategy.isSome then
        ({ s with slots }, .waiting (.pricing p t slot snapshots s.intents.listAll))
      else persist e p t slot snapshots none { s with slots }

def recurringResume (expandRule : String → Except ExpandError (List Instant)) (e : RecurringEnv)
    (pc : RecurringPc) (s : Store) : Store × RecurringTask :=
  match pc with
  | .start request =>
    match expand expandRule request.rrule with
    | .error err => (s, .done (.error err))
    | .ok occurrences => (s, advance e ⟨request, {}, occurrences⟩ s)
  | .next p => (s, advance e p s)
  | .ownRead p t slot found =>
    if found.isSome then (s, fail p t .customerHasIntent)
    else (s, .waiting (.slotRead p t slot (s.intents.findBySlotId slot.id)))
  | .slotRead p t slot found =>
    if found.isSome then (s, fail p t .slotHasIntent)
    else reserveAndPersist e p t slot s
  | .pricing p t slot snapshots intents =>
    match resolvePricingSnapshot slot intents e.nowMs with
    | .error err => compensate p t slot.id (.pricing err) s
    | .ok pricing => persist e p t slot snapshots pricing s
  | .persisted p t intent => (s, conclude p t (.success intent))
  | .refused p t slotId => compensate p t slotId (.conflict slotId) s

def recurringEngine (expandRule : String → Except ExpandError (List Instant)) :
    Coop.Program RecurringRequest RecurringEnv Store RecurringPc
      (Except RecurringBookingError RecurringBookingReport) where
  start := .start
  resume := recurringResume expandRule

abbrev RecurringState := Coop.Sys RecurringRequest Store RecurringPc
  (Except RecurringBookingError RecurringBookingReport)

end ChronoPay
