import Mathlib.Data.List.Sort
import ChronoPay.Reservation

/-!
# MultiLegReschedule — planning and confirming a reschedule

A multi-leg booking is moved as a whole: `planMultiLegReschedule` tries
anchor times and picks a slot for every leg from ONE snapshot of the
inventory, leg by leg; `confirmMultiLegReschedule` releases the old
slots, reserves the new ones, and on a failure undoes both through the
same guarded operations, whose errors it swallows.

Both are synchronous. Clocks are read once per reservation, so a clock
is given by the reading at each of them.
-/

namespace ChronoPay

open Result

structure MultiLegBookingLeg where
  legId : String
  slotId : String
  professional : String
  startTime : Int
  endTime : Int
  offsetMs : Option Int := none
  deriving DecidableEq, Repr

structure MultiLegBooking where
  bookingId : String
  buyerId : String
  tenantId : Option String := none
  legs : List MultiLegBookingLeg
  deriving DecidableEq, Repr

structure RescheduleLegOverride where
  legId : String
  offsetOverrideMs : Option Int := none
  newSlotId : Option String := none
  skipReschedule : Option Bool := none
  deriving DecidableEq, Repr

structure SearchWindow where
  startMs : Int
  endMs : Int
  deriving DecidableEq, Repr

/-- `legOverrides` comes as an array or as an object keyed by leg id. -/
inductive LegOverrides where
  | array (overrides : List RescheduleLegOverride)
  | record (entries : List (String × RescheduleLegOverride))
  deriving DecidableEq, Repr

structure RescheduleOptions where
  buyerId : String
  tenantId : Option String := none
  targetAnchorStartTimeMs : Option Int := none
  searchWindow : Option SearchWindow := none
  legOverrides : Option LegOverrides := none
  maxOptions : Option Int := none
  searchStepMs : Option Int := none
  deriving DecidableEq, Repr

structure CandidateLegSchedule where
  legId : String
  currentSlotId : String
  newSlotId : String
  professional : String
  currentStartTime : Int
  newStartTime : Int
  newEndTime : Int
  durationMs : Int
  offsetMs : Int
  isOverridden : Bool
  isPartialKept : Bool
  deriving DecidableEq, Repr

structure RescheduleCandidateOption where
  optionId : String
  anchorStartTimeMs : Int
  legs : List CandidateLegSchedule
  totalDisruptionMs : Int
  disruptionScore : Int
  isFullyAvailable : Bool
  deriving DecidableEq, Repr

inductive RescheduleError where
  | tenantPaused (tenantId : String)
  /-- InvalidRescheduleRequestError -/
  | invalidRequest (message : String)
  /-- ImpossibleRescheduleError -/
  | impossible (bookingId reason : String)
  /-- "Failed to confirm reschedule for booking …: …" -/
  | confirmFailed (bookingId : String) (cause : SchedulingError)
  deriving DecidableEq, Repr

/-- Both ids are given and differ; an empty id is falsy. -/
def buyerMismatch (owner buyer : String) : Prop := owner ≠ "" ∧ buyer ≠ "" ∧ owner ≠ buyer

instance (owner buyer : String) : Decidable (buyerMismatch owner buyer) :=
  inferInstanceAs (Decidable (_ ∧ _ ∧ _))

def requireTenant (switches : Switches) (tenantId : Option String) : Except RescheduleError Unit :=
  match switches.pausedTenant tenantId with
  | some tenant => .error (.tenantPaused tenant)
  | none => .ok ()

/-! ## Planning -/

/-- `legOverridesMap.get(legId)`: a later entry replaces an earlier one. -/
def LegOverrides.get (overrides : LegOverrides) (legId : String) : Option RescheduleLegOverride :=
  match overrides with
  | array overrides => overrides.reverse.find? fun override => override.legId = legId
  | record entries => (entries.reverse.find? fun entry => entry.1 = legId).map Prod.snd

structure LegConfig where
  leg : MultiLegBookingLeg
  offsetMs : Int
  durationMs : Int
  override : Option RescheduleLegOverride
  isOverridden : Bool
  skipReschedule : Bool
  deriving DecidableEq, Repr

def legConfig (legOverrides : Option LegOverrides) (leg0StartTime : Int)
    (leg : MultiLegBookingLeg) : LegConfig :=
  let override := legOverrides.bind (·.get leg.legId)
  let offsetOverride := override.bind (·.offsetOverrideMs)
  { leg
    offsetMs := offsetOverride.getD (leg.offsetMs.getD (leg.startTime - leg0StartTime))
    durationMs := leg.endTime - leg.startTime
    override
    isOverridden := offsetOverride.isSome || (override.bind (·.newSlotId)).isSome
    skipReschedule := (override.bind (·.skipReschedule)).getD false }

/-- The values of `for (t = start; t <= end; t += step)`; `none` when the
loop does not end. -/
def loopValues (start stop step : Int) : Option (List Int) :=
  if stop < start then some []
  else if step ≤ 0 then none
  else some ((List.range ((stop - start) / step + 1).toNat).map fun i => start + i * step)

/-- `searchStepMs ?? 30 minutes`. -/
def RescheduleOptions.stepMs (options : RescheduleOptions) : Int :=
  options.searchStepMs.getD (30 * 60 * 1000)

def candidateAnchors (options : RescheduleOptions) (leg0StartTime : Int) : Option (List Int) :=
  match options.targetAnchorStartTimeMs, options.searchWindow with
  | some target, window =>
    let searchStart := (window.map (·.startMs)).getD (target - 2 * 3600000)
    let searchEnd := (window.map (·.endMs)).getD (target + 2 * 3600000)
    (loopValues searchStart searchEnd options.stepMs).map fun ts =>
      target :: ts.filter (· ≠ target)
  | none, some window => loopValues window.startMs window.endMs options.stepMs
  | none, none =>
    (loopValues options.stepMs (4 * 3600000) options.stepMs).map fun offsets =>
      leg0StartTime :: offsets.flatMap fun offset =>
        [leg0StartTime + offset, leg0StartTime - offset]

/-- The slot is the professional's and bookable, or the leg's own. -/
def usable (leg : MultiLegBookingLeg) (slot : SlotRecord) : Bool :=
  slot.professional = leg.professional && (slot.bookable || slot.id = leg.slotId)

/-- The slot for a leg at its new time: the one the override names, an
exact match, or one that contains the time. -/
def chooseSlot (allSlots : Slots) (config : LegConfig) (newStart newEnd : Int) : Option String :=
  match (config.override.bind (·.newSlotId)).filter (· ≠ "") with
  | some newSlotId =>
    ((allSlots.find? fun slot => slot.id = newSlotId).filter fun slot =>
      usable config.leg slot && slot.startTime = newStart && slot.endTime = newEnd).map (·.id)
  | none =>
    ((allSlots.find? fun slot =>
        usable config.leg slot && slot.startTime = newStart && slot.endTime = newEnd).or
      (allSlots.find? fun slot =>
        usable config.leg slot && slot.startTime ≤ newStart && newEnd ≤ slot.endTime)).map (·.id)

def proposeLeg (allSlots : Slots) (anchorStartMs : Int) (config : LegConfig) :
    Option CandidateLegSchedule :=
  let leg := config.leg
  let proposal (newSlotId : String) (newStart newEnd : Int) : CandidateLegSchedule :=
    { legId := leg.legId, currentSlotId := leg.slotId, newSlotId,
      professional := leg.professional, currentStartTime := leg.startTime,
      newStartTime := newStart, newEndTime := newEnd, durationMs := config.durationMs,
      offsetMs := config.offsetMs, isOverridden := config.isOverridden,
      isPartialKept := config.skipReschedule }
  if config.skipReschedule then some (proposal leg.slotId leg.startTime leg.endTime)
  else
    let newStart := anchorStartMs + config.offsetMs
    let newEnd := newStart + config.durationMs
    (chooseSlot allSlots config newStart newEnd).map fun newSlotId =>
      proposal newSlotId newStart newEnd

/-- The legs for one anchor, if every leg finds a slot. -/
def proposeLegs (allSlots : Slots) (configs : List LegConfig) (anchorStartMs : Int) :
    Option (List CandidateLegSchedule) :=
  if anchorStartMs ≤ 0 then none else configs.mapM (proposeLeg allSlots anchorStartMs)

def disruption (legs : List CandidateLegSchedule) : Int :=
  (legs.map fun leg => |leg.newStartTime - leg.currentStartTime|).sum

/-- `list.slice(0, n)`; a negative `n` counts from the end. -/
def sliceTo {α : Type} (n : Int) (l : List α) : List α :=
  if 0 ≤ n then l.take n.toNat else l.take (l.length - (-n).toNat)

/-- The options for all anchors in order; `uuid i` is the i-th random id. -/
def candidateOptions (uuid : Nat → String) (allSlots : Slots) (configs : List LegConfig)
    (anchors : List Int) : List RescheduleCandidateOption :=
  (anchors.filterMap fun anchor =>
    (proposeLegs allSlots configs anchor).map fun legs => (anchor, legs)).mapIdx
      fun i (anchor, legs) =>
        { optionId := "opt_" ++ uuid i, anchorStartTimeMs := anchor, legs,
          totalDisruptionMs := disruption legs, disruptionScore := disruption legs,
          isFullyAvailable := true }

def checkPlan (switches : Switches) (booking : MultiLegBooking) (options : RescheduleOptions) :
    Except RescheduleError Unit := do
  requireTenant switches (options.tenantId.or booking.tenantId)
  require (booking.legs ≠ [])
    (RescheduleError.invalidRequest "Booking must contain at least one leg")
  require (¬ buyerMismatch booking.buyerId options.buyerId)
    (RescheduleError.invalidRequest (s!"Buyer {options.buyerId} is not authorized to reschedule "
      ++ s!"booking owned by {booking.buyerId}"))

/-- The legs sorted by start time, configured relative to the first. -/
def legConfigs (booking : MultiLegBooking) (options : RescheduleOptions) : List LegConfig :=
  let sortedLegs := booking.legs.insertionSort (·.startTime ≤ ·.startTime)
  sortedLegs.map (legConfig options.legOverrides ((sortedLegs.head?.map (·.startTime)).getD 0))

/-- `planMultiLegReschedule`; `none` when the search does not end. -/
def planMultiLegReschedule (switches : Switches) (uuid : Nat → String) (allSlots : Slots)
    (booking : MultiLegBooking) (options : RescheduleOptions) :
    Option (Except RescheduleError (List RescheduleCandidateOption)) :=
  match checkPlan switches booking options with
  | .error err => some (.error err)
  | .ok _ =>
    let configs := legConfigs booking options
    let leg0StartTime := (configs.head?.map (·.leg.startTime)).getD 0
    (candidateAnchors options leg0StartTime).map fun anchors =>
      match candidateOptions uuid allSlots configs anchors with
      | [] => .error (.impossible booking.bookingId
          "No candidate slot combinations available preserving requested leg offsets")
      | found => .ok (sliceTo (options.maxOptions.getD 3)
          (found.insertionSort (·.disruptionScore ≤ ·.disruptionScore)))

/-! ## Confirming -/

structure ConfirmRescheduleRequest where
  bookingId : String
  buyerId : String
  candidateOption : RescheduleCandidateOption
  multiLegBooking : MultiLegBooking
  deriving DecidableEq, Repr

structure ConfirmRescheduleResult where
  bookingId : String
  sagaExecutionId : String
  status : String
  updatedLegs : List CandidateLegSchedule
  confirmedAtMs : Int
  deriving DecidableEq, Repr

/-- What the outside decides during one confirmation: the clock at the
i-th reservation of a new slot, at the i-th attempt to take an old slot
back, and at the end; and the random id. -/
structure ConfirmEnv where
  reserveNow : Nat → Int
  retryNow : Nat → Int
  confirmedAtMs : Int
  uuid : String

/-- The leg changes its slot. -/
def CandidateLegSchedule.moved (leg : CandidateLegSchedule) : Bool :=
  !leg.isPartialKept && leg.currentSlotId ≠ leg.newSlotId

/-- Step 1: release the old slots; a failed release is not recorded. -/
def releaseOld : List String → Slots → Slots × List String
  | [], slots => (slots, [])
  | slotId :: rest, slots =>
    match releaseSlot slotId slots with
    | .error _ => releaseOld rest slots
    | .ok slots' => ((releaseOld rest slots').1, slotId :: (releaseOld rest slots').2)

/-- The rollback's reservations: each one that fails is ignored. -/
def reserveAgain (switches : Switches) (now : Nat → Int) : Nat → List String → Slots → Slots
  | _, [], slots => slots
  | i, slotId :: rest, slots =>
    match reserveSlot switches none (now i) slotId slots with
    | .error _ => reserveAgain switches now (i + 1) rest slots
    | .ok slots' => reserveAgain switches now (i + 1) rest slots'

def checkConfirmReschedule (switches : Switches) (request : ConfirmRescheduleRequest) :
    Except RescheduleError Unit := do
  requireTenant switches request.multiLegBooking.tenantId
  require (¬ buyerMismatch request.multiLegBooking.buyerId request.buyerId)
    (RescheduleError.invalidRequest
      (s!"Buyer {request.buyerId} is not authorized to confirm reschedule for booking owned by "
        ++ request.multiLegBooking.buyerId))
  require (request.candidateOption.legs ≠ [])
    (RescheduleError.invalidRequest "Invalid candidate option provided for confirmation")

def RescheduleCandidateOption.oldSlots (option : RescheduleCandidateOption) : List String :=
  (option.legs.filter (·.moved)).map (·.currentSlotId)

def RescheduleCandidateOption.newSlots (option : RescheduleCandidateOption) : List String :=
  (option.legs.filter (·.moved)).map (·.newSlotId)

def confirmMultiLegReschedule (switches : Switches) (env : ConfirmEnv)
    (request : ConfirmRescheduleRequest) (slots : Slots) :
    Slots × Except RescheduleError ConfirmRescheduleResult :=
  match checkConfirmReschedule switches request with
  | .error err => (slots, .error err)
  | .ok _ =>
    let option := request.candidateOption
    let (slots', releasedSlotIds) := releaseOld option.oldSlots slots
    match reserveEach switches env.reserveNow 0 option.newSlots slots' with
    | (slots'', reservedSlotIds, some err) =>
      (reserveAgain switches env.retryNow 0 releasedSlotIds (releaseAll reservedSlotIds slots''),
        .error (.confirmFailed request.bookingId err))
    | (slots'', _, none) =>
      (slots'', .ok { bookingId := request.bookingId, sagaExecutionId := "saga_" ++ env.uuid,
                      status := "reexecuted", updatedLegs := option.legs,
                      confirmedAtMs := env.confirmedAtMs })

end ChronoPay
