import ChronoPay.BookingIntentService

/-!
# EscrowProjector — escrow events and `EscrowStateProjector`

An escrow event names a slot and perhaps an intent. The projector finds
the intent, compares its status with the one the event leads to, and
moves it along the edge the table has for the event, freeing the slot
when the booking is over. Everything it refuses is a no-op with a
reason; it only throws when a repository does.
-/

namespace ChronoPay

open KeyedList

inductive EscrowEventKind where
  | held
  | captured
  | released
  | refunded
  | slashed
  deriving DecidableEq, Repr

def EscrowEventKind.text : EscrowEventKind → String
  | held => "Held"
  | captured => "Captured"
  | released => "Released"
  | refunded => "Refunded"
  | slashed => "Slashed"

structure EscrowEvent where
  kind : EscrowEventKind
  txHash : String
  eventIndex : Nat
  ledgerSeq : Nat
  /-- The instant of the close time, in ms. -/
  closeTime : Int
  contractAddress : String
  slotId : String
  bookingIntentId : Option String := none
  deriving DecidableEq, Repr

/-- The idempotency key of an event. -/
def eventKey (event : EscrowEvent) : String := s!"{event.txHash.toLower}:{event.eventIndex}"

inductive ProjectionResultKind where
  | applied
  | noopUnknownIntent
  | noopSlotAlready
  | noopTerminalIntent
  | noopIllegalTransition
  | noopRejectedAddress
  deriving DecidableEq, Repr

structure ProjectionOutcome where
  result : ProjectionResultKind
  intent : Option BookingIntentRecord
  reason : String
  slotFreed : Bool
  deriving DecidableEq, Repr

/-- The repositories' plain errors, which the projector does not catch. -/
inductive ProjectionError where
  | intentNotFound (id : String)
  | slotRowMissing (slotId : String)
  /-- A repository call failed, before it wrote anything. -/
  | unavailable
  deriving DecidableEq, Repr

namespace EscrowStateProjector

def noop (result : ProjectionResultKind) (reason : String)
    (intent : Option BookingIntentRecord) : ProjectionOutcome :=
  { result, reason, intent, slotFreed := false }

/-- `TARGET_BY_KIND`. -/
def targetByKind : EscrowEventKind → BookingIntentStatus
  | .held => .confirmed
  | .captured => .firm
  | .released => .cancelled
  | .refunded => .cancelled
  | .slashed => .expired

/-- `STATUS_TRANSITIONS`. -/
def statusTransitions : BookingIntentStatus → List (EscrowEventKind × BookingIntentStatus)
  | .pending =>
    [(.held, .confirmed), (.released, .cancelled), (.refunded, .cancelled), (.slashed, .expired)]
  | .confirmed =>
    [(.captured, .firm), (.released, .cancelled), (.refunded, .cancelled), (.slashed, .expired)]
  | .firm => [(.released, .cancelled), (.refunded, .cancelled), (.slashed, .expired)]
  | .holdPlaced =>
    [(.held, .confirmed), (.captured, .firm), (.released, .cancelled), (.refunded, .cancelled),
      (.slashed, .expired)]
  | .holdRefunded | .cancelled | .expired | .escrowHeld | .escrowReleased | .escrowRefunded
  | .escrowDisputed | .noShow => []

/-- An id on the event is authoritative: no fallback to the slot. -/
def findActiveIntent (event : EscrowEvent) (intents : BookingIntents) :
    Option BookingIntentRecord :=
  match event.bookingIntentId.filter (· ≠ "") with
  | some id =>
    match intents.findById id with
    | none => none
    | some byId => if byId.slotId ≠ event.slotId then none else some byId
  | none => intents.findLatestBySlotId event.slotId

def tryReleaseSlot (slotId : String) (slots : Slots) : Except ProjectionError (Slots × Bool) :=
  match slots.findById slotId with
  | none => .ok (slots, false)
  | some slot =>
    if slot.bookable then .ok (slots, false)
    else match releaseSlot slotId slots with
      | .ok slots' => .ok (slots', true)
      | .error _ => .error (.slotRowMissing slotId)

def transition (intent : BookingIntentRecord) (nextStatus : BookingIntentStatus)
    (event : EscrowEvent) (store : Store) : Except ProjectionError (Store × ProjectionOutcome) :=
  match store.intents.updateStatus intent.id nextStatus with
  | none => .error (.intentNotFound intent.id)
  | some (intents, updated) => do
    let (slots, slotFreed) ←
      if nextStatus ≠ .confirmed ∧ nextStatus ≠ .firm then tryReleaseSlot event.slotId store.slots
      else .ok (store.slots, false)
    return ({ slots, intents },
      { result := .applied
        intent := some updated
        reason := s!"applied {event.kind.text} -> {nextStatus.text}"
        slotFreed })

def project (contractAddressAllowList : List String) (event : EscrowEvent) (store : Store) :
    Except ProjectionError (Store × ProjectionOutcome) :=
  if event.contractAddress ∉ contractAddressAllowList then
    .ok (store, noop .noopRejectedAddress s!"contract {event.contractAddress} not in allow-list"
      none)
  else match findActiveIntent event store.intents with
  | none => .ok (store, noop .noopUnknownIntent s!"no active intent for slot {event.slotId}" none)
  | some intent =>
    let target := targetByKind event.kind
    if intent.status = target then
      .ok (store, noop .noopSlotAlready
        s!"intent {intent.id} already {target.text} ({eventKey event})" (some intent))
    else if intent.status = .cancelled ∨ intent.status = .expired then
      .ok (store, noop .noopTerminalIntent
        (s!"intent {intent.id} is terminal ({intent.status.text}); " ++
          s!"cannot apply {event.kind.text} → {target.text}") (some intent))
    else if (statusTransitions intent.status).all fun edge => edge.1 ≠ event.kind then
      .ok (store, noop .noopIllegalTransition
        (s!"(intent {intent.id}) {event.kind.text} → {target.text} " ++
          s!"not legal from status {intent.status.text}") (some intent))
    else transition intent target event store

theorem findActiveIntent_mem {event : EscrowEvent} {intents : BookingIntents}
    {intent : BookingIntentRecord} (h : findActiveIntent event intents = some intent) :
    intent ∈ intents.intents := by
  unfold findActiveIntent at h
  split at h
  · split at h
    · cases h
    next byId hbyId =>
      split at h
      · cases h
      · cases h
        exact mem_of_get hbyId
  · exact List.mem_of_mem_filter (BookingIntents.findLatestBySlotId_mem_filter h)

/-- The intent the projector works on is stored under its id. -/
theorem findActiveIntent_stored {event : EscrowEvent} {intents : BookingIntents}
    {intent : BookingIntentRecord} (h : findActiveIntent event intents = some intent) :
    (intents.findById intent.id).isSome = true := by
  rw [Option.isSome_iff_ne_none]
  intro hnone
  exact get_eq_none.mp hnone intent (findActiveIntent_mem h) rfl

end EscrowStateProjector

end ChronoPay
