import ChronoPay.EscrowProjector

/-!
# EscrowDrift — `EscrowDriftReconciler.compareStates`

The reconciler has its own map from event kinds to statuses, beside the
projector's. The two agree on what they both know; `Captured` is not in
the reconciler's, nor `firm` in its statuses, and a missing status on
either side counts as agreement.
-/

namespace ChronoPay

open Option

namespace EscrowDrift

open EscrowStateProjector

inductive LocalIntentStatus where
  | pending
  | confirmed
  | cancelled
  | expired
  deriving DecidableEq, Repr

def LocalIntentStatus.status : LocalIntentStatus → BookingIntentStatus
  | pending => .pending
  | confirmed => .confirmed
  | cancelled => .cancelled
  | expired => .expired

structure SlotEscrowState where
  slotId : String
  latestEventKind : Option EscrowEventKind
  latestTxHash : Option String
  latestLedgerSeq : Int
  bookingIntentId : Option String
  eventCount : Nat
  deriving DecidableEq, Repr

structure LocalSlotState where
  slotId : String
  intentStatus : Option LocalIntentStatus
  lastKnownTxHash : Option String
  lastKnownEventKind : Option String
  deriving DecidableEq, Repr

structure DriftedSlot where
  slotId : String
  chainState : SlotEscrowState
  localState : LocalSlotState
  description : String
  deriving DecidableEq, Repr

def mapChainEventToIntentStatus : Option EscrowEventKind → Option LocalIntentStatus
  | some .held => some .confirmed
  | some .released | some .refunded => some .cancelled
  | some .slashed => some .expired
  | _ => none

/-- The last check, on the statuses. -/
def compareStatuses (chainState : SlotEscrowState) (localState : LocalSlotState) : Option String :=
  match mapChainEventToIntentStatus chainState.latestEventKind, localState.intentStatus with
  | some expectedStatus, some intentStatus =>
    if expectedStatus ≠ intentStatus then
      let kind := (chainState.latestEventKind.map EscrowEventKind.text).getD "null"
      some (s!"Intent status mismatch: chain expects \"{expectedStatus.status.text}\" " ++
        s!"(event {kind}) but local DB has \"{intentStatus.status.text}\"")
    else none
  | _, _ => none

def compareStates (slotId : String) (chainState : SlotEscrowState) (localState : LocalSlotState) :
    Option DriftedSlot :=
  let description : Option String :=
    match chainState.latestTxHash, localState.lastKnownTxHash with
    | some chainTx, none =>
      some s!"Chain has event tx {chainTx} but local DB has no escrow events for this slot"
    | none, some localTx =>
      some (s!"Local DB has event tx {localTx} but chain has no escrow events for this slot " ++
        "(possible reorg)")
    | some chainTx, some localTx =>
      if chainTx ≠ localTx then
        some s!"Tx hash mismatch: chain has {chainTx} but local DB has {localTx}"
      else compareStatuses chainState localState
    | none, none => compareStatuses chainState localState
  description.map fun description => { slotId, chainState, localState, description }

/-! ## The chain's history -/

/-- What a reader of the chain says of the slot after these events. -/
def chainState (slotId : String) (events : List EscrowEvent) : SlotEscrowState where
  slotId
  latestEventKind := events.getLast?.map EscrowEvent.kind
  latestTxHash := events.getLast?.map EscrowEvent.txHash
  latestLedgerSeq := (events.getLast?.map fun event => (event.ledgerSeq : Int)).getD (-1)
  bookingIntentId := events.getLast?.bind EscrowEvent.bookingIntentId
  eventCount := events.length

/-- Where the projector takes an intent, if the event is legal for it. -/
def advance (status : BookingIntentStatus) (event : EscrowEvent) : Option BookingIntentStatus :=
  if (statusTransitions status).all fun edge => edge.1 ≠ event.kind then none
  else some (targetByKind event.kind)

/-- The status after a history of legal events. -/
def reached (status : BookingIntentStatus) (events : List EscrowEvent) :
    Option BookingIntentStatus := events.foldlM advance status

variable {start final : BookingIntentStatus} {events : List EscrowEvent}

/-- The last event alone decides where a legal history ends. -/
theorem reached_eq_some (h : reached start events = some final) :
    final = ((events.getLast?.map EscrowEvent.kind).map targetByKind).getD start := by
  induction events generalizing start with
  | nil => simpa [reached, eq_comm] using h
  | cons event rest ih =>
    obtain ⟨next, hnext, hrest⟩ := bind_eq_some_iff.mp h
    have hfinal := ih hrest
    have hadvance : next = targetByKind event.kind := by
      unfold advance at hnext
      split at hnext
      · cases hnext
      · exact (Option.some.inj hnext).symm
    cases rest with
    | nil => simpa [hadvance] using hfinal
    | cons other rest => simpa [List.getLast?_cons_cons, List.getLast?_cons] using hfinal

/-- The two tables agree on what the reconciler knows. -/
theorem mapChainEventToIntentStatus_target (kind : EscrowEventKind) :
    (mapChainEventToIntentStatus (some kind)).map LocalIntentStatus.status
      = if kind = .captured then none else some (targetByKind kind) := by
  cases kind <;> rfl

theorem status_injective : Function.Injective LocalIntentStatus.status := by
  intro a b h
  cases a <;> cases b <;> first | rfl | cases h

theorem compareStates_isSome {slotId : String} {state : LocalSlotState}
    (hhash : state.lastKnownTxHash = (chainState slotId events).latestTxHash) :
    (compareStates slotId (chainState slotId events) state).isSome = true ↔
      ∃ expected ∈ mapChainEventToIntentStatus (events.getLast?.map EscrowEvent.kind),
        ∃ status ∈ state.intentStatus, expected ≠ status := by
  have hcompare : (compareStates slotId (chainState slotId events) state).isSome
      = (compareStatuses (chainState slotId events) state).isSome := by
    unfold compareStates
    rw [hhash]
    cases (chainState slotId events).latestTxHash <;> simp
  rw [hcompare, compareStatuses, chainState]
  cases mapChainEventToIntentStatus (events.getLast?.map EscrowEvent.kind) with
  | none => simp
  | some expected =>
    cases state.intentStatus with
    | none => simp
    | some status => by_cases heq : expected = status <;> simp [heq]

/-- **When the reconciler is right**: with the same last transaction on
both sides it reports drift exactly for a status the projector would not
have left, if the local status is that one, or if there is a local status
and a last event that is not a capture; and in no other case. -/
theorem compareStates_exact_iff {slotId : String} {state : LocalSlotState}
    (hlegal : reached start events = some final)
    (hhash : state.lastKnownTxHash = (chainState slotId events).latestTxHash) :
    ((compareStates slotId (chainState slotId events) state).isSome = true ↔
        state.intentStatus.map LocalIntentStatus.status ≠ some final) ↔
      state.intentStatus.map LocalIntentStatus.status = some final ∨
        state.intentStatus ≠ none ∧ ∃ last ∈ events.getLast?, last.kind ≠ .captured := by
  have hfinal := reached_eq_some hlegal
  rw [compareStates_isSome hhash]
  cases hlast : events.getLast? with
  | none => simp [mapChainEventToIntentStatus]
  | some last =>
    have htables := mapChainEventToIntentStatus_target last.kind
    simp only [hlast, map_some, getD_some] at hfinal ⊢
    by_cases hcaptured : last.kind = .captured
    · simp [hcaptured, mapChainEventToIntentStatus]
    · rw [if_neg hcaptured, ← hfinal] at htables
      obtain ⟨expected, hexpected, hstatus⟩ := map_eq_some_iff.mp htables
      cases state.intentStatus with
      | none => simp [hexpected]
      | some status =>
        have hne : expected ≠ status ↔ status.status ≠ final := by
          rw [← hstatus, Ne, Ne, status_injective.eq_iff, eq_comm]
        simp [hexpected, hcaptured, hne]

/-- An event of the sample slot. -/
def sampleEvent (kind : EscrowEventKind) (txHash : String) : EscrowEvent where
  kind
  txHash
  eventIndex := 0
  ledgerSeq := 1
  closeTime := 0
  contractAddress := "escrow"
  slotId := "slot"

def sampleLocal (status : LocalIntentStatus) (txHash : String) : LocalSlotState where
  slotId := "slot"
  intentStatus := some status
  lastKnownTxHash := some txHash
  lastKnownEventKind := none

theorem compareStates_exact_released :
    (compareStates "slot" (chainState "slot" [sampleEvent .held "a", sampleEvent .released "b"])
        (sampleLocal .confirmed "b")).isSome = true ↔
      (sampleLocal .confirmed "b").intentStatus.map LocalIntentStatus.status ≠ some .cancelled := by
  have hlegal : reached .pending [sampleEvent .held "a", sampleEvent .released "b"]
      = some .cancelled := rfl
  exact (compareStates_exact_iff hlegal rfl).mpr (.inr (by decide))

/-- After a capture nothing is drift, not even an intent that was never
made firm. -/
theorem captured_not_drift :
    reached .pending [sampleEvent .held "a", sampleEvent .captured "b"] = some .firm ∧
      (sampleLocal .confirmed "b").intentStatus.map LocalIntentStatus.status ≠ some .firm ∧
      (sampleLocal .confirmed "b").lastKnownTxHash
        = (chainState "slot" [sampleEvent .held "a", sampleEvent .captured "b"]).latestTxHash ∧
      compareStates "slot" (chainState "slot" [sampleEvent .held "a", sampleEvent .captured "b"])
        (sampleLocal .confirmed "b") = none := by
  decide

end EscrowDrift

end ChronoPay
