import ChronoPay.CancellationPolicy
import ChronoPay.Slots

/-!
# BookingIntents — the intent record and `InMemoryBookingIntentRepository`

The repository is an array of intents and a sequence number for fresh
ids. Queries return copies; `create` refuses a second ACTIVE intent
(`pending` or `hold_placed`) for a slot, and `updateStatus`/`update`
overwrite the first intent with the id whatever its status is.
-/

namespace ChronoPay

open List

inductive BookingIntentStatus where
  | pending
  | confirmed
  | firm
  | cancelled
  | expired
  | holdPlaced
  | holdRefunded
  | escrowHeld
  | escrowReleased
  | escrowRefunded
  | escrowDisputed
  | noShow
  deriving DecidableEq, Repr

/-- The status as the source writes it, in messages and in storage. -/
def BookingIntentStatus.text : BookingIntentStatus → String
  | pending => "pending"
  | confirmed => "confirmed"
  | firm => "firm"
  | cancelled => "cancelled"
  | expired => "expired"
  | holdPlaced => "hold_placed"
  | holdRefunded => "hold_refunded"
  | escrowHeld => "escrow_held"
  | escrowReleased => "escrow_released"
  | escrowRefunded => "escrow_refunded"
  | escrowDisputed => "escrow_disputed"
  | noShow => "no_show"

inductive BookingType where
  | standard
  | refundableHold
  deriving DecidableEq, Repr

def BookingType.text : BookingType → String
  | standard => "standard"
  | refundableHold => "refundable_hold"

/-- The captured price. The last three fields are not in the declared
type but are read by the supplier cancellation when an object has them. -/
structure PricingSnapshot where
  strategyId : StrategyId
  resolvedPrice : Int
  basePrice : ℚ
  slotStartMs : Int
  nowMs : Int
  activeBookings : Nat
  capacity : ℚ
  config : StrategyConfig
  currency : Option String := none
  platformFeeCents : Option Int := none
  taxCents : Option Int := none
  deriving DecidableEq, Repr

structure FxRateSnapshot where
  rate : ℚ
  baseCurrency : SupportedCurrency
  targetCurrency : SupportedCurrency
  capturedAtMs : Int
  deriving DecidableEq, Repr

structure RefundMetadata where
  refundedAt : String
  refundedAmountCents : ℚ
  refundReason : String
  deriving DecidableEq, Repr

structure BookingIntentRecord where
  id : String := ""
  slotId : String
  professional : String
  customerId : String
  startTime : Int
  endTime : Int
  status : BookingIntentStatus
  note : Option String := none
  createdAt : String
  slotIds : Option (List String) := none
  bundleId : Option String := none
  supplierId : Option String := none
  buyerId : Option String := none
  escrowHoldId : Option String := none
  bookingType : Option BookingType := none
  holdUntilMs : Option Int := none
  holdPlacedAt : Option String := none
  refundedAt : Option String := none
  refundMetadata : Option RefundMetadata := none
  pricingSnapshot : Option PricingSnapshot := none
  cancellationPolicySnapshot : Option CancellationPolicySnapshot := none
  holdFeePolicySnapshot : Option HoldFeePolicySnapshot := none
  fxRateSnapshot : Option FxRateSnapshot := none
  deriving DecidableEq, Repr

/-- `ACTIVE_HOLD_STATUSES.includes(status)`. -/
def BookingIntentStatus.active : BookingIntentStatus → Bool
  | pending => true
  | holdPlaced => true
  | _ => false

structure BookingIntents where
  intents : List BookingIntentRecord := []
  sequence : Nat := 1
  deriving DecidableEq, Repr

namespace BookingIntents

/-- Is `entry` an active intent for the slot? -/
def activeOn (slotId : String) (entry : BookingIntentRecord) : Bool :=
  entry.slotId = slotId && entry.status.active

def findBySlotId (repo : BookingIntents) (slotId : String) : Option BookingIntentRecord :=
  repo.intents.find? (activeOn slotId)

def findBySlotIdAndCustomer (repo : BookingIntents) (slotId customerId : String) :
    Option BookingIntentRecord :=
  repo.intents.find? fun entry => activeOn slotId entry && entry.customerId = customerId

def findById (repo : BookingIntents) (id : String) : Option BookingIntentRecord :=
  KeyedList.get BookingIntentRecord.id id repo.intents

/-- `findLatestBySlotId`: the first of those with the greatest start time. -/
def findLatestBySlotId (repo : BookingIntents) (slotId : String) : Option BookingIntentRecord :=
  match repo.intents.filter fun entry => entry.slotId = slotId with
  | [] => none
  | first :: rest =>
    some (rest.foldl (fun latest current =>
      if current.startTime > latest.startTime then current else latest) first)

def listAll (repo : BookingIntents) : List BookingIntentRecord := repo.intents

/-- The record `create` stores for a draft: the next id, and booking
type `standard` unless the draft has one. -/
def numbered (repo : BookingIntents) (draft : BookingIntentRecord) : BookingIntentRecord :=
  { draft with
    id := s!"intent-{repo.sequence}"
    bookingType := some (draft.bookingType.getD .standard) }

/-- `create`; `none` is the ConflictError of the uniqueness guard. -/
def create (repo : BookingIntents) (draft : BookingIntentRecord) :
    Option (BookingIntents × BookingIntentRecord) :=
  if draft.status.active && (repo.findBySlotId draft.slotId).isSome then none
  else
    some ({ intents := repo.intents ++ [repo.numbered draft], sequence := repo.sequence + 1 },
      repo.numbered draft)

/-- `update`/`updateStatus`: overwrite fields of the first intent with
the id; `none` is the error "BookingIntent with id … not found". -/
def update (repo : BookingIntents) (id : String)
    (updates : BookingIntentRecord → BookingIntentRecord) :
    Option (BookingIntents × BookingIntentRecord) :=
  match repo.findById id with
  | none => none
  | some intent =>
    some ({ repo with intents := KeyedList.modify BookingIntentRecord.id id updates repo.intents },
      updates intent)

def updateStatus (repo : BookingIntents) (id : String) (status : BookingIntentStatus) :
    Option (BookingIntents × BookingIntentRecord) :=
  repo.update id fun intent => { intent with status }

variable {intent : BookingIntentRecord} {repo : BookingIntents} {slotId : String}

theorem findLatestBySlotId_mem_filter (h : repo.findLatestBySlotId slotId = some intent) :
    intent ∈ repo.intents.filter fun entry => entry.slotId = slotId := by
  unfold findLatestBySlotId at h
  split at h
  · cases h
  next first rest hfilter =>
    cases h
    -- the reduction returns one of the candidates
    have hfold : ∀ (rest : List BookingIntentRecord) first,
        rest.foldl (fun latest current =>
          if current.startTime > latest.startTime then current else latest) first
          ∈ first :: rest := by
      intro rest
      induction rest with
      | nil => simp
      | cons next rest ih =>
        intro first
        rw [foldl_cons]
        split
        · exact mem_cons_of_mem _ (ih next)
        · rcases mem_cons.mp (ih first) with h | h
          · rw [h]
            exact mem_cons_self
          · exact mem_cons_of_mem _ (mem_cons_of_mem _ h)
    rw [hfilter]
    exact hfold rest first

theorem findBySlotId_eq_none :
    repo.findBySlotId slotId = none ↔ repo.intents.countP (activeOn slotId) = 0 := by
  simp [findBySlotId, countP_eq_zero]

/-- What a successful `create` did: the guard passed for an active
draft, and the numbered draft is the new last intent. -/
theorem create_eq_some {repo' : BookingIntents} {draft created : BookingIntentRecord} :
    repo.create draft = some (repo', created) ↔
      (draft.status.active = true → repo.findBySlotId draft.slotId = none) ∧
      created = repo.numbered draft ∧
      repo' = { intents := repo.intents ++ [created], sequence := repo.sequence + 1 } := by
  have hguard : (draft.status.active = true → repo.findBySlotId draft.slotId = none) ↔
      ¬ (draft.status.active && (repo.findBySlotId draft.slotId).isSome) = true := by
    simp
  rw [hguard, create]
  split
  next hbusy => exact iff_of_false nofun fun h => h.1 hbusy
  next hfree =>
    constructor
    · rintro ⟨⟩
      exact ⟨hfree, rfl, rfl⟩
    · rintro ⟨-, rfl, rfl⟩
      rfl

theorem update_eq_some {repo' : BookingIntents} {id : String}
    {updates : BookingIntentRecord → BookingIntentRecord} {updated : BookingIntentRecord} :
    repo.update id updates = some (repo', updated) ↔
      ∃ intent, repo.findById id = some intent ∧ updated = updates intent ∧
        repo' = { repo with
          intents := KeyedList.modify BookingIntentRecord.id id updates repo.intents } := by
  unfold update
  cases hf : repo.findById id with
  | none => simp
  | some intent =>
    constructor
    · rintro ⟨⟩
      exact ⟨intent, rfl, rfl, rfl⟩
    · rintro ⟨_, ⟨⟩, rfl, rfl⟩
      rfl

end BookingIntents

/-! ## The captured price -/

/-- `resolvePricingSnapshot`; `none` for a slot without a strategy. -/
def resolvePricingSnapshot (slot : SlotRecord) (intents : List BookingIntentRecord) (nowMs : Int) :
    Except PricingError (Option PricingSnapshot) :=
  match slot.pricingStrategy with
  | none => .ok none
  | some strategy => do
    let activeBookings := (intents.filter fun intent =>
      intent.slotId = slot.id &&
        (intent.status = .pending || intent.status = .confirmed)).length
    let capacity := strategy.capacity.getD 1
    let result ← resolvePrice strategy.strategyId
      { basePrice := strategy.basePrice, slotStartMs := slot.startTime, nowMs, activeBookings,
        capacity, config := strategy.config }
    return some
      { strategyId := result.strategyId, resolvedPrice := result.price,
        basePrice := strategy.basePrice, slotStartMs := slot.startTime, nowMs, activeBookings,
        capacity, config := strategy.config }

end ChronoPay
