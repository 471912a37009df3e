import ChronoPay.Lib.TextScan
import ChronoPay.BookingIntentService

/-!
# Subscriptions — `SubscriptionService` over its in-memory repositories

A subscription product has a recurrence rule and a slot duration; a
subscription to it has a cursor, the start of its next slot. A tick of
the generator mints one slot for every due subscription and moves the
cursor to the first occurrence of the rule from the END of that slot,
looked for in a window of two slot durations.

Times are whole milliseconds. The loop of `expandRecurrence` may never
end (`INTERVAL=0` without a `COUNT` it can reach), so everything that
calls it returns an `Option`, with `none` for "does not return"; after
that the process answers no further call. The slots other components
put into the slot repository are part of the tick's command. The
creation and update times of the records, which nothing reads, are left
out.
-/

namespace ChronoPay.Subscriptions

open IsoDate KeyedList Option Result TextScan

/-! ## Recurrence rules -/

inductive Frequency where
  | daily
  | weekly
  | monthly
  deriving DecidableEq, Repr

/-- What `expandRecurrence` reads from the text of a rule. -/
structure Recurrence where
  intervalDays : Nat
  /-- `none` is `Infinity`. -/
  maxCount : Option Nat
  freq : Frequency
  byDays : List String
  deriving DecidableEq, Repr

/-- `parseInt(digits, 10)`. -/
def parseDigits (digits : List Char) : Nat := Nat.ofDigitChars 10 digits 0

def parseFrequency (word : List Char) : Frequency :=
  if word = "WEEKLY".toList then .weekly
  else if word = "MONTHLY".toList then .monthly
  else .daily

def parseRecurrence (recurrenceRule : String) : Recurrence :=
  let upper := upperCase recurrenceRule.toList
  let number (key : String) :=
    (TextScan.search key.toList (firstRun Char.isDigit) upper).map parseDigits
  { intervalDays := (number "INTERVAL=").getD 1
    maxCount := number "COUNT="
    freq := match TextScan.search "FREQ=".toList (firstWord
        ["DAILY".toList, "WEEKLY".toList, "MONTHLY".toList]) upper with
      | some word => parseFrequency word
      | none => .daily
    byDays := match TextScan.search "BYDAY=".toList
        (firstRun fun c => c.isUpper || c = ',') upper with
      | some days => (TextScan.split ',' days).map String.ofList
      | none => [] }

def dayMs : Int := 86400000

/-- The entries of `dayMap`, by day number. -/
def dayNames : List String := ["SU", "MO", "TU", "WE", "TH", "FR", "SA"]

/-- The name of `new Date(ms).getUTCDay()`, absent for an invalid date. -/
def dayName (ms : Int) : Option String :=
  if -maxTime ≤ ms ∧ ms ≤ maxTime then dayNames[((ms / dayMs + 4) % 7).toNat]?
  else none

namespace Recurrence

/-- How far the cursor of `expandRecurrence` advances. -/
def period (r : Recurrence) : Int :=
  if r.freq = .weekly then r.intervalDays * 7 * dayMs else r.intervalDays * dayMs

/-- Whether the loop pushes a slot at `current`. -/
def occursAt (r : Recurrence) (current : Int) : Bool :=
  match r.freq with
  | .monthly => false
  | _ =>
    if r.byDays = [] then true
    else match dayName current with
      | some name => r.byDays.contains name
      | none => false

def below (r : Recurrence) (count : Nat) : Bool :=
  match r.maxCount with
  | some maxCount => decide (count < maxCount)
  | none => true

end Recurrence

structure Occurrence where
  startMs : Int
  endMs : Int
  deriving DecidableEq, Repr

/-- The `while` loop; `none` when the fuel runs out with the loop still
running. -/
def expandLoop (r : Recurrence) (slotDurationMs horizonEnd : Int) :
    Nat → Int → Nat → Option (List Occurrence)
  | 0, current, count => if current < horizonEnd ∧ r.below count then none else some []
  | fuel + 1, current, count =>
    if current < horizonEnd ∧ r.below count then
      if r.occursAt current then
        (expandLoop r slotDurationMs horizonEnd fuel (current + r.period) (count + 1)).map
          (⟨current, current + slotDurationMs⟩ :: ·)
      else expandLoop r slotDurationMs horizonEnd fuel (current + r.period) count
    else some []

/-- Each round moves the cursor by a millisecond or more, or counts. -/
def expandFuel (r : Recurrence) (horizonMs : Int) : Nat := horizonMs.toNat + r.maxCount.getD 0

/-- `none` when the call does not return. -/
def expandRecurrence (recurrenceRule : String) (startMs slotDurationMs horizonMs : Int) :
    Option (List Occurrence) :=
  let r := parseRecurrence recurrenceRule
  expandLoop r slotDurationMs (startMs + horizonMs) (expandFuel r horizonMs) startMs 0

/-! ## Records and repositories -/

structure SubscriptionProductRecord where
  id : String
  name : String
  description : Option String
  professional : String
  slotDurationMs : Int
  recurrenceRule : String
  timezone : String
  priceCents : Int
  currency : String
  maxSubscribers : Option Int
  active : Bool
  deriving DecidableEq, Repr

inductive SubscriptionStatus where
  | active
  | paused
  | cancelled
  deriving DecidableEq, Repr

structure SubscriptionRecord where
  id : String
  productId : String
  subscriberId : String
  status : SubscriptionStatus
  nextSlotStartMs : Int
  slotOffsetMs : Int
  slotsMinted : Nat
  pausedAt : Option String
  cancelledAt : Option String
  deriving DecidableEq, Repr

/-- The two repositories of the service. -/
structure Service where
  products : List SubscriptionProductRecord := []
  productSequence : Nat := 1
  subs : List SubscriptionRecord := []
  subSequence : Nat := 1
  deriving DecidableEq, Repr

namespace Service

def findProduct (s : Service) (productId : String) : Option SubscriptionProductRecord :=
  KeyedList.get SubscriptionProductRecord.id productId s.products

/-- `SubscriptionProductRepository.create`, which numbers the product. -/
def addProduct (s : Service) (product : SubscriptionProductRecord) : Service :=
  { s with
    products := s.products ++ [{ product with id := "sp-" ++ toString s.productSequence }]
    productSequence := s.productSequence + 1 }

def updateProduct (s : Service) (productId : String)
    (f : SubscriptionProductRecord → SubscriptionProductRecord) : Service :=
  { s with products := KeyedList.modify SubscriptionProductRecord.id productId f s.products }

def findById (s : Service) (subId : String) : Option SubscriptionRecord :=
  KeyedList.get SubscriptionRecord.id subId s.subs

def findByProductAndSubscriber (s : Service) (productId subscriberId : String) :
    Option SubscriptionRecord :=
  s.subs.find? fun sub => sub.productId = productId ∧ sub.subscriberId = subscriberId ∧
    (sub.status = .active ∨ sub.status = .paused)

def listActiveByProduct (s : Service) (productId : String) : List SubscriptionRecord :=
  s.subs.filter fun sub => sub.productId = productId ∧ sub.status = .active

def listActiveDueBefore (s : Service) (beforeMs : Int) (batchSize : Nat) :
    List SubscriptionRecord :=
  ((s.subs.filter fun sub => sub.status = .active ∧ sub.nextSlotStartMs ≤ beforeMs).insertionSort
    fun a b => a.nextSlotStartMs ≤ b.nextSlotStartMs).take batchSize

/-- `SubscriptionRepository.create`, which numbers the subscription. -/
def addSub (s : Service) (sub : SubscriptionRecord) : Service :=
  { s with
    subs := s.subs ++ [{ sub with id := "sub-" ++ toString s.subSequence }]
    subSequence := s.subSequence + 1 }

/-- `SubscriptionRepository.update`, of a record its caller has found. -/
def updateSub (s : Service) (subId : String) (f : SubscriptionRecord → SubscriptionRecord) :
    Service :=
  { s with subs := KeyedList.modify SubscriptionRecord.id subId f s.subs }

end Service

/-! ## The service -/

inductive SubscriptionError where
  /-- `new Error(message)` -/
  | other (message : String)
  /-- "Subscription product … not found" -/
  | productNotFound (productId : String)
  /-- "Subscription … not found" -/
  | notFound (subscriptionId : String)
  /-- "Subscriber … already has an active/paused subscription to product …" -/
  | duplicate (productId subscriberId : String)
  /-- "Subscription product … has reached its max subscriber limit" -/
  | capacityExceeded (productId : String)
  /-- "Cannot transition subscription … from … to …" -/
  | invalidState (subscriptionId : String) (current target : SubscriptionStatus)
  /-- "Scheduling conflict for subscription …: professional … already has a slot at …-…" -/
  | conflict (subscriptionId professional : String) (startTime endTime : Int)
  deriving DecidableEq, Repr

structure CreateProductInput where
  name : String
  description : Option String := none
  professional : String
  slotDurationMs : Int
  recurrenceRule : String
  timezone : Option String := none
  priceCents : Option Int := none
  currency : Option String := none
  maxSubscribers : Option Int := none
  deriving DecidableEq, Repr

structure SubscribeInput where
  productId : String
  subscriberId : String
  slotOffsetMs : Option Int := none
  deriving DecidableEq, Repr

structure MintResult where
  subscriptionId : String
  slotId : String
  professional : String
  startTime : Int
  endTime : Int
  nextSlotStartMs : Int
  deriving DecidableEq, Repr

structure GenerateSlotsResult where
  processed : Nat
  minted : List MintResult := []
  skipped : Nat := 0
  conflicts : List String := []
  deriving DecidableEq, Repr

namespace Service

def createProduct (s : Service) (input : CreateProductInput) :
    Except SubscriptionError Service := do
  require (trim input.name ≠ "") (SubscriptionError.other "Product name is required")
  require (trim input.professional ≠ "") (SubscriptionError.other "Professional is required")
  require (0 < input.slotDurationMs) (SubscriptionError.other "slotDurationMs must be positive")
  require (trim input.recurrenceRule ≠ "") (SubscriptionError.other "recurrenceRule is required")
  require (∀ cents ∈ input.priceCents, 0 ≤ cents)
    (SubscriptionError.other "priceCents must be non-negative")
  return s.addProduct
    { id := ""
      name := trim input.name
      description := input.description
      professional := trim input.professional
      slotDurationMs := input.slotDurationMs
      recurrenceRule := trim input.recurrenceRule
      timezone := input.timezone.getD "UTC"
      priceCents := input.priceCents.getD 0
      currency := input.currency.getD "USD"
      maxSubscribers := input.maxSubscribers
      active := true }

def getProduct (s : Service) (productId : String) :
    Except SubscriptionError SubscriptionProductRecord :=
  match s.findProduct productId with
  | some product => .ok product
  | none => .error (.productNotFound productId)

def deactivateProduct (s : Service) (productId : String) : Except SubscriptionError Service := do
  let _ ← s.getProduct productId
  return s.updateProduct productId fun p => { p with active := false }

/-- The checks of `subscribe`. -/
def checkSubscribe (s : Service) (input : SubscribeInput) :
    Except SubscriptionError SubscriptionProductRecord := do
  let product ← s.getProduct input.productId
  require (product.active = true)
    (SubscriptionError.other ("Product " ++ input.productId ++ " is not active"))
  require (∀ max ∈ product.maxSubscribers, ¬ (s.listActiveByProduct input.productId).length ≥ max)
    (SubscriptionError.capacityExceeded input.productId)
  require (s.findByProductAndSubscriber input.productId input.subscriberId = none)
    (SubscriptionError.duplicate input.productId input.subscriberId)
  return product

def subscribe (s : Service) (nowMs : Int) (input : SubscribeInput) :
    Option (Except SubscriptionError Service) :=
  match s.checkSubscribe input with
  | .error err => some (.error err)
  | .ok product =>
    let offsetMs := input.slotOffsetMs.getD 0
    (expandRecurrence product.recurrenceRule (nowMs + offsetMs) product.slotDurationMs
      (product.slotDurationMs * 365)).map fun slots => .ok (s.addSub
        { id := ""
          productId := input.productId
          subscriberId := input.subscriberId
          status := .active
          nextSlotStartMs := match slots with
            | first :: _ => first.startMs
            | [] => nowMs
          slotOffsetMs := offsetMs
          slotsMinted := 0
          pausedAt := none
          cancelledAt := none })

/-- The lookup and the status check that pause, resume and cancel share. -/
def requireSub (s : Service) (subscriptionId : String) (target : SubscriptionStatus)
    (allowed : SubscriptionStatus → Bool) : Except SubscriptionError Unit :=
  match s.findById subscriptionId with
  | none => .error (.notFound subscriptionId)
  | some sub =>
    if allowed sub.status then .ok ()
    else .error (.invalidState subscriptionId sub.status target)

def pauseSubscription (s : Service) (nowMs : Int) (subscriptionId : String) :
    Except SubscriptionError Service := do
  s.requireSub subscriptionId .paused (· = .active)
  return s.updateSub subscriptionId fun sub =>
    { sub with status := .paused, pausedAt := some (isoText nowMs) }

def resumeSubscription (s : Service) (subscriptionId : String) :
    Except SubscriptionError Service := do
  s.requireSub subscriptionId .active (· = .paused)
  return s.updateSub subscriptionId fun sub => { sub with status := .active, pausedAt := none }

def cancelSubscription (s : Service) (nowMs : Int) (subscriptionId : String) :
    Except SubscriptionError Service := do
  s.requireSub subscriptionId .cancelled (· ≠ .cancelled)
  return s.updateSub subscriptionId fun sub =>
    { sub with status := .cancelled, cancelledAt := some (isoText nowMs) }

end Service

/-- The cursor after a slot that starts at `startTime`. -/
def SubscriptionProductRecord.nextSlotStart (product : SubscriptionProductRecord)
    (startTime : Int) : Option Int :=
  (expandRecurrence product.recurrenceRule (startTime + product.slotDurationMs)
    product.slotDurationMs (product.slotDurationMs * 2)).map fun nextSlots =>
      match nextSlots with
      | first :: _ => first.startMs
      | [] => startTime + product.slotDurationMs

namespace Service

def mintSlot (s : Service) (slots : Slots) (subscription : SubscriptionRecord) :
    Option (Except SubscriptionError MintResult) :=
  match s.findProduct subscription.productId with
  | none => some (.error (.productNotFound subscription.productId))
  | some product =>
    let startTime := subscription.nextSlotStartMs
    let endTime := startTime + product.slotDurationMs
    if slots.hasConflict product.professional startTime endTime none then
      some (.error (.conflict subscription.id product.professional startTime endTime))
    else
      (product.nextSlotStart startTime).map fun nextSlotStartMs => .ok
        { subscriptionId := subscription.id
          slotId := "slot-sub-" ++ subscription.id ++ "-" ++ toString (subscription.slotsMinted + 1)
          professional := product.professional
          startTime
          endTime
          nextSlotStartMs }

/-- The loop of a tick over the due subscriptions. -/
def mintEach (slots : Slots) : List SubscriptionRecord → Service → GenerateSlotsResult →
    Option (Service × GenerateSlotsResult)
  | [], s, result => some (s, result)
  | sub :: rest, s, result =>
    match s.mintSlot slots sub with
    | none => none
    | some (.ok mint) =>
      mintEach slots rest
        (s.updateSub sub.id fun c =>
          { c with nextSlotStartMs := mint.nextSlotStartMs, slotsMinted := sub.slotsMinted + 1 })
        { result with minted := result.minted ++ [mint] }
    | some (.error (.conflict ..)) =>
      -- the cursor is moved past the slot that conflicts
      mintEach slots rest
        (match s.findProduct sub.productId with
          | some product => s.updateSub sub.id fun c =>
            { c with nextSlotStartMs := sub.nextSlotStartMs + product.slotDurationMs }
          | none => s)
        { result with conflicts := result.conflicts ++ [sub.id] }
    | some (.error _) => mintEach slots rest s { result with skipped := result.skipped + 1 }

def generateSlotsForDueSubscriptions (s : Service) (slots : Slots) (nowMs : Int)
    (batchSize : Nat) : Option (Service × GenerateSlotsResult) :=
  let dueSubs := s.listActiveDueBefore nowMs batchSize
  mintEach slots dueSubs s { processed := dueSubs.length }

end Service

/-! ## The system -/

inductive Cmd where
  | createProduct (input : CreateProductInput)
  | deactivateProduct (productId : String)
  | subscribe (nowMs : Int) (input : SubscribeInput)
  | pause (nowMs : Int) (subscriptionId : String)
  | resume (subscriptionId : String)
  | cancel (nowMs : Int) (subscriptionId : String)
  /-- `SubscriptionSlotGenerator.runOnce`. -/
  | tick (slots : Slots) (nowMs : Int) (batchSize : Nat)

/-- The service with what its ticks have returned so far. -/
structure System where
  service : Service := {}
  minted : List MintResult := []
  conflicts : List String := []
  /-- A call did not return: the process answers nothing any more. -/
  hung : Bool := false
  deriving DecidableEq, Repr

/-- A call that throws changes nothing. -/
def System.apply (σ : System) : Except SubscriptionError Service → System
  | .ok s => { σ with service := s }
  | .error _ => σ

def step (σ : System) (k : Cmd) : System :=
  if σ.hung then σ
  else match k with
    | .createProduct input => σ.apply (σ.service.createProduct input)
    | .deactivateProduct productId => σ.apply (σ.service.deactivateProduct productId)
    | .subscribe nowMs input =>
      match σ.service.subscribe nowMs input with
      | some result => σ.apply result
      | none => { σ with hung := true }
    | .pause nowMs subscriptionId => σ.apply (σ.service.pauseSubscription nowMs subscriptionId)
    | .resume subscriptionId => σ.apply (σ.service.resumeSubscription subscriptionId)
    | .cancel nowMs subscriptionId => σ.apply (σ.service.cancelSubscription nowMs subscriptionId)
    | .tick slots nowMs batchSize =>
      match σ.service.generateSlotsForDueSubscriptions slots nowMs batchSize with
      | some (s, result) =>
        { σ with service := s, minted := σ.minted ++ result.minted,
                 conflicts := σ.conflicts ++ result.conflicts }
      | none => { σ with hung := true }

abbrev run (ks : List Cmd) : System := Machine.run step {} ks

/-! ## What a call changes -/

theorem checkSubscribe_eq_ok {s : Service} {input : SubscribeInput}
    {product : SubscriptionProductRecord} (h : s.checkSubscribe input = .ok product) :
    s.findProduct input.productId = some product ∧
      (∀ max ∈ product.maxSubscribers, (s.listActiveByProduct input.productId).length < max) ∧
      s.findByProductAndSubscriber input.productId input.subscriberId = none := by
  unfold Service.checkSubscribe at h
  simp only [bind_eq_ok, require_eq_ok] at h
  obtain ⟨p, hp, _, -, _, hmax, _, hnone, h⟩ := h
  cases h
  refine ⟨?_, fun max hm => lt_of_not_ge (hmax max hm), hnone⟩
  unfold Service.getProduct at hp
  split at hp
  · cases hp
    assumption
  · cases hp

theorem requireSub_eq_ok {s s' s'' : Service} {subId : String} {target : SubscriptionStatus}
    {allowed : SubscriptionStatus → Bool}
    (h : (do s.requireSub subId target allowed; return s'') = Except.ok s') :
    s'' = s' ∧ ∃ sub, s.findById subId = some sub ∧ allowed sub.status = true := by
  obtain ⟨_, hreq, hs⟩ := bind_eq_ok.mp h
  refine ⟨Except.ok.inj hs, ?_⟩
  unfold Service.requireSub at hreq
  split at hreq
  · cases hreq
  next sub hfound =>
    split at hreq
    · exact ⟨sub, hfound, ‹_›⟩
    · cases hreq

/-- What a command does to the system, with what it has checked. -/
inductive Change (σ : System) : Cmd → System → Prop
  /-- The call threw, or the process hangs. -/
  | none (k : Cmd) (hung : Bool) : Change σ k { σ with hung }
  | product {input : CreateProductInput} {product : SubscriptionProductRecord}
      (hpos : 0 < product.slotDurationMs) (hmax : product.maxSubscribers = input.maxSubscribers) :
      Change σ (.createProduct input) { σ with service := σ.service.addProduct product }
  | deactivated (productId : String) :
      Change σ (.deactivateProduct productId)
        { σ with
          service := σ.service.updateProduct productId fun p => { p with active := false } }
  | subscribed (nowMs : Int) {input : SubscribeInput} {product : SubscriptionProductRecord}
      (hcheck : σ.service.checkSubscribe input = .ok product) (cursor offset : Int) :
      Change σ (.subscribe nowMs input)
        { σ with
          service := σ.service.addSub
            { id := "", productId := input.productId, subscriberId := input.subscriberId,
              status := .active, nextSlotStartMs := cursor, slotOffsetMs := offset,
              slotsMinted := 0, pausedAt := .none, cancelledAt := .none } }
  | paused (nowMs : Int) {subId : String} {sub : SubscriptionRecord}
      (hfound : σ.service.findById subId = some sub) (hstatus : sub.status = .active) :
      Change σ (.pause nowMs subId)
        { σ with
          service := σ.service.updateSub subId fun sub =>
            { sub with status := .paused, pausedAt := some (isoText nowMs) } }
  | resumed {subId : String} {sub : SubscriptionRecord}
      (hfound : σ.service.findById subId = some sub) (hstatus : sub.status = .paused) :
      Change σ (.resume subId)
        { σ with
          service := σ.service.updateSub subId fun sub =>
            { sub with status := .active, pausedAt := .none } }
  | cancelled (nowMs : Int) {subId : String} {sub : SubscriptionRecord}
      (hfound : σ.service.findById subId = some sub) (hstatus : sub.status ≠ .cancelled) :
      Change σ (.cancel nowMs subId)
        { σ with
          service := σ.service.updateSub subId fun sub =>
            { sub with status := .cancelled, cancelledAt := some (isoText nowMs) } }
  | ticked {slots : Slots} {nowMs : Int} {batchSize : Nat} {s : Service}
      {result : GenerateSlotsResult}
      (hgen : σ.service.generateSlotsForDueSubscriptions slots nowMs batchSize
        = some (s, result)) :
      Change σ (.tick slots nowMs batchSize)
        { σ with
          service := s
          minted := σ.minted ++ result.minted
          conflicts := σ.conflicts ++ result.conflicts }

theorem Change.apply {σ : System} {k : Cmd} {result : Except SubscriptionError Service}
    (h : ∀ s, result = .ok s → Change σ k { σ with service := s }) :
    Change σ k (σ.apply result) := by
  cases result with
  | error err => exact .none k σ.hung
  | ok s => exact h s rfl

theorem step_change (σ : System) (k : Cmd) : Change σ k (step σ k) := by
  unfold step
  split
  · exact .none k σ.hung
  · cases k with
    | createProduct input =>
      refine .apply fun s h => ?_
      unfold Service.createProduct at h
      simp only [bind_eq_ok, require_eq_ok] at h
      obtain ⟨_, -, _, -, _, hpos, _, -, _, -, h⟩ := h
      cases h
      exact .product hpos rfl
    | deactivateProduct productId =>
      refine .apply fun s h => ?_
      obtain ⟨_, -, h⟩ := bind_eq_ok.mp h
      cases h
      exact .deactivated productId
    | subscribe nowMs input =>
      dsimp only [Service.subscribe]
      cases h : σ.service.checkSubscribe input with
      | error err => exact .none _ σ.hung
      | ok product =>
        dsimp only
        cases expandRecurrence product.recurrenceRule (nowMs + input.slotOffsetMs.getD 0)
            product.slotDurationMs (product.slotDurationMs * 365) with
        | none => exact .none _ true
        | some slots => exact .subscribed nowMs h _ _
    | pause nowMs subId =>
      refine .apply fun s h => ?_
      obtain ⟨rfl, sub, hfound, hstatus⟩ := requireSub_eq_ok h
      exact .paused nowMs hfound (of_decide_eq_true hstatus)
    | resume subId =>
      refine .apply fun s h => ?_
      obtain ⟨rfl, sub, hfound, hstatus⟩ := requireSub_eq_ok h
      exact .resumed hfound (of_decide_eq_true hstatus)
    | cancel nowMs subId =>
      refine .apply fun s h => ?_
      obtain ⟨rfl, sub, hfound, hstatus⟩ := requireSub_eq_ok h
      exact .cancelled nowMs hfound (of_decide_eq_true hstatus)
    | tick slots nowMs batchSize =>
      dsimp only
      cases h : σ.service.generateSlotsForDueSubscriptions slots nowMs batchSize with
      | none => exact .none _ true
      | some out => exact .ticked h

/-! ## Ids and products -/

/-- Ids are given once, and a subscription's product exists. -/
structure Service.Indexed (s : Service) : Prop where
  products : Numbered (fun n => "sp-" ++ toString n) SubscriptionProductRecord.id
    s.productSequence s.products
  subs : Numbered (fun n => "sub-" ++ toString n) SubscriptionRecord.id
    s.subSequence s.subs
  found : ∀ sub ∈ s.subs, (s.findProduct sub.productId).isSome

namespace Service.Indexed

variable {s : Service}

theorem empty : Indexed {} where
  products := .nil
  subs := .nil
  found := List.forall_mem_nil _

theorem addProduct (h : s.Indexed) (product : SubscriptionProductRecord) :
    (s.addProduct product).Indexed where
  products := h.products.concat (label_injective _) rfl
  subs := h.subs
  found sub hsub := by
    rw [findProduct, Service.addProduct, get_append, isSome_or]
    exact (Bool.or_eq_true _ _).mpr (.inl (h.found sub hsub))

theorem updateProduct (h : s.Indexed) (productId : String)
    {f : SubscriptionProductRecord → SubscriptionProductRecord} (hf : ∀ p, (f p).id = p.id) :
    (s.updateProduct productId f).Indexed where
  products := h.products.modify hf
  subs := h.subs
  found sub hsub := by
    rw [findProduct, Service.updateProduct, get_modify hf]
    split
    · rw [isSome_map]
      exact h.found sub hsub
    · exact h.found sub hsub

theorem addSub (h : s.Indexed) {sub : SubscriptionRecord}
    (hproduct : (s.findProduct sub.productId).isSome) : (s.addSub sub).Indexed where
  products := h.products
  subs := h.subs.concat (label_injective _) rfl
  found := forall_mem_concat h.found hproduct

theorem updateSub (h : s.Indexed) (subId : String) {f : SubscriptionRecord → SubscriptionRecord}
    (hid : ∀ sub, (f sub).id = sub.id) (hproduct : ∀ sub, (f sub).productId = sub.productId) :
    (s.updateSub subId f).Indexed where
  products := h.products
  subs := h.subs.modify hid
  found := forall_mem_modify (fun sub hsub => by rw [hproduct]; exact hsub) h.found

end Service.Indexed

/-- A tick only moves cursors and counts: what every such update keeps
survives the loop. -/
theorem mintEach_inv {I : Service → Prop}
    (hI : ∀ s subId f, (∀ c : SubscriptionRecord, (f c).id = c.id ∧ (f c).productId = c.productId ∧
      (f c).subscriberId = c.subscriberId ∧ (f c).status = c.status) →
        I s → I (s.updateSub subId f))
    {slots : Slots} {rest : List SubscriptionRecord} {s s' : Service}
    {result result' : GenerateSlotsResult}
    (h : Service.mintEach slots rest s result = some (s', result')) (hs : I s) : I s' := by
  induction rest generalizing s result with
  | nil =>
    cases h
    exact hs
  | cons sub rest ih =>
    unfold Service.mintEach at h
    split at h
    · cases h
    · exact ih h (hI s _ _ (fun _ => ⟨rfl, rfl, rfl, rfl⟩) hs)
    · split at h
      · exact ih h (hI s _ _ (fun _ => ⟨rfl, rfl, rfl, rfl⟩) hs)
      · exact ih h hs
    · exact ih h hs

theorem step_indexed {σ : System} (k : Cmd) (h : σ.service.Indexed) :
    (step σ k).service.Indexed := by
  have hchange := step_change σ k
  generalize step σ k = σ' at hchange
  cases hchange with
  | none => exact h
  | product => exact h.addProduct _
  | deactivated productId => exact h.updateProduct productId fun _ => rfl
  | subscribed nowMs hcheck =>
    exact h.addSub (isSome_iff_exists.mpr ⟨_, (checkSubscribe_eq_ok hcheck).1⟩)
  | paused | resumed | cancelled => exact h.updateSub _ (fun _ => rfl) fun _ => rfl
  | ticked hgen =>
    exact mintEach_inv (I := Service.Indexed)
      (fun s subId f hf hs => hs.updateSub subId (fun c => (hf c).1) fun c => (hf c).2.1) hgen h

end ChronoPay.Subscriptions
