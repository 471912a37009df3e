import Mathlib.Algebra.Order.Ring.Unbundled.Rat
import ChronoPay.JsText
import ChronoPay.Lib.Coop
import ChronoPay.Lib.KeyedList
import ChronoPay.Lib.Result

/-!
# EscrowHoldings — holds that are released, refunded or disputed

`releaseHold`, `refundHold` and `disputeHold` read a hold, check its
state and store the new one without a suspension, so each of them is one
step. `processDueHolds` is not: it takes a snapshot of the holds that are
held and due, and waits after each one it releases.

A hold of the snapshot may leave the state `held` before the loop comes
to it. Its `releaseHold` then throws, nothing catches it, and the loop
ends with the later holds not looked at (`Overtaken`). Without that every
`processDueHolds` settles all it found (`holds_settled_iff`).

`Math.random` may repeat itself; the results about single holds are over
runs in which ids are drawn fresh.
-/

namespace ChronoPay.EscrowHoldings

open Coop KeyedList List Machine Result

/-! ## Types -/

inductive EscrowHoldState where
  | held
  | released
  | refunded
  | disputed
  deriving DecidableEq, Repr

def EscrowHoldState.text : EscrowHoldState → String
  | .held => "held"
  | .released => "released"
  | .refunded => "refunded"
  | .disputed => "disputed"

inductive Action where
  | created
  | released
  | refunded
  | disputed
  deriving DecidableEq, Repr

structure EscrowHoldAuditEntry where
  action : Action
  actorId : String
  atMs : ℚ
  reason : String
  state : EscrowHoldState
  deriving DecidableEq

structure EscrowHoldRecord where
  id : String
  bookingIntentId : String
  buyerId : String
  supplierId : String
  amountCents : ℚ
  currency : String
  slotEndTimeMs : ℚ
  confirmationWindowMs : ℚ
  scheduledReleaseAtMs : ℚ
  state : EscrowHoldState
  createdAtMs : ℚ
  updatedAtMs : ℚ
  resolvedAtMs : Option ℚ := none
  lastReason : String
  disputeReason : Option String := none
  auditTrail : List EscrowHoldAuditEntry
  deriving DecidableEq

structure CreateEscrowHoldInput where
  bookingIntentId : String
  amountCents : ℚ
  currency : String
  supplierId : String
  buyerId : String
  slotEndTimeMs : ℚ
  confirmationWindowMs : ℚ

inductive EscrowHoldError where
  | notFound (holdId : String)
  | alreadyResolved (holdId : String) (state : EscrowHoldState)
  | invalidInput (message : String)
  deriving DecidableEq

def EscrowHoldError.message : EscrowHoldError → String
  | .notFound holdId => "Escrow hold not found: " ++ holdId
  | .alreadyResolved holdId state =>
    "Escrow hold " ++ holdId ++ " is already resolved with state \"" ++ state.text ++ "\"."
  | .invalidInput message => message

/-! ## The service -/

structure Service where
  holds : List EscrowHoldRecord := []
  bookingIntentIndex : List (String × String) := []

def validateActor (actorId : String) : Except EscrowHoldError Unit :=
  require (trim actorId ≠ "") (.invalidInput "actorId is required")

/-- `Number.isInteger(x)` -/
def IsInteger (x : ℚ) : Prop := x.den = 1

instance (x : ℚ) : Decidable (IsInteger x) := inferInstanceAs (Decidable (_ = _))

def validateCreateInput (input : CreateEscrowHoldInput) : Except EscrowHoldError Unit := do
  require (trim input.bookingIntentId ≠ "") (.invalidInput "bookingIntentId is required")
  require (IsInteger input.amountCents ∧ 0 < input.amountCents)
    (.invalidInput "amountCents must be a positive integer")
  require (trim input.currency ≠ "") (.invalidInput "currency is required")
  require (trim input.supplierId ≠ "") (.invalidInput "supplierId is required")
  require (trim input.buyerId ≠ "") (.invalidInput "buyerId is required")
  require (IsInteger input.slotEndTimeMs ∧ 0 ≤ input.slotEndTimeMs)
    (.invalidInput "slotEndTimeMs must be a non-negative integer")
  require (IsInteger input.confirmationWindowMs ∧ 0 ≤ input.confirmationWindowMs)
    (.invalidInput "confirmationWindowMs must be a non-negative integer")

/-- The hold `createHold` stores. -/
def newHold (id : String) (now : ℚ) (input : CreateEscrowHoldInput) (actorId : String) :
    EscrowHoldRecord where
  id := id
  bookingIntentId := input.bookingIntentId
  buyerId := input.buyerId
  supplierId := input.supplierId
  amountCents := input.amountCents
  currency := trim input.currency
  slotEndTimeMs := input.slotEndTimeMs
  confirmationWindowMs := input.confirmationWindowMs
  scheduledReleaseAtMs := input.slotEndTimeMs + input.confirmationWindowMs
  state := .held
  createdAtMs := now
  updatedAtMs := now
  lastReason := "escrow_held"
  auditTrail :=
    [{ action := .created, actorId, atMs := now, reason := "escrow_held", state := .held }]

/-- What one of the three methods on a stored hold does. -/
structure Transition where
  /-- The states the method accepts. -/
  accepts : EscrowHoldState → Bool
  action : Action
  state : EscrowHoldState
  /-- The fields only this method sets, from its reading of the clock and
  the reason. -/
  extra : ℚ → String → EscrowHoldRecord → EscrowHoldRecord
  /-- Whether the booking intent may have a new hold afterwards. -/
  unindexes : Bool

/-- The record a method stores. -/
def Transition.updated (t : Transition) (now : ℚ) (actorId reason : String)
    (hold : EscrowHoldRecord) : EscrowHoldRecord :=
  { t.extra now reason hold with
    state := t.state
    updatedAtMs := now
    lastReason := reason
    auditTrail := hold.auditTrail ++
      [{ action := t.action, actorId, atMs := now, reason, state := t.state }] }

def release : Transition where
  accepts state := state = .held
  action := .released
  state := .released
  extra now _ hold := { hold with resolvedAtMs := some now }
  unindexes := true

def refund : Transition where
  accepts state := state = .held ∨ state = .disputed
  action := .refunded
  state := .refunded
  extra now _ hold := { hold with resolvedAtMs := some now }
  unindexes := true

def dispute : Transition where
  accepts state := state = .held
  action := .disputed
  state := .disputed
  extra _ reason hold := { hold with disputeReason := some reason }
  unindexes := false

namespace Service

def getHold (s : Service) (holdId : String) : Option EscrowHoldRecord :=
  KeyedList.get EscrowHoldRecord.id holdId s.holds

def requireHold (s : Service) (holdId : String) : Except EscrowHoldError EscrowHoldRecord :=
  match s.getHold holdId with
  | some hold => .ok hold
  | none => .error (.notFound holdId)

/-- `this.holds.set(hold.id, hold)` -/
def set (s : Service) (hold : EscrowHoldRecord) : Service :=
  { s with holds := KeyedList.put EscrowHoldRecord.id hold s.holds }

def createHold (s : Service) (id : String) (now : ℚ) (input : CreateEscrowHoldInput)
    (actorId : String) : Except EscrowHoldError (Service × EscrowHoldRecord) := do
  validateActor actorId
  validateCreateInput input
  require ((s.bookingIntentIndex.lookup input.bookingIntentId).isNone)
    (.invalidInput ("Booking intent " ++ input.bookingIntentId ++ " already has an escrow hold."))
  let hold := newHold id now input actorId
  return ({ s.set hold with
    bookingIntentIndex :=
      KeyedList.put Prod.fst (input.bookingIntentId, id) s.bookingIntentIndex }, hold)

def apply (t : Transition) (s : Service) (now : ℚ) (holdId actorId reason : String) :
    Except EscrowHoldError (Service × EscrowHoldRecord) := do
  let hold ← s.requireHold holdId
  require (t.accepts hold.state = true) (.alreadyResolved holdId hold.state)
  validateActor actorId
  let updated := t.updated now actorId reason hold
  return ({ s.set updated with
    bookingIntentIndex := s.bookingIntentIndex.filter fun entry =>
      !(t.unindexes && entry.1 = hold.bookingIntentId) }, updated)

def releaseHold (s : Service) (now : ℚ) (holdId actorId : String) (reason : Option String) :
    Except EscrowHoldError (Service × EscrowHoldRecord) :=
  s.apply release now holdId actorId (reason.getD "slot_delivery_confirmed")

def refundHold (s : Service) (now : ℚ) (holdId actorId : String) (reason : Option String) :
    Except EscrowHoldError (Service × EscrowHoldRecord) :=
  s.apply refund now holdId actorId (reason.getD "booking_cancelled")

def disputeHold (s : Service) (now : ℚ) (holdId actorId : String) (reason : Option String) :
    Except EscrowHoldError (Service × EscrowHoldRecord) :=
  s.apply dispute now holdId actorId (reason.getD "delivery_dispute")

/-- The snapshot of `processDueHolds`. -/
def due (s : Service) (nowMs : ℚ) : List EscrowHoldRecord :=
  s.holds.filter fun hold => hold.state = .held ∧ hold.scheduledReleaseAtMs ≤ nowMs

end Service

/-! ## Calls -/

inductive Request where
  | createHold (input : CreateEscrowHoldInput) (actorId : String)
  | releaseHold (holdId actorId : String) (reason : Option String)
  | refundHold (holdId actorId : String) (reason : Option String)
  | disputeHold (holdId actorId : String) (reason : Option String)
  | processDueHolds (nowMs : Option ℚ) (actorId : String)

/-- What a segment finds outside. -/
structure Env where
  /-- `this.nowFn()` in place of an absent `nowMs`. -/
  startMs : ℚ
  /-- `this.nowFn()` of the method that stores. -/
  now : ℚ
  /-- `cryptoRandomId()` -/
  random : String

inductive Pc where
  | start (request : Request)
  /-- The loop of `processDueHolds`, at its `await`. -/
  | releasing (actorId : String) (due rest resolved : List EscrowHoldRecord)

inductive Answer where
  | hold (hold : EscrowHoldRecord)
  /-- The caller sees `resolved`. -/
  | processed (due resolved : List EscrowHoldRecord)

abbrev Outcome := Except EscrowHoldError Answer

abbrev Task := Coop.Task Pc Outcome

/-- A method without a suspension. -/
def atOnce (s : Service) : Except EscrowHoldError (Service × EscrowHoldRecord) → Service × Task
  | .ok (s', hold) => (s', .done (.ok (.hold hold)))
  | .error err => (s, .done (.error err))

/-- The reason `processDueHolds` gives. -/
def scheduledRelease : String := "scheduled_release_after_confirmation_window"

/-- The loop up to its next `await`. -/
def releaseNext (e : Env) (actorId : String) (due resolved : List EscrowHoldRecord) :
    List EscrowHoldRecord → Service → Service × Task
  | [], s => (s, .done (.ok (.processed due resolved)))
  | hold :: rest, s =>
    match s.releaseHold e.now hold.id actorId (some scheduledRelease) with
    | .ok (s', released) => (s', .waiting (.releasing actorId due rest (resolved ++ [released])))
    | .error err => (s, .done (.error err))

/-- A call from one `await` to the next. -/
def resume (e : Env) : Pc → Service → Service × Task
  | .start (.createHold input actorId), s =>
    atOnce s (s.createHold ("hold-" ++ e.random) e.now input actorId)
  | .start (.releaseHold holdId actorId reason), s =>
    atOnce s (s.releaseHold e.now holdId actorId reason)
  | .start (.refundHold holdId actorId reason), s =>
    atOnce s (s.refundHold e.now holdId actorId reason)
  | .start (.disputeHold holdId actorId reason), s =>
    atOnce s (s.disputeHold e.now holdId actorId reason)
  | .start (.processDueHolds nowMs actorId), s =>
    releaseNext e actorId (s.due (nowMs.getD e.startMs)) [] (s.due (nowMs.getD e.startMs)) s
  | .releasing actorId due rest resolved, s => releaseNext e actorId due resolved rest s

def service : Program Request Env Service Pc Outcome where
  start := .start
  resume := resume

abbrev State := Sys Request Service Pc Outcome

abbrev Cmd := Coop.Cmd Request Env

/-- A service without holds. -/
def opened : State := { shared := {} }

/-! ## What a method does -/

variable {s s' : Service} {e : Env} {id : String} {hold : EscrowHoldRecord}

theorem Service.getHold_set (s : Service) (hold : EscrowHoldRecord) (id : String) :
    (s.set hold).getHold id = if hold.id = id then some hold else s.getHold id :=
  get_put hold s.holds

variable {actorId : String} {t : Transition} {pc : Pc} {request : Request}

theorem apply_eq_ok {now : ℚ} {holdId reason : String} {updated : EscrowHoldRecord}
    (h : s.apply t now holdId actorId reason = .ok (s', updated)) :
    ∃ hold, s.getHold holdId = some hold ∧ t.accepts hold.state = true ∧ trim actorId ≠ "" ∧
      updated = t.updated now actorId reason hold ∧ s'.holds = (s.set updated).holds := by
  rw [Service.apply, bind_eq_ok] at h
  obtain ⟨hold, hfound, h⟩ := h
  obtain ⟨_, haccepts, h⟩ := bind_eq_ok.mp h
  obtain ⟨_, hactor, h⟩ := bind_eq_ok.mp h
  cases h
  refine ⟨hold, ?_, require_eq_ok.mp haccepts, require_eq_ok.mp hactor, rfl, rfl⟩
  rw [Service.requireHold] at hfound
  split at hfound
  next found hget => rw [hget, Except.ok.inj hfound]
  · cases hfound

/-- A method returns for a hold in an accepted state and a valid actor. -/
theorem apply_ok {holdId : String} (now : ℚ) (reason : String) (hget : s.getHold holdId = some hold)
    (haccepts : t.accepts hold.state = true) (hactor : trim actorId ≠ "") :
    ∃ s' updated, s.apply t now holdId actorId reason = .ok (s', updated) := by
  have hfound : s.requireHold holdId = .ok hold := by rw [Service.requireHold, hget]
  have hstate : require (t.accepts hold.state = true)
      (EscrowHoldError.alreadyResolved holdId hold.state) = .ok () := require_eq_ok.mpr haccepts
  have hvalid : validateActor actorId = .ok () := require_eq_ok.mpr hactor
  rw [Service.apply, hfound]
  exact ⟨_, _, bind_eq_ok.mpr ⟨hold, rfl, bind_eq_ok.mpr ⟨(), hstate,
    bind_eq_ok.mpr ⟨(), hvalid, rfl⟩⟩⟩⟩

/-- The three methods. -/
def Transition.Source (t : Transition) : Prop := t = release ∨ t = refund ∨ t = dispute

/-- **What a segment can do** to the store: nothing, add a new hold, or
update a hold that is in a state its method accepts. -/
inductive Move (e : Env) (pc : Pc) (s s' : Service) : Prop where
  | stay (hstay : s' = s)
  | create (input : CreateEscrowHoldInput) (actorId : String)
      (hpc : pc = .start (.createHold input actorId))
      (hholds : s'.holds = (s.set (newHold ("hold-" ++ e.random) e.now input actorId)).holds)
  | update (t : Transition) (ht : t.Source) (hold : EscrowHoldRecord) (actorId reason : String)
      (hget : s.getHold hold.id = some hold) (haccepts : t.accepts hold.state = true)
      (hholds : s'.holds = (s.set (t.updated e.now actorId reason hold)).holds)

theorem apply_move (ht : t.Source) {holdId reason : String} {updated : EscrowHoldRecord}
    (h : s.apply t e.now holdId actorId reason = .ok (s', updated)) : Move e pc s s' := by
  obtain ⟨hold, hget, haccepts, -, rfl, hholds⟩ := apply_eq_ok h
  obtain rfl := get_key hget
  exact .update t ht hold actorId reason hget haccepts hholds

theorem atOnce_move (ht : t.Source) (pc : Pc) (holdId actorId reason : String) :
    Move e pc s (atOnce s (s.apply t e.now holdId actorId reason)).1 := by
  cases h : s.apply t e.now holdId actorId reason with
  | error err => exact .stay rfl
  | ok result => exact apply_move ht h

theorem releaseNext_move (pc : Pc) (actorId : String) (due resolved rest : List EscrowHoldRecord) :
    Move e pc s (releaseNext e actorId due resolved rest s).1 := by
  cases rest with
  | nil => exact .stay rfl
  | cons hold rest =>
    rw [releaseNext]
    split
    next s' released hok => exact apply_move (.inl rfl) hok
    · exact .stay rfl

theorem resume_move (e : Env) (pc : Pc) (s : Service) : Move e pc s (resume e pc s).1 := by
  cases pc with
  | start request =>
    cases request with
    | createHold input actorId =>
      rw [resume]
      cases hcreate : s.createHold ("hold-" ++ e.random) e.now input actorId with
      | error err => exact .stay rfl
      | ok result =>
        obtain ⟨s', created⟩ := result
        rw [Service.createHold, bind_eq_ok] at hcreate
        obtain ⟨_, _, hcreate⟩ := hcreate
        obtain ⟨_, _, hcreate⟩ := bind_eq_ok.mp hcreate
        obtain ⟨_, _, hcreate⟩ := bind_eq_ok.mp hcreate
        cases hcreate
        exact .create input actorId rfl rfl
    | releaseHold holdId actorId reason => exact atOnce_move (.inl rfl) _ holdId actorId _
    | refundHold holdId actorId reason => exact atOnce_move (.inr (.inl rfl)) _ holdId actorId _
    | disputeHold holdId actorId reason => exact atOnce_move (.inr (.inr rfl)) _ holdId actorId _
    | processDueHolds nowMs actorId => exact releaseNext_move _ actorId _ _ _
  | releasing actorId due rest resolved => exact releaseNext_move _ actorId due resolved rest

/-! ## One resolution -/

/-- The entry pays the supplier or gives the money back. -/
def EscrowHoldAuditEntry.resolves (entry : EscrowHoldAuditEntry) : Bool :=
  entry.action = .released ∨ entry.action = .refunded

def EscrowHoldState.resolved (state : EscrowHoldState) : Bool :=
  state = .released ∨ state = .refunded

/-- What the audit trail of a hold says: it is resolved once if its state
says so and else not at all, and it is not both disputed and released. -/
structure Consistent (hold : EscrowHoldRecord) : Prop where
  once : hold.auditTrail.countP EscrowHoldAuditEntry.resolves = if hold.state.resolved then 1 else 0
  disputed : (∃ entry ∈ hold.auditTrail, entry.action = .disputed) →
    ∀ entry ∈ hold.auditTrail, entry.action ≠ .released
  held : hold.state = .held → ∀ entry ∈ hold.auditTrail, entry.action ≠ .disputed

/-- No method accepts a resolved hold. -/
theorem Transition.Source.unresolved (ht : t.Source) {state : EscrowHoldState}
    (haccepts : t.accepts state = true) : state.resolved = false := by
  rcases ht with rfl | rfl | rfl
  · rw [of_decide_eq_true haccepts]
    rfl
  · rcases of_decide_eq_true haccepts with rfl | rfl
    · rfl
    · rfl
  · rw [of_decide_eq_true haccepts]
    rfl

theorem updated_consistent (ht : t.Source) (h : Consistent hold)
    (haccepts : t.accepts hold.state = true) (now : ℚ) (actorId reason : String) :
    Consistent (t.updated now actorId reason hold) := by
  have hopen : hold.state.resolved = false := ht.unresolved haccepts
  have hzero := h.once
  rw [hopen, if_neg (by simp), countP_eq_zero] at hzero
  have hunreleased : ∀ entry ∈ hold.auditTrail, entry.action ≠ .released := fun entry hentry heq =>
    hzero entry hentry (by simp [EscrowHoldAuditEntry.resolves, heq])
  have honce : (t.updated now actorId reason hold).auditTrail.countP
      EscrowHoldAuditEntry.resolves = if t.action = .released ∨ t.action = .refunded then 1 else 0 := by
    rw [Transition.updated, countP_append, h.once, hopen]
    simp [EscrowHoldAuditEntry.resolves]
  rcases ht with rfl | rfl | rfl
  · -- a hold that is held was never disputed
    have hundisputed := h.held (of_decide_eq_true haccepts)
    refine ⟨honce, fun ⟨entry, hentry, hdisputed⟩ => ?_, nofun⟩
    rcases mem_append.mp hentry with hentry | hentry
    · exact absurd hdisputed (hundisputed entry hentry)
    · rw [mem_singleton.mp hentry] at hdisputed
      cases hdisputed
  · refine ⟨honce, fun _ => ?_, nofun⟩
    exact forall_mem_concat hunreleased nofun
  · refine ⟨honce, fun _ => ?_, nofun⟩
    exact forall_mem_concat hunreleased nofun

theorem Move.consistent (hmove : Move e pc s s') (h : ∀ hold ∈ s.holds, Consistent hold) :
    ∀ hold ∈ s'.holds, Consistent hold := by
  cases hmove with
  | stay hstay => rwa [hstay]
  | create input actorId hpc hholds =>
    rw [hholds]
    refine forall_mem_put ⟨rfl, fun _ => ?_, fun _ => ?_⟩ h
    · simp [newHold]
    · simp [newHold]
  | update t ht hold actorId reason hget haccepts hholds =>
    rw [hholds]
    have hold_consistent := h hold (mem_of_get hget)
    exact forall_mem_put (updated_consistent ht hold_consistent haccepts _ _ _) h

/-! ## Holds that have left the state `held` -/

/-- The hold is there and no longer held. -/
def Settled (s : Service) (id : String) : Prop :=
  ∃ hold, s.getHold id = some hold ∧ hold.state ≠ .held

/-- A new hold gets an id that no other has. -/
def DrawsFresh (σ : State) (k : Cmd) : Prop :=
  match resumed σ k with
  | some (e, .start (.createHold _ _)) => σ.shared.getHold ("hold-" ++ e.random) = none
  | _ => True

instance (σ : State) (k : Cmd) : Decidable (DrawsFresh σ k) := by
  unfold DrawsFresh
  exact match resumed σ k with
    | some (_, .start (.createHold _ _)) => inferInstanceAs (Decidable (_ = _))
    | some (_, .start (.releaseHold _ _ _)) | some (_, .start (.refundHold _ _ _))
    | some (_, .start (.disputeHold _ _ _)) | some (_, .start (.processDueHolds _ _))
    | some (_, .releasing _ _ _ _) | none => .isTrue trivial

theorem Transition.Source.state_ne_held (ht : t.Source) : t.state ≠ .held := by
  rcases ht with rfl | rfl | rfl
  · nofun
  · nofun
  · nofun

theorem Move.settled (hmove : Move e pc s s')
    (hfresh : ∀ input actorId, pc = .start (.createHold input actorId) →
      s.getHold ("hold-" ++ e.random) = none) (h : Settled s id) : Settled s' id := by
  obtain ⟨hold, hget, hstate⟩ := h
  cases hmove with
  | stay hstay =>
    rw [hstay]
    exact ⟨hold, hget, hstate⟩
  | create input actorId hpc hholds =>
    refine ⟨hold, ?_, hstate⟩
    rw [Service.getHold, hholds]
    show (s.set _).getHold id = some hold
    rw [Service.getHold_set, if_neg, hget]
    intro hid
    have hnone : s.getHold id = none := hid ▸ hfresh input actorId hpc
    cases hnone.symm.trans hget
  | update t ht old actorId reason hold_get haccepts hholds =>
    rw [Settled, Service.getHold, hholds]
    show ∃ hold, (s.set _).getHold id = some hold ∧ _
    rw [Service.getHold_set]
    split
    · exact ⟨_, rfl, ht.state_ne_held⟩
    · exact ⟨hold, hget, hstate⟩

/-! ## The loop -/

/-- The loop of `processDueHolds` has come to a hold that is no longer
held. -/
def Pc.Overtaken (s : Service) : Pc → Prop
  | .releasing _ _ (hold :: _) _ => (s.getHold hold.id).map EscrowHoldRecord.state ≠ some .held
  | _ => False

instance (s : Service) (pc : Pc) : Decidable (pc.Overtaken s) := by
  exact match pc with
    | .start _ => .isFalse fun h => h
    | .releasing _ _ [] _ => .isFalse fun h => h
    | .releasing _ _ (_ :: _) _ => inferInstanceAs (Decidable (_ ≠ _))

theorem releaseNext_held (due resolved rest : List EscrowHoldRecord) (hactor : trim actorId ≠ "")
    (hheld : (s.getHold hold.id).map EscrowHoldRecord.state = some .held) :
    ∃ s' released, releaseNext e actorId due resolved (hold :: rest) s
        = (s', .waiting (.releasing actorId due rest (resolved ++ [released]))) ∧
      Settled s' hold.id := by
  obtain ⟨current, hget, hstate⟩ := Option.map_eq_some_iff.mp hheld
  obtain ⟨s', released, hok⟩ := apply_ok (t := release) e.now scheduledRelease hget
    (decide_eq_true hstate) hactor
  have hrelease : s.releaseHold e.now hold.id actorId (some scheduledRelease) = .ok (s', released) :=
    hok
  obtain ⟨found, hfound, -, -, hreleased, hholds⟩ := apply_eq_ok hok
  have hid : released.id = hold.id := by
    rw [hreleased]
    show found.id = hold.id
    exact get_key hfound
  refine ⟨s', released, by rw [releaseNext, hrelease], released, ?_, ?_⟩
  · rw [Service.getHold, hholds]
    show (s.set _).getHold hold.id = _
    rw [Service.getHold_set, if_pos hid]
  · rw [hreleased]
    nofun

theorem releaseNext_not_held (actorId : String) (due resolved rest : List EscrowHoldRecord)
    (hheld : (s.getHold hold.id).map EscrowHoldRecord.state ≠ some .held) :
    ∃ err, releaseNext e actorId due resolved (hold :: rest) s = (s, .done (.error err)) := by
  cases hok : s.releaseHold e.now hold.id actorId (some scheduledRelease) with
  | error err => exact ⟨err, by rw [releaseNext, hok]⟩
  | ok result =>
    obtain ⟨current, hget, haccepts, -⟩ := apply_eq_ok (show _ = Except.ok (result.1, result.2) from hok)
    rw [hget] at hheld
    exact absurd (congrArg some (of_decide_eq_true haccepts)) hheld

theorem releaseNext_invalid (due resolved rest : List EscrowHoldRecord) (hactor : trim actorId = "") :
    ∃ outcome, (releaseNext e actorId due resolved rest s).2 = .done outcome := by
  cases rest with
  | nil => exact ⟨_, rfl⟩
  | cons hold rest =>
    rw [releaseNext]
    split
    next s' released hok =>
      obtain ⟨_, -, -, hvalid, -⟩ := apply_eq_ok hok
      exact absurd hactor hvalid
    · exact ⟨_, rfl⟩

/-- What is known of a call that is suspended: a loop runs for a valid
actor, and what it found due is still ahead of it or settled. -/
def Underway (s : Service) (request : Request) : Task → Prop
  | .waiting (.start request') => request' = request
  | .waiting (.releasing actorId due rest _) =>
    (∃ nowMs, request = .processDueHolds nowMs actorId) ∧ trim actorId ≠ "" ∧
      ∀ hold ∈ due, hold ∈ rest ∨ Settled s hold.id
  | .done _ => True

/-- A `processDueHolds` by a valid actor that has ended did not reject,
and no hold that was held and due when it started is still held. -/
def DueSettled (s : Service) : Request → Task → Prop
  | .processDueHolds _ actorId, .done outcome =>
    trim actorId ≠ "" → ∃ due resolved, outcome = .ok (.processed due resolved) ∧
      ∀ hold ∈ due, Settled s hold.id
  | _, _ => True

/-- A map has one entry for a key. -/
def Service.Keyed (s : Service) : Prop := (s.holds.map EscrowHoldRecord.id).Nodup

theorem Move.keyed (hmove : Move e pc s s') (h : s.Keyed) : s'.Keyed := by
  cases hmove with
  | stay hstay => rwa [hstay]
  | create input actorId hpc hholds | update t ht hold actorId reason hget haccepts hholds =>
    rw [Service.Keyed, hholds]
    exact nodup_put h _

/-- A loop that comes to a hold that is held goes on or ends with
everything settled. -/
theorem releaseNext_settles {nowMs : Option ℚ}
    {due resolved rest : List EscrowHoldRecord} (hactor : trim actorId ≠ "")
    (hdue : ∀ hold ∈ due, hold ∈ rest ∨ Settled s hold.id)
    (hheld : ∀ hold tail, rest = hold :: tail →
      (s.getHold hold.id).map EscrowHoldRecord.state = some .held)
    (hkept : ∀ id, Settled s id → Settled (releaseNext e actorId due resolved rest s).1 id) :
    Underway (releaseNext e actorId due resolved rest s).1 (.processDueHolds nowMs actorId)
        (releaseNext e actorId due resolved rest s).2 ∧
      DueSettled (releaseNext e actorId due resolved rest s).1 (.processDueHolds nowMs actorId)
        (releaseNext e actorId due resolved rest s).2 := by
  cases rest with
  | nil =>
    refine ⟨trivial, fun _ => ⟨due, resolved, rfl, fun hold hmem => ?_⟩⟩
    rcases hdue hold hmem with hnil | hsettled
    · cases hnil
    · exact hsettled
  | cons first tail =>
    obtain ⟨s', released, hnext, hfirst⟩ := releaseNext_held (e := e) due resolved tail hactor
       (hheld first tail rfl)
    rw [hnext] at hkept ⊢
    refine ⟨⟨⟨nowMs, rfl⟩, hactor, fun hold hmem => ?_⟩, trivial⟩
    rcases hdue hold hmem with hrest | hsettled
    · rcases mem_cons.mp hrest with rfl | htail
      · exact .inr hfirst
      · exact .inl htail
    · exact .inr (hkept _ hsettled)

theorem atOnce_done (s : Service) (result : Except EscrowHoldError (Service × EscrowHoldRecord)) :
    ∃ outcome, (atOnce s result).2 = .done outcome := by
  cases result with
  | error | ok => exact ⟨_, rfl⟩

/-- A call of another method ends at once, and nothing is asked of it. -/
theorem underway_of_done {task : Task}
    (hother : ∀ nowMs actorId, request = .processDueHolds nowMs actorId → trim actorId = "")
    (htask : ∃ outcome, task = .done outcome) :
    Underway s request task ∧ DueSettled s request task := by
  obtain ⟨outcome, rfl⟩ := htask
  refine ⟨trivial, ?_⟩
  cases request with
  | processDueHolds nowMs actorId => exact fun hactor => absurd (hother nowMs actorId rfl) hactor
  | _ => trivial

/-- **One segment** of a call that is not overtaken. -/
theorem resume_settles (hkeyed : s.Keyed) (hpc : Underway s request (.waiting pc))
    (hheld : ¬ pc.Overtaken s) (hkept : ∀ id, Settled s id → Settled (resume e pc s).1 id) :
    Underway (resume e pc s).1 request (resume e pc s).2 ∧
      DueSettled (resume e pc s).1 request (resume e pc s).2 := by
  cases pc with
  | start request' =>
    obtain rfl : request' = request := hpc
    cases request' with
    | processDueHolds nowMs actorId =>
      by_cases hactor : trim actorId = ""
      · refine underway_of_done ?_ (releaseNext_invalid _ _ _ hactor)
        intro nowMs' actorId' heq
        obtain ⟨-, rfl⟩ := Request.processDueHolds.inj heq
        exact hactor
      · refine releaseNext_settles hactor (fun hold hmem => .inl hmem) ?_ hkept
        intro hold tail hdue
        -- what the snapshot lists is held
        obtain ⟨hmem, hheld⟩ := mem_filter.mp (hdue.symm ▸ mem_cons_self)
        rw [Service.getHold, get_key_of_mem hkeyed hmem]
        exact congrArg some (of_decide_eq_true hheld).1
    | _ => exact underway_of_done nofun (atOnce_done _ _)
  | releasing actorId due rest resolved =>
    obtain ⟨⟨nowMs, rfl⟩, hactor, hdue⟩ := hpc
    refine releaseNext_settles hactor hdue ?_ hkept
    rintro hold tail rfl
    exact not_not.mp hheld

/-- A loop that is overtaken rejects. -/
theorem resume_overtaken (hpc : Underway s request (.waiting pc)) (h : pc.Overtaken s) :
    ¬ DueSettled (resume e pc s).1 request (resume e pc s).2 ∧
      Underway (resume e pc s).1 request (resume e pc s).2 := by
  unfold Pc.Overtaken at h
  split at h
  next actorId due hold rest resolved =>
    obtain ⟨⟨nowMs, rfl⟩, hactor, -⟩ := hpc
    obtain ⟨err, herr⟩ := releaseNext_not_held (e := e) actorId due resolved rest h
    rw [resume, herr]
    refine ⟨fun hsettled => ?_, trivial⟩
    obtain ⟨_, _, hok, -⟩ := hsettled hactor
    cases hok
  · exact h.elim

/-! ## Runs -/

variable {σ : State} {k : Cmd}

/-- The command takes a loop to a hold that is no longer held. -/
def Overtaken (σ : State) (k : Cmd) : Prop :=
  match resumed σ k with
  | some (_, pc) => pc.Overtaken σ.shared
  | none => False

instance (σ : State) (k : Cmd) : Decidable (Overtaken σ k) := by
  unfold Overtaken
  exact match resumed σ k with
    | some (_, pc) => inferInstanceAs (Decidable (pc.Overtaken σ.shared))
    | none => .isFalse fun h => h

theorem DrawsFresh.segment (h : DrawsFresh σ k) (hk : resumed σ k = some (e, pc)) :
    ∀ input actorId, pc = .start (.createHold input actorId) →
      σ.shared.getHold ("hold-" ++ e.random) = none := by
  rintro input actorId rfl
  rw [DrawsFresh, hk] at h
  exact h

theorem resume_settled (hfresh : DrawsFresh σ k) (hk : resumed σ k = some (e, pc))
    (h : Settled σ.shared id) : Settled (resume e pc σ.shared).1 id :=
  (resume_move e pc σ.shared).settled (hfresh.segment hk) h

theorem Underway.kept {task : Task} (h : Underway s request task)
    (hkept : ∀ id, Settled s id → Settled s' id) : Underway s' request task := by
  unfold Underway at h ⊢
  split at h
  · exact h
  · obtain ⟨hrequest, hactor, hdue⟩ := h
    exact ⟨hrequest, hactor, fun hold hmem => (hdue hold hmem).imp_right (hkept hold.id)⟩
  · trivial

theorem DueSettled.kept {task : Task} (h : DueSettled s request task)
    (hkept : ∀ id, Settled s id → Settled s' id) : DueSettled s' request task := by
  unfold DueSettled at h ⊢
  split at h
  · intro hactor
    obtain ⟨due, resolved, houtcome, hdue⟩ := h hactor
    exact ⟨due, resolved, houtcome, fun hold hmem => hkept _ (hdue hold hmem)⟩
  · trivial

structure Invariant (σ : State) : Prop where
  keyed : σ.shared.Keyed
  underway : Each Underway σ

theorem invariant_opened : Invariant opened := ⟨nodup_nil, forall_mem_nil _⟩

theorem Invariant.step (h : Invariant σ) (hfresh : DrawsFresh σ k) :
    Invariant (step service σ k) := by
  refine ⟨shared_step h.keyed fun e pc _ => (resume_move e pc _).keyed h.keyed,
    h.underway.step (fun q => rfl) ?_ ?_⟩
  · intro e q pc hk hpc
    by_cases hovertaken : pc.Overtaken σ.shared
    · exact (resume_overtaken hpc hovertaken).2
    · exact (resume_settles h.keyed hpc hovertaken fun id => resume_settled hfresh hk).1
  · intro e pc q task hk htask
    exact htask.kept fun id => resume_settled hfresh hk

/-- A command leaves every ended `processDueHolds` with its holds settled
exactly if it does not overtake one. -/
theorem step_dueSettled (h : Invariant σ) (hfresh : DrawsFresh σ k)
    (hsettled : Each DueSettled σ) :
    Each DueSettled (step service σ k) ↔ ¬ Overtaken σ k := by
  constructor
  · intro hstep hovertaken
    unfold Overtaken at hovertaken
    split at hovertaken
    next e pc hk =>
      obtain ⟨q, hbefore, hafter⟩ := resumed_call (p := service) hk
      have hcall := hstep _ hafter
      rw [step_shared, hk] at hcall
      exact (resume_overtaken (h.underway _ hbefore) hovertaken).1 hcall
    · exact hovertaken
  · intro hnot
    have hboth : Each (fun s q task => Underway s q task ∧ DueSettled s q task) σ :=
      fun c hc => ⟨h.underway c hc, hsettled c hc⟩
    have hstart : ∀ q, Underway σ.shared q (.waiting (service.start q)) ∧
        DueSettled σ.shared q (.waiting (service.start q)) := by
      intro q
      exact ⟨rfl, by cases q <;> trivial⟩
    refine fun c hc => (hboth.step hstart ?_ ?_ c hc).2
    · intro e q pc hk hpc
      have hheld : ¬ pc.Overtaken σ.shared := by
        rw [Overtaken, hk] at hnot
        exact hnot
      exact resume_settles h.keyed hpc.1 hheld fun id => resume_settled hfresh hk
    · intro e pc q task hk htask
      exact ⟨htask.1.kept fun id => resume_settled hfresh hk,
        htask.2.kept fun id => resume_settled hfresh hk⟩

/-- **Resolved once, and settled unless overtaken**: in every run no hold
is resolved twice or released after a dispute. Where ids are drawn fresh,
every `processDueHolds` resolves and leaves nothing held that it found
due, exactly if no loop comes to a hold that has left the state `held`. -/
theorem holds_settled_iff (ks : List Cmd) :
    Always (step service) (fun σ => ∀ hold ∈ σ.shared.holds,
        hold.auditTrail.countP EscrowHoldAuditEntry.resolves ≤ 1 ∧
        ((∃ entry ∈ hold.auditTrail, entry.action = .disputed) →
          ∀ entry ∈ hold.auditTrail, entry.action ≠ .released)) opened ks ∧
      (Along (step service) DrawsFresh opened ks →
        (Always (step service) (Each DueSettled) opened ks ↔
          Along (step service) (fun σ k => ¬ Overtaken σ k) opened ks)) := by
  constructor
  · have hconsistent : Always (step service)
        (fun σ => ∀ hold ∈ σ.shared.holds, Consistent hold) opened ks :=
      always_of_inv (fun σ k h => shared_step
        (I := fun s : Service => ∀ hold ∈ s.holds, Consistent hold) h
        fun e pc _ => (resume_move e pc _).consistent h) (forall_mem_nil _) ks
    refine hconsistent.mono fun σ h hold hmem => ⟨?_, (h hold hmem).disputed⟩
    rw [(h hold hmem).once]
    split
    · exact Nat.le_refl 1
    · exact Nat.zero_le 1
  · intro hfresh
    exact always_iff_along_within (fun σ k h hk => Invariant.step h hk)
      (fun σ k h hk hsettled => step_dueSettled h hk hsettled)
      invariant_opened (forall_mem_nil _) hfresh

/-- Three holds are due. While `processDueHolds` waits after the first, the
buyer disputes the second. -/
def disputedMeanwhile : List Cmd :=
  let input (bookingIntentId : String) : CreateEscrowHoldInput :=
    { bookingIntentId, amountCents := 100, currency := "USD", supplierId := "s", buyerId := "b"
      slotEndTimeMs := 0, confirmationWindowMs := 0 }
  let env (random : String) : Env := { startMs := 1, now := 1, random }
  [.call (.createHold (input "i") "b"), .resume 0 (env "x"),
   .call (.createHold (input "j") "b"), .resume 1 (env "y"),
   .call (.createHold (input "k") "b"), .resume 2 (env "z"),
   .call (.processDueHolds none "system"), .resume 3 (env ""),
   .call (.disputeHold "hold-y" "b" none), .resume 4 (env ""), .resume 3 (env "")]

def rejection : Task → Option EscrowHoldError
  | .done (.error err) => some err
  | _ => none

/-- `processDueHolds` rejects, and the third hold stays held. -/
theorem disputedMeanwhile_rejects :
    ((Coop.run service opened disputedMeanwhile).calls[3]?).bind (fun c => rejection c.task)
        = some (.alreadyResolved "hold-y" .disputed) ∧
      ((Coop.run service opened disputedMeanwhile).shared.holds.map fun hold =>
        (hold.id, hold.state)) = [("hold-x", .released), ("hold-y", .disputed), ("hold-z", .held)] ∧
      ((Coop.run service opened (disputedMeanwhile.take 7)).shared.due 1).map
        EscrowHoldRecord.id = ["hold-x", "hold-y", "hold-z"] := by
  decide +kernel

theorem disputedMeanwhile_unsettled :
    Along (step service) DrawsFresh opened disputedMeanwhile ∧
      ¬ Always (step service) (Each DueSettled) opened disputedMeanwhile := by
  have hfresh : Along (step service) DrawsFresh opened disputedMeanwhile := by
    decide +kernel
  refine ⟨hfresh, fun hsettled => ?_⟩
  have hnever := ((holds_settled_iff disputedMeanwhile).2 hfresh).mp hsettled
  revert hnever
  decide +kernel

end ChronoPay.EscrowHoldings
