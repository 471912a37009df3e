import ChronoPay.IntentSafety

/-!
# CreateAtomicity — what a failed `createIntent` leaves behind

`createIntent` persists the intent and only then reserves the slot, and
nothing undoes the first when the second throws. Run without other
requests, the reservation can only fail for two reasons the checks did
not look at: the escrow pause, and the redemption deadline read from
`Date.now()` rather than from the service's own clock.

`createDraft` is the call's checks without the awaits between them;
`createAlone_eq` connects it to the cooperative program.
-/

namespace ChronoPay

open Coop Option Result

variable {cfg : ServiceConfig} {e : Env} {input : CreateBookingIntentInput} {actor : AuthContext}
  {s : Store}

/-- `createIntent` with no other request in between; six segments are
enough (`createAlone_eq`). -/
def createAlone (cfg : ServiceConfig) (e : Env) (input : CreateBookingIntentInput)
    (actor : AuthContext) (s : Store) : Store × Coop.Task Pc Outcome :=
  finish (service cfg) e 6 (.start (.createIntent input actor)) s

/-- The exchange rate to store, if one is needed. -/
def fxSnapshot (cfg : ServiceConfig) (e : Env) (input : CreateBookingIntentInput)
    (slot : SlotRecord) : Except ServiceError (Option FxRateSnapshot) :=
  match fxPair cfg input slot with
  | some (base, target) => (captureFxRate e base target).map some
  | none => .ok none

/-- The checks after the price is known, and the record to insert. -/
def draftWithSnapshots (cfg : ServiceConfig) (e : Env) (input : CreateBookingIntentInput)
    (actor : AuthContext) (slot : SlotRecord) (pricing : Option PricingSnapshot) :
    Except ServiceError BookingIntentRecord := do
  let snapshots ← captureSnapshots cfg e slot pricing
  let fx ← fxSnapshot cfg e input slot
  checkHoldDeadline e input
  return draftIntent e input actor slot snapshots fx

/-- The checks of `createIntent` in order, and the record to insert. -/
def createDraft (cfg : ServiceConfig) (e : Env) (input : CreateBookingIntentInput)
    (actor : AuthContext) (s : Store) : Except ServiceError BookingIntentRecord := do
  let slot ← checkSlot e input actor s.slots
  checkExistingForCustomer (s.intents.findBySlotIdAndCustomer input.slotId actor.userId)
  checkExistingForSlot (s.intents.findBySlotId input.slotId)
  let pricing ← (resolvePricingSnapshot slot s.intents.listAll (e.nowMs .pricing)).mapError .pricing
  draftWithSnapshots cfg e input actor slot pricing

/-! ## Running a call segment by segment -/

/-- A segment and up to `n` more of the same call. -/
def settle (cfg : ServiceConfig) (e : Env) (n : Nat) (seg : Segment) (s : Store) :
    Store × Coop.Task Pc Outcome :=
  match perform e seg s with
  | (s', .waiting pc) => finish (service cfg) e n pc s'
  | (s', .done outcome) => (s', .done outcome)

theorem finish_eq_settle (n : Nat) (pc : Pc) :
    finish (service cfg) e (n + 1) pc s = settle cfg e n (segment cfg e s pc) s := by
  simp only [finish, settle, service]
  rcases perform e (segment cfg e s pc) s with ⟨s', pc' | outcome⟩ <;> rfl

theorem settle_await (n : Nat) (pc : Pc) :
    settle cfg e (n + 1) (.await pc) s = settle cfg e n (segment cfg e s pc) s :=
  finish_eq_settle n pc

/-- A failed check ends the call where it is. -/
theorem settle_attempt {α : Type} (n : Nat) (checks : Except ServiceError α)
    (rest : α → Segment) :
    settle cfg e n (attempt checks rest) s = match checks with
      | .error err => (s, .done (.error err))
      | .ok a => settle cfg e n (rest a) s := by
  cases checks <;> rfl

/-- What is left of `createIntent` once the draft is ready: insert it,
then reserve the slot. -/
def insertAndReserve (e : Env) (slotId : String) (draft : BookingIntentRecord) (s : Store) :
    Store × Coop.Task Pc Outcome :=
  let created := s.intents.numbered draft
  let intents : BookingIntents :=
    { intents := s.intents.intents ++ [created], sequence := s.intents.sequence + 1 }
  match reserveSlot { escrowPaused := e.escrowPaused } none e.dateNow slotId s.slots with
  | .error err => ({ s with intents }, .done (.error (.scheduling err)))
  | .ok slots => ({ slots, intents }, .done (.ok (.intent created)))

variable {slot : SlotRecord} {pricing : Option PricingSnapshot}

/-- When no active intent stands in the way, the insertion goes through. -/
theorem settle_createInsert {snapshots : CreateSnapshots} {fx : Option FxRateSnapshot} (n : Nat)
    (hnone : s.intents.findBySlotId slot.id = none) :
    settle cfg e (n + 1) (createInsert e input actor slot snapshots fx) s
      = match checkHoldDeadline e input with
        | .error err => (s, .done (.error err))
        | .ok _ => insertAndReserve e input.slotId
            (draftIntent e input actor slot snapshots fx) s := by
  rw [createInsert, settle_attempt]
  cases checkHoldDeadline e input with
  | error err => rfl
  | ok _ =>
    have hguard : s.intents.findBySlotId (draftIntent e input actor slot snapshots fx).slotId
        = none := hnone
    have hcreate := BookingIntents.create_eq_some.mpr ⟨fun _ => hguard, rfl, rfl⟩
    simp only [settle, perform, hcreate, finish, service, segment, insertAndReserve]
    cases reserveSlot _ none e.dateNow input.slotId s.slots <;> rfl

theorem settle_createSnapshots (n : Nat) (hnone : s.intents.findBySlotId slot.id = none) :
    settle cfg e (n + 2) (createSnapshots cfg e input actor slot pricing) s
      = match draftWithSnapshots cfg e input actor slot pricing with
        | .error err => (s, .done (.error err))
        | .ok draft => insertAndReserve e input.slotId draft s := by
  rw [createSnapshots, settle_attempt, draftWithSnapshots, fxSnapshot]
  cases captureSnapshots cfg e slot pricing with
  | error err => rfl
  | ok snapshots =>
    cases fxPair cfg input slot with
    | none =>
      simp only [settle_createInsert (n + 1) hnone]
      cases checkHoldDeadline e input <;> rfl
    | some pair =>
      simp only [settle_await, segment, settle_attempt]
      cases captureFxRate e pair.1 pair.2 with
      | error err => rfl
      | ok fx =>
        simp only [settle_createInsert n hnone]
        cases checkHoldDeadline e input <;> rfl

/-- **The call without its awaits**: the checks, then the insertion and
the reservation, in this order and without a way back. -/
theorem createAlone_eq (cfg : ServiceConfig) (e : Env) (input : CreateBookingIntentInput)
    (actor : AuthContext) (s : Store) :
    createAlone cfg e input actor s = match createDraft cfg e input actor s with
      | .error err => (s, .done (.error err))
      | .ok draft => insertAndReserve e input.slotId draft s := by
  rw [createAlone, finish_eq_settle, segment, settle_attempt, createDraft]
  cases hslot : checkSlot e input actor s.slots with
  | error err => rfl
  | ok slot =>
    simp only [settle_await, segment, settle_attempt]
    cases checkExistingForCustomer
        (s.intents.findBySlotIdAndCustomer input.slotId actor.userId) with
    | error err => rfl
    | ok _ =>
      cases hexisting : checkExistingForSlot (s.intents.findBySlotId input.slotId) with
      | error err => rfl
      | ok _ =>
        have hid : slot.id = input.slotId := Slots.findById_id (checkSlot_eq_ok.mp hslot).1
        have hnone : s.intents.findBySlotId slot.id = none := by
          rw [hid]
          exact require_eq_ok.mp hexisting
        simp only [Bind.bind, Except.bind]
        cases hstrategy : slot.pricingStrategy with
        | none =>
          -- without a strategy the source skips `listAll` and its await
          simp only [isSome_none, Bool.false_eq_true, if_false, settle_createSnapshots 1 hnone]
          rw [resolvePricingSnapshot, hstrategy]
          rfl
        | some strategy =>
          simp only [isSome_some, if_true, settle_await, segment, settle_attempt]
          cases (resolvePricingSnapshot slot s.intents.listAll (e.nowMs .pricing)).mapError
              ServiceError.pricing with
          | error err => rfl
          | ok pricing => simp only [settle_createSnapshots 0 hnone]

/-! ## When a failed call leaves something behind -/

/-- Everything `createIntent` checks itself, for the slot it finds. -/
structure Admissible (cfg : ServiceConfig) (e : Env) (input : CreateBookingIntentInput)
    (actor : AuthContext) (s : Store) (slot : SlotRecord) : Prop where
  found : s.slots.findById input.slotId = some slot
  bookable : slot.bookable = true
  unexpired : slot.expiredAt (e.nowMs .bundleExpiry) = false
  transferable : transferableTo slot actor
  notOwn : slot.professional ≠ actor.userId
  noActive : s.intents.findBySlotId input.slotId = none
  priced : Ok (resolvePricingSnapshot slot s.intents.intents (e.nowMs .pricing))
  policy : Ok (snapshotCurrentPolicy cfg.policyRegistry e.overrides slot.professional
    (e.nowMs .cancellationSnapshot))
  rate : fxPair cfg input slot ≠ none → Ok e.fxRate
  deadline : input.bookingType = some .refundableHold →
    ∃ deadline ∈ input.holdDeadlineMs, e.nowMs .holdDeadline < deadline

theorem checkHoldDeadline_ok :
    Ok (checkHoldDeadline e input) ↔ (input.bookingType = some .refundableHold →
      ∃ deadline ∈ input.holdDeadlineMs, e.nowMs .holdDeadline < deadline) := by
  unfold checkHoldDeadline
  split
  next htype =>
    cases input.holdDeadlineMs with
    | none => simp [htype]
    | some deadline => simp [htype]
  next htype => simp [htype]

theorem fxSnapshot_ok :
    Ok (fxSnapshot cfg e input slot) ↔ (fxPair cfg input slot ≠ none → Ok e.fxRate) := by
  unfold fxSnapshot captureFxRate
  cases fxPair cfg input slot with
  | none => simp
  | some pair => cases e.fxRate <;> simp [Except.map]

theorem captureSnapshots_ok :
    Ok (captureSnapshots cfg e slot pricing) ↔
      Ok (snapshotCurrentPolicy cfg.policyRegistry e.overrides slot.professional
        (e.nowMs .cancellationSnapshot)) := by
  unfold captureSnapshots
  cases snapshotCurrentPolicy cfg.policyRegistry e.overrides slot.professional
    (e.nowMs .cancellationSnapshot) with
  | error err => exact iff_of_false (not_ok_error _) (not_ok_error _)
  | ok snapshot => exact iff_of_true (ok_ok _) (ok_ok _)

theorem draftWithSnapshots_ok :
    Ok (draftWithSnapshots cfg e input actor slot pricing) ↔
      Ok (captureSnapshots cfg e slot pricing) ∧ Ok (fxSnapshot cfg e input slot) ∧
        Ok (checkHoldDeadline e input) := by
  simp only [Ok, draftWithSnapshots, bind_eq_ok]
  constructor
  · rintro ⟨_, snapshots, hsnapshots, fx, hfx, u, hdeadline, -⟩
    exact ⟨⟨snapshots, hsnapshots⟩, ⟨fx, hfx⟩, ⟨u, hdeadline⟩⟩
  · rintro ⟨⟨snapshots, hsnapshots⟩, ⟨fx, hfx⟩, ⟨u, hdeadline⟩⟩
    exact ⟨_, snapshots, hsnapshots, fx, hfx, u, hdeadline, rfl⟩

/-- The checks pass exactly for an admissible request. -/
theorem createDraft_ok_iff :
    Ok (createDraft cfg e input actor s) ↔ ∃ slot, Admissible cfg e input actor s slot := by
  simp only [Ok, createDraft, bind_eq_ok]
  constructor
  · rintro ⟨draft, slot, hslot, _, -, _, hexisting, pricing, hpricing, h⟩
    obtain ⟨hfound, hbookable, hunexpired, htransferable, hnotOwn⟩ := checkSlot_eq_ok.mp hslot
    obtain ⟨hsnapshots, hrate, hdeadline⟩ := draftWithSnapshots_ok.mp ⟨draft, h⟩
    exact ⟨slot,
      { found := hfound, bookable := hbookable, unexpired := hunexpired
        transferable := htransferable, notOwn := hnotOwn
        noActive := require_eq_ok.mp hexisting
        priced := ⟨pricing, mapError_eq_ok.mp hpricing⟩
        policy := captureSnapshots_ok.mp hsnapshots
        rate := fxSnapshot_ok.mp hrate
        deadline := checkHoldDeadline_ok.mp hdeadline }⟩
  · rintro ⟨slot, hadm⟩
    obtain ⟨pricing, hpricing⟩ := hadm.priced
    obtain ⟨draft, hdraft⟩ := draftWithSnapshots_ok.mpr
      ⟨captureSnapshots_ok.mpr hadm.policy, fxSnapshot_ok.mpr hadm.rate,
        checkHoldDeadline_ok.mpr hadm.deadline⟩
    refine ⟨draft, slot, checkSlot_eq_ok.mpr ⟨hadm.found, hadm.bookable, hadm.unexpired,
      hadm.transferable, hadm.notOwn⟩, (), require_eq_ok.mpr ?_, (),
      require_eq_ok.mpr hadm.noActive, pricing, mapError_eq_ok.mpr hpricing, hdraft⟩
    have hnone := List.find?_eq_none.mp hadm.noActive
    refine List.find?_eq_none.mpr fun entry hentry hboth => ?_
    simp only [Bool.and_eq_true] at hboth
    exact hnone entry hentry hboth.1

/-- For an admissible request only the pause and the deadline by
`Date.now()` are left to fail the reservation. -/
theorem Admissible.reserve_error_iff (hadm : Admissible cfg e input actor s slot) :
    (∃ err, reserveSlot { escrowPaused := e.escrowPaused } none e.dateNow input.slotId s.slots
      = .error err) ↔ e.escrowPaused = true ∨ slot.expiredAt e.dateNow = true := by
  rw [reserveSlot_error_iff]
  simp only [Switches.Open, Switches.pausedTenant, Slots.Free, hadm.found, Option.mem_def,
    Option.some.injEq, exists_eq_left', hadm.bookable, filter_none, and_true, true_and]
  cases e.escrowPaused <;> cases slot.expiredAt e.dateNow <;> simp

/-- **A failed `createIntent` leaves the store as it was** unless the
request passes every check of its own and then fails to reserve: the
escrow is paused, or the deadline has passed by `Date.now()`. -/
theorem createIntent_throw_unchanged_iff (cfg : ServiceConfig) (e : Env)
    (input : CreateBookingIntentInput) (actor : AuthContext) (s : Store) :
    (∀ s' err, createAlone cfg e input actor s = (s', .done (.error err)) →
      s'.intents.intents = s.intents.intents ∧
        ∀ slotId, s'.slots.flag slotId = s.slots.flag slotId) ↔
    ¬ ∃ slot, Admissible cfg e input actor s slot ∧
      (e.escrowPaused = true ∨ slot.expiredAt e.dateNow = true) := by
  rw [createAlone_eq]
  cases hdraft : createDraft cfg e input actor s with
  | error err =>
    refine iff_of_true ?_ ?_
    · rintro s' err' heq
      cases heq
      exact ⟨rfl, fun _ => rfl⟩
    · rintro ⟨slot, hadm, -⟩
      have hok := createDraft_ok_iff.mpr ⟨slot, hadm⟩
      rw [hdraft] at hok
      exact not_ok_error _ hok
  | ok draft =>
    obtain ⟨slot, hadm⟩ := createDraft_ok_iff.mp ⟨draft, hdraft⟩
    dsimp only [insertAndReserve]
    cases hreserve : reserveSlot { escrowPaused := e.escrowPaused } none e.dateNow input.slotId
        s.slots with
    | error err =>
      -- the intent is already in, and stays
      refine iff_of_false (fun h => ?_) ?_
      · have hintents := (h _ _ rfl).1
        simp at hintents
      · rw [not_not]
        exact ⟨slot, hadm, hadm.reserve_error_iff.mp ⟨err, hreserve⟩⟩
    | ok slots =>
      refine iff_of_true ?_ ?_
      · rintro s' err heq
        cases heq
      · rintro ⟨slot', hadm', hfail⟩
        obtain ⟨err, herr⟩ := hadm'.reserve_error_iff.mpr hfail
        rw [hreserve] at herr
        cases herr

/-- Under a migration pause Ann's request throws, and its pending intent
stays on a slot that is still bookable. -/
theorem createIntent_paused_leaves_intent :
    ∃ s', createAlone {} { sampleEnv with escrowPaused := true } { slotId := "slot" } ann
        { slots := [sampleSlot] } = (s', .done (.error (.scheduling .escrowPaused))) ∧
      s'.intents.intents = [samplePending] ∧ s'.slots = [sampleSlot] := by
  refine ⟨{ slots := [sampleSlot], intents := { intents := [samplePending], sequence := 2 } },
    ?_, rfl, rfl⟩
  decide +kernel

end ChronoPay
