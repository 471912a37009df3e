import ChronoPay.SchedulingService

/-!
# SlotOwnership — whose reservation a release undoes

The repository only has a flag for each slot, so a release cannot see
whose reservation it undoes. Here a run is TRACED: next to the service
stands who made the reservation each slot is under and when, when each
bundle was reserved and given back, and when each intent was cancelled.
The trace only watches the flags and the bundle map; the service never
reads it.

`Owned` says that a reserved bundle really holds its slots. A supplier
cancellation keeps that when the intent's slots are its own and it is
the first to give them back (`CancelsOwn`); then no release touches
anybody else's reservation. Without it, a second cancellation frees a
slot that has been sold again.
-/

namespace ChronoPay

open Function List Machine Option Slots

namespace SchedulingService

inductive Holder where
  | single
  | bundle (bundleId : String)
  deriving DecidableEq, Repr

/-- The reservation a slot is under: who made it, and at which step. -/
structure Hold where
  holder : Holder
  since : Nat
  deriving DecidableEq, Repr

structure Traced where
  state : SchedulingState
  clock : Nat := 0
  hold : String → Option Hold := fun _ => none
  /-- When the bundle was reserved, while it is. -/
  reservedAt : String → Option Nat := fun _ => none
  /-- When the bundle was last given back. -/
  releasedAt : String → Option Nat := fun _ => none
  /-- When the intent's slots were last given back by a cancellation. -/
  cancelledAt : String → Option Nat := fun _ => none

/-- On whose behalf a call reserves. -/
def Call.holder : Call → Holder
  | .reserveBundle _ _ bundleId _ _ => .bundle bundleId
  | _ => .single

/-- The call cancels the intent, past the checks. -/
def cancels (intents : BookingIntents) (bookingIntentId : String) : Call → Bool
  | .supplierCancel call =>
    call.bookingIntentId = bookingIntentId && (cancellableIntent intents call).toBool
  | _ => false

def tracedStep (sha256 : String → String) (intents : BookingIntents) (t : Traced) (k : Call) :
    Traced :=
  let s := t.state
  let s' := step sha256 intents s k
  { state := s'
    clock := t.clock + 1
    hold := fun slotId =>
      if s'.slots.flag slotId = some false then
        if s.slots.flag slotId = some true then some ⟨k.holder, t.clock⟩ else t.hold slotId
      else none
    reservedAt := fun bundleId =>
      if (s'.reservedBundles bundleId).isSome then
        if (s.reservedBundles bundleId).isSome then t.reservedAt bundleId else some t.clock
      else none
    releasedAt := fun bundleId =>
      if (s.reservedBundles bundleId).isSome ∧ (s'.reservedBundles bundleId).isNone then
        some t.clock
      else t.releasedAt bundleId
    cancelledAt := fun bookingIntentId =>
      if cancels intents bookingIntentId k then some t.clock else t.cancelledAt bookingIntentId }

/-- The call turns the slot from reserved to bookable. -/
def Frees (sha256 : String → String) (intents : BookingIntents) (t : Traced) (k : Call)
    (slotId : String) : Prop :=
  t.state.slots.flag slotId = some false ∧
    (step sha256 intents t.state k).slots.flag slotId = some true

/-- The reservation is a different, later one than those the call is to
give back. For a bundle: made after the bundle was reserved. For an
intent: made for another bundle, or after an earlier cancellation of the
intent, or not for its bundle and after that was given back. -/
def Foreign (intents : BookingIntents) (t : Traced) : Call → Hold → Prop
  | .releaseBundle bundleId, hold => ∃ m ∈ t.reservedAt bundleId, m < hold.since
  | .supplierCancel call, hold => ∃ intent ∈ intents.findById call.bookingIntentId,
      (∃ bundleId, hold.holder = .bundle bundleId ∧ bundleOf intent ≠ some bundleId) ∨
      (∃ m ∈ t.cancelledAt call.bookingIntentId, m < hold.since) ∨
      (∃ bundleId ∈ bundleOf intent, hold.holder ≠ .bundle bundleId ∧
        ∃ m ∈ t.releasedAt bundleId, m < hold.since)
  | _, _ => False

/-- The call frees no slot under a foreign reservation. -/
def FreesOwn (sha256 : String → String) (intents : BookingIntents) (t : Traced) (k : Call) : Prop :=
  ∀ slotId hold, Frees sha256 intents t k slotId → t.hold slotId = some hold →
    ¬ Foreign intents t k hold

/-- If the call is a cancellation past its checks: the slots of the intent
exist and belong to no other reserved bundle, and neither the intent nor
its bundle was given back before. -/
def CancelsOwn (intents : BookingIntents) (t : Traced) (k : Call) : Prop :=
  ∀ call intent, k = .supplierCancel call → cancellableIntent intents call = .ok intent →
    RowsPresent t.state.slots (intent.slotIds.getD []) ∧
    (∀ slotId ∈ intent.slotIds.getD [], ∀ bundleId slotIds,
      t.state.reservedBundles bundleId = some slotIds → slotId ∈ slotIds →
      bundleOf intent = some bundleId) ∧
    t.cancelledAt call.bookingIntentId = none ∧
    ∀ bundleId ∈ bundleOf intent, t.releasedAt bundleId = none

variable {sha256 : String → String} {intents : BookingIntents} {s s' : SchedulingState}
  {t : Traced} {k : Call} {slotIds freed : List String} {bundleId : String}

/-! ## What a call can do to the flags and the bundles -/

/-- Bookable slots are reserved. -/
structure Takes (slotIds : List String) (s s' : SchedulingState) : Prop where
  free : ∀ slotId ∈ slotIds, s.slots.flag slotId = some true
  flags : ∀ slotId, s'.slots.flag slotId
    = if slotId ∈ slotIds then some false else s.slots.flag slotId

/-- Slots are made bookable and a bundle, if any, is given back with them:
all of the bundle's slots, and no slot of another bundle. -/
structure GivesBack (freed : List String) (gone : Option String) (s s' : SchedulingState) :
    Prop where
  flags : ∀ slotId, s'.slots.flag slotId
    = if slotId ∈ freed then (s.slots.flag slotId).map (fun _ => true) else s.slots.flag slotId
  bundles : ∀ bundleId, s'.reservedBundles bundleId
    = if gone = some bundleId then none else s.reservedBundles bundleId
  whole : ∀ bundleId slotIds, gone = some bundleId → s.reservedBundles bundleId = some slotIds →
    slotIds ⊆ freed
  apart : ∀ bundleId slotIds, s.reservedBundles bundleId = some slotIds →
    ∀ slotId ∈ slotIds, slotId ∈ freed → gone = some bundleId

/-- A call that leaves the flags and the bundles as they are. -/
theorem GivesBack.idle (hflags : ∀ slotId, s'.slots.flag slotId = s.slots.flag slotId)
    (hbundles : s'.reservedBundles = s.reservedBundles) : GivesBack [] none s s' where
  flags slotId := by simp [hflags]
  bundles bundleId := by simp [hbundles]
  whole := by simp
  apart := by simp

/-! ## A reserved bundle holds its slots -/

structure Owned (t : Traced) : Prop where
  /-- Only reserved slots are held. -/
  flag : ∀ slotId hold, t.hold slotId = some hold → t.state.slots.flag slotId = some false
  /-- A reserved bundle holds its slots since it was reserved. -/
  held : ∀ bundleId slotIds, t.state.reservedBundles bundleId = some slotIds →
    ∃ m, t.reservedAt bundleId = some m ∧
      ∀ slotId ∈ slotIds, t.hold slotId = some ⟨.bundle bundleId, m⟩
  /-- A bundle that holds a slot is reserved, with the slot. -/
  reserved : ∀ slotId bundleId m, t.hold slotId = some ⟨.bundle bundleId, m⟩ →
    ∃ slotIds, t.state.reservedBundles bundleId = some slotIds ∧ slotId ∈ slotIds

variable {slotId : String}

theorem Owned.bundle_flag (h : Owned t) (hbundle : t.state.reservedBundles bundleId = some slotIds)
    (hmem : slotId ∈ slotIds) : t.state.slots.flag slotId = some false := by
  obtain ⟨m, -, hheld⟩ := h.held _ _ hbundle
  exact h.flag _ _ (hheld slotId hmem)

theorem Owned.rowsPresent (h : Owned t)
    (hbundle : t.state.reservedBundles bundleId = some slotIds) :
    RowsPresent t.state.slots slotIds := by
  intro slotId hmem
  rw [← flag_isSome, h.bundle_flag hbundle hmem]
  rfl

/-- The hold on a slot after a call, from its flag before and after. -/
theorem tracedStep_hold (slotId : String) :
    (tracedStep sha256 intents t k).hold slotId
      = if (step sha256 intents t.state k).slots.flag slotId = some false then
          if t.state.slots.flag slotId = some true then some ⟨k.holder, t.clock⟩
          else t.hold slotId
        else none := rfl

theorem tracedStep_hold_flag {hold : Hold}
    (h : (tracedStep sha256 intents t k).hold slotId = some hold) :
    (step sha256 intents t.state k).slots.flag slotId = some false := by
  rw [tracedStep_hold] at h
  split at h
  · assumption
  · cases h

/-- A slot that is reserved before and after stays under its reservation. -/
theorem tracedStep_hold_kept (hbefore : t.state.slots.flag slotId = some false)
    (hafter : (step sha256 intents t.state k).slots.flag slotId = some false) :
    (tracedStep sha256 intents t k).hold slotId = t.hold slotId := by
  simp [tracedStep_hold, hbefore, hafter]

theorem Owned.givesBack (h : Owned t) {gone : Option String}
    (hgives : GivesBack freed gone t.state (step sha256 intents t.state k)) :
    Owned (tracedStep sha256 intents t k) where
  flag slotId hold := tracedStep_hold_flag
  held bundleId slotIds hafter := by
    have hgone : gone ≠ some bundleId ∧ t.state.reservedBundles bundleId = some slotIds := by
      have := hgives.bundles bundleId
      rw [show (step sha256 intents t.state k).reservedBundles bundleId = some slotIds from hafter]
        at this
      split at this
      · cases this
      · exact ⟨‹_›, this.symm⟩
    obtain ⟨hgone, hbefore⟩ := hgone
    obtain ⟨m, hat, hheld⟩ := h.held _ _ hbefore
    refine ⟨m, ?_, fun slotId hmem => ?_⟩
    · have hsome : ((step sha256 intents t.state k).reservedBundles bundleId).isSome = true :=
        isSome_of_eq_some hafter
      simp [tracedStep, hbefore, hsome, hat]
    · have hflag := h.bundle_flag hbefore hmem
      have hkept : slotId ∉ freed := fun hfreed => hgone (hgives.apart _ _ hbefore _ hmem hfreed)
      rw [tracedStep_hold_kept hflag (by rw [hgives.flags, if_neg hkept, hflag]), hheld _ hmem]
  reserved slotId bundleId m hhold := by
    have hafter := tracedStep_hold_flag hhold
    have hflags := hgives.flags slotId
    have hkept : slotId ∉ freed := by
      intro hfreed
      rw [if_pos hfreed, hafter] at hflags
      cases hflag : t.state.slots.flag slotId <;> simp [hflag] at hflags
    rw [if_neg hkept, hafter] at hflags
    -- so the hold is an old one, and its bundle went only if the slot did
    rw [tracedStep_hold_kept hflags.symm hafter] at hhold
    obtain ⟨slotIds, hbundle, hmem⟩ := h.reserved _ _ _ hhold
    have hgone : gone ≠ some bundleId := fun hgone => hkept (hgives.whole _ _ hgone hbundle hmem)
    exact ⟨slotIds, (hgives.bundles bundleId).trans (by rw [if_neg hgone, hbundle]), hmem⟩

theorem Takes.hold_new (htakes : Takes slotIds t.state (step sha256 intents t.state k))
    (hmem : slotId ∈ slotIds) :
    (tracedStep sha256 intents t k).hold slotId = some ⟨k.holder, t.clock⟩ := by
  simp [tracedStep_hold, htakes.flags, hmem, htakes.free]

theorem Takes.hold_cases (htakes : Takes slotIds t.state (step sha256 intents t.state k))
    {hold : Hold} (hhold : (tracedStep sha256 intents t k).hold slotId = some hold) :
    (slotId ∈ slotIds ∧ hold = ⟨k.holder, t.clock⟩) ∨ t.hold slotId = some hold := by
  by_cases hmem : slotId ∈ slotIds
  · exact .inl ⟨hmem, by simpa [htakes.hold_new hmem, eq_comm] using hhold⟩
  · have hafter := tracedStep_hold_flag hhold
    have hbefore := htakes.flags slotId
    rw [if_neg hmem, hafter] at hbefore
    exact .inr (tracedStep_hold_kept hbefore.symm hafter ▸ hhold)

/-- A call that takes slots, for itself or for a bundle that it adds. -/
theorem Owned.takes (h : Owned t) (htakes : Takes slotIds t.state (step sha256 intents t.state k))
    (hkept : ∀ id ids, t.state.reservedBundles id = some ids →
      (step sha256 intents t.state k).reservedBundles id = some ids)
    (hnew : ∀ id ids, (step sha256 intents t.state k).reservedBundles id = some ids →
      t.state.reservedBundles id = some ids ∨
        t.state.reservedBundles id = none ∧ k.holder = .bundle id ∧ ids = slotIds)
    (hholder : ∀ id, k.holder = .bundle id →
      (step sha256 intents t.state k).reservedBundles id = some slotIds) :
    Owned (tracedStep sha256 intents t k) where
  flag slotId hold := tracedStep_hold_flag
  held id ids hafter := by
    have hsome : ((step sha256 intents t.state k).reservedBundles id).isSome = true :=
      isSome_of_eq_some hafter
    rcases hnew id ids hafter with hbefore | ⟨hfresh, hbundle, rfl⟩
    · obtain ⟨m, hat, hheld⟩ := h.held _ _ hbefore
      refine ⟨m, ?_, fun slotId hmem => ?_⟩
      · simp [tracedStep, hbefore, hsome, hat]
      · -- what is held stays held when bookable slots are taken
        have hflag := h.flag _ _ (hheld slotId hmem)
        have hnot : slotId ∉ slotIds := by
          intro htaken
          rw [htakes.free _ htaken] at hflag
          cases hflag
        rw [tracedStep_hold_kept hflag (by rw [htakes.flags, if_neg hnot, hflag]), hheld slotId hmem]
    · -- the new bundle: all of its slots were just taken
      refine ⟨t.clock, ?_, fun slotId hmem => ?_⟩
      · simp [tracedStep, hsome, hfresh]
      · rw [htakes.hold_new hmem, hbundle]
  reserved slotId id m hhold := by
    rcases htakes.hold_cases hhold with ⟨hmem, hself⟩ | hold
    · exact ⟨slotIds, hholder id (Hold.mk.inj hself).1.symm, hmem⟩
    · obtain ⟨ids, hbundle, hmem⟩ := h.reserved _ _ _ hold
      exact ⟨ids, hkept _ _ hbundle, hmem⟩

/-! ## The calls -/

theorem reserveSlot_takes (switches : Switches) (slotId : String) (now : Int)
    (tenantId : Option String) (s : SchedulingState) :
    (reserveSlot switches slotId now tenantId s).1 = s ∨
    (Takes [slotId] s (reserveSlot switches slotId now tenantId s).1 ∧
      (reserveSlot switches slotId now tenantId s).1.reservedBundles = s.reservedBundles) := by
  unfold reserveSlot
  cases hreserve : ChronoPay.reserveSlot switches tenantId now slotId s.slots with
  | error err => exact .inl rfl
  | ok slots =>
    obtain ⟨⟨-, hfree⟩, rfl⟩ := reserveSlot_eq_ok.mp hreserve
    refine .inr ⟨⟨?_, fun slotId' => ?_⟩, rfl⟩
    · simpa using hfree.flag
    · rw [flag_setBookable]
      by_cases hid : slotId' = slotId
      · simp [hid, hfree.flag]
      · simp [hid]

/-- A bundle is reserved as a whole or not at all. -/
theorem reserveBundle_takes (switches : Switches) (now : Nat → Int) (bundleId : String)
    (slotIds : List String) (tenantId : Option String) (s : SchedulingState) :
    ((∃ err, (reserveBundle switches now bundleId slotIds tenantId s).2 = .error err) ∧
      (∀ slotId, (reserveBundle switches now bundleId slotIds tenantId s).1.slots.flag slotId
        = s.slots.flag slotId) ∧
      (reserveBundle switches now bundleId slotIds tenantId s).1.reservedBundles
        = s.reservedBundles) ∨
    ((reserveBundle switches now bundleId slotIds tenantId s).2 = .ok () ∧
      Takes slotIds.eraseDups s (reserveBundle switches now bundleId slotIds tenantId s).1 ∧
      s.reservedBundles bundleId = none ∧
      (reserveBundle switches now bundleId slotIds tenantId s).1.reservedBundles
        = update s.reservedBundles bundleId (some slotIds.eraseDups)) := by
  unfold reserveBundle
  cases switches.pausedTenant tenantId with
  | some tenant => exact .inl ⟨⟨_, rfl⟩, fun _ => rfl, rfl⟩
  | none =>
    cases hbundle : s.reservedBundles bundleId with
    | some reserved => exact .inl ⟨⟨_, rfl⟩, fun _ => rfl, rfl⟩
    | none =>
      obtain ⟨hslots, hfree, hall⟩ := reserveEach_spec switches now 0 slotIds.eraseDups s.slots
      simp only [isSome_none, Bool.false_eq_true, if_false]
      generalize reserveEach switches now 0 slotIds.eraseDups s.slots = result
        at hslots hfree hall ⊢
      obtain ⟨slots, reserved, _ | err⟩ := result
      · dsimp only at hslots hfree hall ⊢
        obtain rfl := hall rfl
        refine .inr ⟨rfl, ⟨hfree, fun slotId => ?_⟩, trivial, rfl⟩
        rw [hslots, flag_setMany]
        by_cases hmem : slotId ∈ slotIds.eraseDups
        · simp [hmem, hfree slotId hmem]
        · simp [hmem]
      · -- the slots reserved so far were bookable, so releasing them undoes it
        dsimp only at hslots hfree ⊢
        subst hslots
        rw [releaseEach_eq]
        · exact .inl ⟨⟨_, rfl⟩, fun slotId => flag_reserve_release hfree, rfl⟩
        · intro slotId hmem
          rw [findById_setMany_isSome, ← flag_isSome, hfree slotId hmem]
          rfl

/-- A bundle that is not reserved cannot be released: the call throws. -/
theorem releaseBundle_unknown (hbundle : s.reservedBundles bundleId = none) :
    (releaseBundle bundleId s).1 = s := by
  rw [releaseBundle, hbundle]

/-- Deleting a bundle from the map, read at any id. -/
theorem update_none_apply (bundles : String → Option (List String)) (bundleId other : String) :
    update bundles bundleId none other
      = if some bundleId = some other then none else bundles other := by
  by_cases hid : bundleId = other
  · simp [hid]
  · simp [hid, update_of_ne (Ne.symm hid)]

/-- A release whose rows are all there. -/
theorem releaseBundle_eq (hbundle : s.reservedBundles bundleId = some slotIds)
    (hrows : RowsPresent s.slots slotIds) :
    (releaseBundle bundleId s).1 = { s with
      slots := s.slots.setMany slotIds true
      reservedBundles := update s.reservedBundles bundleId none } := by
  simp only [releaseBundle, hbundle, releaseEach_eq hrows]

/-- What a cancellation gives back, when its rows are all there. -/
theorem releaseHolds_state {intent : BookingIntentRecord}
    (hrows : RowsPresent s.slots (intent.slotIds.getD []))
    (hbundle : RowsPresent s.slots (bundleSlots intent s)) :
    (releaseHolds intent s).1.slots
      = s.slots.setMany (intent.slotIds.getD [] ++ bundleSlots intent s) true ∧
    ∀ bundleId, (releaseHolds intent s).1.reservedBundles bundleId
      = if bundleOf intent = some bundleId then none else s.reservedBundles bundleId := by
  have happend : ∀ ids, s.slots.setMany (intent.slotIds.getD [] ++ ids) true
      = (s.slots.setMany (intent.slotIds.getD []) true).setMany ids true :=
    fun ids => foldl_append ..
  rw [happend]
  unfold releaseHolds
  rw [releaseEach_eq hrows]
  unfold bundleSlots at hbundle ⊢
  cases hof : bundleOf intent with
  | none => simp
  | some bundleId =>
    rw [hof] at hbundle
    cases hreserved : s.reservedBundles bundleId with
    | none =>
      simp only [hreserved, isSome_none, Bool.false_eq_true, if_false, bind_some,
        getD_none, setMany_nil, true_and]
      intro other
      split
      next hid => rw [← Option.some.inj hid, hreserved]
      · rfl
    | some slotIds =>
      simp only [bind_some, hreserved, getD_some] at hbundle ⊢
      have hrelease : (releaseBundle bundleId
          { s with slots := s.slots.setMany (intent.slotIds.getD []) true }).1 = _ :=
        releaseBundle_eq hreserved (rowsPresent_setMany.mpr hbundle)
      simp only [isSome_some, if_true, hrelease]
      exact ⟨trivial, update_none_apply s.reservedBundles bundleId⟩

theorem supplierCancel_state (call : SupplierCancel) (s : SchedulingState) :
    (handleSupplierCancelBeforeSlotStart sha256 intents call s).1 = s ∨
    ∃ intent, cancellableIntent intents call = .ok intent ∧
      (handleSupplierCancelBeforeSlotStart sha256 intents call s).1.slots
        = (releaseHolds intent s).1.slots ∧
      (handleSupplierCancelBeforeSlotStart sha256 intents call s).1.reservedBundles
        = (releaseHolds intent s).1.reservedBundles := by
  unfold handleSupplierCancelBeforeSlotStart
  cases cancellableIntent intents call with
  | error err => exact .inl rfl
  | ok intent =>
    refine .inr ⟨intent, rfl, ?_⟩
    dsimp only
    rcases releaseHolds intent s with ⟨s', err | ⟨⟩⟩
    · exact ⟨rfl, rfl⟩
    · dsimp only
      cases refundEntry sha256 call intent s'.refundLedger <;> exact ⟨rfl, rfl⟩

/-- A slot is in one reserved bundle only. -/
theorem Owned.bundle_unique (h : Owned t) {other : String} {slotIds' : List String}
    (hbundle : t.state.reservedBundles bundleId = some slotIds)
    (hother : t.state.reservedBundles other = some slotIds') (hmem : slotId ∈ slotIds)
    (hmem' : slotId ∈ slotIds') : bundleId = other := by
  obtain ⟨m, -, hheld⟩ := h.held _ _ hbundle
  obtain ⟨m', -, hheld'⟩ := h.held _ _ hother
  have := (hheld slotId hmem).symm.trans (hheld' slotId hmem')
  simp only [Option.some.injEq, Hold.mk.injEq, Holder.bundle.injEq] at this
  exact this.1

theorem Owned.releaseBundle_givesBack (h : Owned t)
    (hbundle : t.state.reservedBundles bundleId = some slotIds) :
    GivesBack slotIds (some bundleId) t.state (releaseBundle bundleId t.state).1 := by
  rw [releaseBundle_eq hbundle (h.rowsPresent hbundle)]
  refine ⟨fun slotId => flag_setMany .., update_none_apply _ bundleId, ?_, ?_⟩
  · rintro other slotIds' hid hother
    rw [← Option.some.inj hid, hbundle] at hother
    rw [Option.some.inj hother]
    exact List.Subset.refl _
  · intro other slotIds' hother slotId hmem hfreed
    rw [h.bundle_unique hbundle hother hfreed hmem]

theorem Owned.supplierCancel_givesBack (h : Owned t) {call : SupplierCancel}
    {intent : BookingIntentRecord} (hown : CancelsOwn intents t (.supplierCancel call))
    (hcheck : cancellableIntent intents call = .ok intent)
    (hslots : s'.slots = (releaseHolds intent t.state).1.slots)
    (hbundles : s'.reservedBundles = (releaseHolds intent t.state).1.reservedBundles) :
    GivesBack (intent.slotIds.getD [] ++ bundleSlots intent t.state) (bundleOf intent)
      t.state s' := by
  obtain ⟨hrows, hapart, -⟩ := hown call intent rfl hcheck
  have hbundleSlots : ∀ bundleId slotIds, bundleOf intent = some bundleId →
      t.state.reservedBundles bundleId = some slotIds → bundleSlots intent t.state = slotIds := by
    intro bundleId slotIds hof hbundle
    rw [bundleSlots, hof, bind_some, hbundle, getD_some]
  have hbundleRows : RowsPresent t.state.slots (bundleSlots intent t.state) := by
    cases hbundle : (bundleOf intent).bind t.state.reservedBundles with
    | none => simp [bundleSlots, hbundle, RowsPresent]
    | some slotIds =>
      obtain ⟨bundleId, hof, hbundle⟩ := bind_eq_some_iff.mp hbundle
      rw [hbundleSlots _ _ hof hbundle]
      exact h.rowsPresent hbundle
  obtain ⟨hslots', hbundles'⟩ := releaseHolds_state hrows hbundleRows
  refine ⟨fun slotId => ?_, fun bundleId => ?_, ?_, ?_⟩
  · rw [hslots, hslots']
    exact flag_setMany ..
  · rw [hbundles, hbundles']
  · intro bundleId slotIds hof hbundle slotId hmem
    rw [hbundleSlots _ _ hof hbundle]
    exact mem_append_right _ hmem
  · intro bundleId slotIds hbundle slotId hmem hfreed
    rcases mem_append.mp hfreed with hfreed | hfreed
    · exact hapart slotId hfreed bundleId slotIds hbundle hmem
    · cases hof : (bundleOf intent).bind t.state.reservedBundles with
      | none => simp [bundleSlots, hof] at hfreed
      | some slotIds' =>
        obtain ⟨other, hof, hother⟩ := bind_eq_some_iff.mp hof
        rw [hbundleSlots _ _ hof hother] at hfreed
        rw [hof, h.bundle_unique hbundle hother hmem hfreed]

/-! ## Runs -/

theorem updateRefund_state {refundRequestId : String}
    {f : EscrowRefundLedgerEntry → EscrowRefundLedgerEntry} :
    (updateRefund refundRequestId f s).1.slots = s.slots ∧
      (updateRefund refundRequestId f s).1.reservedBundles = s.reservedBundles := by
  unfold updateRefund
  split
  · exact ⟨rfl, rfl⟩
  · split <;> exact ⟨rfl, rfl⟩

/-- One step keeps the invariant. -/
theorem Owned.step (t : Traced) (k : Call) (h : Owned t) (hown : CancelsOwn intents t k) :
    Owned (tracedStep sha256 intents t k) := by
  have hidle : (SchedulingService.step sha256 intents t.state k).slots = t.state.slots →
      (SchedulingService.step sha256 intents t.state k).reservedBundles
        = t.state.reservedBundles → Owned (tracedStep sha256 intents t k) :=
    fun hslots hbundles => h.givesBack (.idle (fun slotId => by rw [hslots]) hbundles)
  cases k with
  | reserveSlot switches slotId now tenantId =>
    rcases reserveSlot_takes switches slotId now tenantId t.state with hsame | ⟨htakes, hbundles⟩
    · exact hidle (congrArg _ hsame) (congrArg _ hsame)
    · exact h.takes htakes (fun id ids hid => (congrFun hbundles id).trans hid)
        (fun id ids hid => .inl ((congrFun hbundles id).symm.trans hid)) nofun
  | reserveBundle switches now bundleId slotIds tenantId =>
    rcases reserveBundle_takes switches now bundleId slotIds tenantId t.state with
      ⟨-, hflags, hbundles⟩ | ⟨-, htakes, hfresh, hbundles⟩
    · exact h.givesBack (.idle hflags hbundles)
    · refine h.takes htakes (fun id ids hid => ?_) (fun id ids hid => ?_) ?_
      · have hne : id ≠ bundleId := by
          rintro rfl
          cases hfresh.symm.trans hid
        exact (congrFun hbundles id).trans ((update_of_ne hne ..).trans hid)
      · replace hid := (congrFun hbundles id).symm.trans hid
        by_cases hne : id = bundleId
        · subst hne
          rw [update_self] at hid
          exact .inr ⟨hfresh, rfl, (Option.some.inj hid).symm⟩
        · exact .inl ((update_of_ne hne ..).symm.trans hid)
      · rintro id ⟨⟩
        exact (congrFun hbundles _).trans (update_self ..)
  | releaseBundle bundleId =>
    cases hbundle : t.state.reservedBundles bundleId with
    | none =>
      have hsame := releaseBundle_unknown hbundle
      exact hidle (congrArg _ hsame) (congrArg _ hsame)
    | some slotIds => exact h.givesBack (h.releaseBundle_givesBack hbundle)
  | supplierCancel call =>
    rcases supplierCancel_state call t.state with hsame | ⟨intent, hcheck, hslots, hbundles⟩
    · exact hidle (congrArg _ hsame) (congrArg _ hsame)
    · exact h.givesBack (h.supplierCancel_givesBack hown hcheck hslots hbundles)
  | markRefundSettled | markRefundFailed => exact hidle updateRefund_state.1 updateRefund_state.2

/-- A slot that a give-back frees is among those it names. -/
theorem GivesBack.mem_freed {gone : Option String} (hgives : GivesBack freed gone s s')
    (hbefore : s.slots.flag slotId = some false) (hafter : s'.slots.flag slotId = some true) :
    slotId ∈ freed := by
  by_contra hnot
  have := hgives.flags slotId
  rw [if_neg hnot, hbefore, hafter] at this
  cases this

/-- One step frees nothing that is under a foreign reservation. -/
theorem Owned.freesOwn (t : Traced) (k : Call) (h : Owned t) (hown : CancelsOwn intents t k) :
    FreesOwn sha256 intents t k := by
  rintro slotId hold ⟨hbefore, hafter⟩ hhold hforeign
  have hmoved : SchedulingService.step sha256 intents t.state k ≠ t.state := by
    intro hsame
    rw [hsame, hbefore] at hafter
    cases hafter
  cases k with
  | releaseBundle bundleId =>
    obtain ⟨m, hat, hlater⟩ := hforeign
    cases hbundle : t.state.reservedBundles bundleId with
    | none => exact hmoved (releaseBundle_unknown hbundle)
    | some slotIds =>
      have hmem := (h.releaseBundle_givesBack hbundle).mem_freed hbefore hafter
      obtain ⟨m', hat', hheld⟩ := h.held _ _ hbundle
      obtain rfl := Option.some.inj (hhold.symm.trans (hheld slotId hmem))
      obtain rfl := Option.some.inj ((Option.mem_def.mp hat).symm.trans hat')
      exact Nat.lt_irrefl _ hlater
  | supplierCancel call =>
    rcases @supplierCancel_state sha256 intents call t.state with
      hsame | ⟨intent, hcheck, hslots, hbundles⟩
    · exact hmoved hsame
    · obtain ⟨found, hfound, hforeign⟩ := hforeign
      obtain rfl := Option.some.inj
        ((Option.mem_def.mp hfound).symm.trans (cancellableIntent_eq_ok.mp hcheck).1)
      obtain ⟨-, -, hcancelled, hreleased⟩ := hown call found rfl hcheck
      have hgives := h.supplierCancel_givesBack hown hcheck hslots hbundles
      have hmem := hgives.mem_freed hbefore hafter
      rcases hforeign with ⟨bundleId, hholder, hother⟩ | ⟨m, hm, -⟩ | ⟨bundleId, hof, -, m, hm, -⟩
      · -- another bundle's slot is not among those given back
        obtain ⟨slotIds, hbundle, hin⟩ := h.reserved slotId bundleId hold.since
          (by rw [hhold, ← hholder])
        exact hother (hgives.apart _ _ hbundle _ hin hmem)
      · rw [hcancelled] at hm
        cases hm
      · rw [hreleased bundleId hof] at hm
        cases hm
  | reserveSlot | reserveBundle | markRefundSettled | markRefundFailed => exact hforeign

theorem Owned.fresh (slots : Slots) : Owned { state := { slots } } where
  flag := by simp
  held := by simp
  reserved := by simp

/-! ## Bundles -/

def Call.onBundles : Call → Bool
  | .reserveBundle _ _ _ _ _ | .releaseBundle _ => true
  | _ => false

/-- The trace only watches. -/
theorem run_tracedStep_state (t : Traced) (ks : List Call) :
    (Machine.run (tracedStep sha256 intents) t ks).state
      = Machine.run (step sha256 intents) t.state ks := by
  induction ks generalizing t with
  | nil => rfl
  | cons k ks ih => exact ih (tracedStep sha256 intents t k)

theorem cancelsOwn_of_onBundles {ks : List Call} (h : ∀ k ∈ ks, k.onBundles = true) (t : Traced) :
    Along (tracedStep sha256 intents) (CancelsOwn intents) t ks := by
  induction ks generalizing t with
  | nil => trivial
  | cons k ks ih =>
    refine ⟨?_, ih (forall_mem_cons.mp h).2 _⟩
    rintro call intent rfl
    cases h _ mem_cons_self

/-- **A bundle is reserved as a whole or not at all**, whatever the slots,
the clock and the switches are; and in every run of bundle calls on a
fresh service the reserved bundles share no slot and all their slots are
taken. -/
theorem bundles_whole_and_apart (sha256 : String → String) (intents : BookingIntents) :
    (∀ (switches : Switches) (now : Nat → Int) (bundleId : String) (slotIds : List String)
        (tenantId : Option String) (s s' : SchedulingState) (outcome : Except SchedulingError Unit),
      reserveBundle switches now bundleId slotIds tenantId s = (s', outcome) →
      match outcome with
      | .error _ => (∀ slotId, s'.slots.flag slotId = s.slots.flag slotId) ∧
          s'.reservedBundles = s.reservedBundles
      | .ok _ => (∀ slotId ∈ slotIds, s.slots.flag slotId = some true) ∧
          (∀ slotId, s'.slots.flag slotId
            = if slotId ∈ slotIds then some false else s.slots.flag slotId) ∧
          s'.reservedBundles
            = update s.reservedBundles bundleId (some slotIds.eraseDups)) ∧
    ∀ (slots : Slots) (ks : List Call), (∀ k ∈ ks, k.onBundles = true) →
      ∀ bundleId slotIds,
        (Machine.run (step sha256 intents) { slots } ks).reservedBundles bundleId = some slotIds →
        ∀ slotId ∈ slotIds,
          (Machine.run (step sha256 intents) { slots } ks).slots.flag slotId = some false ∧
          ∀ other slotIds',
            (Machine.run (step sha256 intents) { slots } ks).reservedBundles other
              = some slotIds' → slotId ∈ slotIds' → bundleId = other := by
  constructor
  · intro switches now bundleId slotIds tenantId s s' outcome hcall
    have hcases := reserveBundle_takes switches now bundleId slotIds tenantId s
    rw [hcall] at hcases
    rcases hcases with ⟨⟨err, rfl⟩, hflags, hbundles⟩ | ⟨rfl, htakes, -, hbundles⟩
    · exact ⟨hflags, hbundles⟩
    · refine ⟨fun slotId hmem => htakes.free slotId (mem_eraseDups.mpr hmem), ?_, hbundles⟩
      intro slotId
      rw [htakes.flags]
      simp only [mem_eraseDups]
  · intro slots ks hks bundleId slotIds hbundle slotId hmem
    have howned : Owned (Machine.run (tracedStep sha256 intents) { state := { slots } } ks) :=
      run_inv_along Owned.step (Owned.fresh slots) (cancelsOwn_of_onBundles hks _)
    have hstate : (Machine.run (tracedStep sha256 intents) { state := { slots } } ks).state
        = Machine.run (step sha256 intents) { slots } ks := run_tracedStep_state _ ks
    rw [← hstate] at hbundle ⊢
    exact ⟨howned.bundle_flag hbundle hmem, fun other slotIds' hother hmem' =>
      howned.bundle_unique hbundle hother hmem hmem'⟩

/-- **Releases stay with their own.** In every run of a fresh service whose
cancellations all cancel their own, no call that cancels an intent or
releases a bundle makes a slot bookable that is under a different, later
reservation. -/
theorem freesOwn_of_cancelsOwn (slots : Slots) (ks : List Call)
    (hks : Along (tracedStep sha256 intents) (CancelsOwn intents)
      { state := { slots } } ks) :
    Along (tracedStep sha256 intents) (FreesOwn sha256 intents)
      { state := { slots } } ks :=
  along_of_inv Owned.step Owned.freesOwn (Owned.fresh slots) hks

/-- The booked slot before anybody has reserved it. -/
def unsold : Traced := { state := { slots := [{ soldSlot with bookable := true }] } }

def reserveAs (bundleId : String) : Call := .reserveBundle {} (fun _ => 0) bundleId ["slot-1"] none

theorem bundles_apart_one :
    (Machine.run (step sampleSha256 soldIntents) unsold.state [reserveAs "bundle-1"]).slots.flag
      "slot-1" = some false :=
  ((bundles_whole_and_apart sampleSha256 soldIntents).2 _ [reserveAs "bundle-1"] (by decide)
    "bundle-1" ["slot-1"] (by decide +kernel) "slot-1" (by decide)).1

/-- Reserving the bundle of the intent and cancelling it once is clean. -/
theorem freesOwn_reserve_cancel :
    Along (tracedStep sampleSha256 soldIntents) (FreesOwn sampleSha256 soldIntents) unsold
      [reserveAs "bundle-1", cancelAtMidnight] := by
  refine freesOwn_of_cancelsOwn _ _ ⟨?_, ?_, trivial⟩
  · rintro call intent ⟨⟩
  · rintro call intent ⟨⟩ hcheck
    obtain rfl : soldIntent = intent := Except.ok.inj (Eq.trans (by decide +kernel) hcheck)
    refine ⟨by decide +kernel, ?_, by decide +kernel, ?_⟩
    · rintro slotId - bundleId slotIds hreserved -
      by_cases hid : bundleId = "bundle-1"
      · rw [hid]
        rfl
      · have hother : update (fun _ => none) "bundle-1" (some ["slot-1"]) bundleId
            = some slotIds := hreserved
        rw [update_of_ne hid] at hother
        cases hother
    · intro bundleId hof
      obtain rfl : "bundle-1" = bundleId := Option.some.inj hof
      decide +kernel

/-- **A slot sold again is freed.** The bundle of the intent is reserved and
the intent cancelled; the slot goes to a second bundle; cancelling the
intent once more frees it from under that bundle. -/
theorem secondCancel_frees_resold :
    ¬ Along (tracedStep sampleSha256 soldIntents) (FreesOwn sampleSha256 soldIntents) unsold
      [reserveAs "bundle-1", cancelAtMidnight, reserveAs "bundle-2", cancelAtOne] := by
  rintro ⟨-, -, -, hlast, -⟩
  refine hlast "slot-1" ⟨.bundle "bundle-2", 2⟩ ⟨by decide +kernel, by decide +kernel⟩
    (by decide +kernel) ⟨soldIntent, by decide +kernel, .inl ⟨"bundle-2", rfl, by decide⟩⟩

end SchedulingService

end ChronoPay
