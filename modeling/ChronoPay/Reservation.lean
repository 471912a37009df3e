import ChronoPay.Lib.IsoDate
import ChronoPay.Slots

/-!
# Reservation — `SchedulingService.reserveSlot` and `releaseSlot`

A reservation consults two kill switches, then the slot itself, and only
then clears the flag; a release sets the flag whoever reserved the slot.
`reserveSlot_eq_ok` is what every caller uses: it says when a reservation
goes through and what it leaves.
-/

namespace ChronoPay

open List Slots

/-- The errors of the scheduling service, with the values their texts
report. `slotRowMissing` is the repository's own plain `Error`. -/
inductive SchedulingError where
  | escrowPaused
  | tenantPaused (tenantId : String)
  | slotNotFound (slotId : String)
  | slotNotBookable (slotId : String)
  | slotExpired (slotId : String) (validUntil : Int) (validUntilIso : String)
  | slotRowMissing (slotId : String)
  /-- The RangeError of `Date.prototype.toISOString`. -/
  | invalidTime
  | bundleReservation (bundleId : String) (cause : SchedulingError)
  | bundleAlreadyReserved (bundleId : String)
  | bundleNotFound (bundleId : String)
  | cancellationAfterSlotStart (bookingIntentId : String) (slotStartTime : Int)
      (slotStartTimeIso : String) (cancelledAt : ℚ)
  | escrowRefundLedgerIntegrity (refundRequestId : String)
  deriving DecidableEq, Repr

def SchedulingError.message : SchedulingError → String
  | escrowPaused => "Escrow contract migration in progress: new holds are temporarily paused"
  | tenantPaused tenantId => s!"Tenant {tenantId} is paused"
  | slotNotFound slotId => s!"Slot {slotId} not found"
  | slotNotBookable slotId => s!"Slot {slotId} is not bookable"
  | slotExpired slotId _ iso => s!"Slot {slotId} bundle has expired (valid until {iso})"
  | slotRowMissing slotId => s!"Slot {slotId} not found"
  | invalidTime => "Invalid time value"
  | bundleReservation bundleId cause => s!"Failed to reserve bundle {bundleId}: " ++ cause.message
  | bundleAlreadyReserved bundleId => s!"Bundle {bundleId} is already reserved"
  | bundleNotFound bundleId => s!"Bundle {bundleId} not found"
  | cancellationAfterSlotStart bookingIntentId _ iso _ =>
    s!"Cannot cancel booking intent {bookingIntentId} after slot start time {iso}"
  | escrowRefundLedgerIntegrity refundRequestId => s!"Unknown refundRequestId: {refundRequestId}"

/-- `new SlotExpiredError(…)`: its text formats the deadline, which
throws on its own for a deadline outside the range of `Date`. -/
def slotExpiredError (slotId : String) (validUntil : Int) : SchedulingError :=
  match IsoDate.toISOString validUntil with
  | some iso => .slotExpired slotId validUntil iso
  | none => .invalidTime

/-- The switches that stop new reservations. -/
structure Switches where
  escrowPaused : Bool := false
  pausedTenants : List String := []
  deriving DecidableEq, Repr

/-- The tenant of the request if it is paused; an empty id is falsy. -/
def Switches.pausedTenant (switches : Switches) (tenantId : Option String) : Option String :=
  tenantId.filter fun tenant => tenant ≠ "" && switches.pausedTenants.contains tenant

/-- The redemption deadline of the slot has been reached. -/
def SlotRecord.expiredAt (slot : SlotRecord) (now : Int) : Bool :=
  slot.validUntil.any fun validUntil => decide (validUntil ≤ now)

/-- `reserveSlot`, where `now` is what the clock reads if it is read. -/
def reserveSlot (switches : Switches) (tenantId : Option String) (now : Int) (slotId : String)
    (slots : Slots) : Except SchedulingError Slots :=
  if switches.escrowPaused then .error .escrowPaused
  else match switches.pausedTenant tenantId with
  | some tenant => .error (.tenantPaused tenant)
  | none =>
    match slots.findById slotId with
    | none => .error (.slotNotFound slotId)
    | some slot =>
      if slot.bookable = false then .error (.slotNotBookable slotId)
      else match slot.validUntil with
      | none => .ok (slots.setBookable slotId false)
      | some validUntil =>
        if validUntil ≤ now then .error (slotExpiredError slotId validUntil)
        else .ok (slots.setBookable slotId false)

/-- `releaseSlot`: no check of who holds the slot. -/
def releaseSlot (slotId : String) (slots : Slots) : Except SchedulingError Slots :=
  match slots.updateBookable slotId true with
  | some slots' => .ok slots'
  | none => .error (.slotRowMissing slotId)

/-- `releaseSlotBestEffort`: a missing row is ignored. -/
def releaseSlotBestEffort (slotId : String) (slots : Slots) : Slots :=
  match releaseSlot slotId slots with
  | .ok slots' => slots'
  | .error _ => slots

/-- The switches let the tenant's reservation through. -/
def Switches.Open (switches : Switches) (tenantId : Option String) : Prop :=
  switches.escrowPaused = false ∧ switches.pausedTenant tenantId = none

instance (switches : Switches) (tenantId : Option String) : Decidable (switches.Open tenantId) :=
  inferInstanceAs (Decidable (_ ∧ _))

/-- The slot can be reserved at `now`. -/
def Slots.Free (slots : Slots) (now : Int) (slotId : String) : Prop :=
  ∃ slot ∈ slots.findById slotId, slot.bookable = true ∧ slot.expiredAt now = false

instance (slots : Slots) (now : Int) (slotId : String) : Decidable (slots.Free now slotId) :=
  inferInstanceAs (Decidable (∃ slot ∈ slots.findById slotId, _))

section

variable {switches : Switches} {tenantId : Option String} {now : Int} {slotId : String}
  {slots slots' : Slots}

/-- **When a reservation goes through**, and what it leaves. -/
theorem reserveSlot_eq_ok :
    reserveSlot switches tenantId now slotId slots = .ok slots' ↔
      (switches.Open tenantId ∧ slots.Free now slotId) ∧
        slots' = slots.setBookable slotId false := by
  unfold reserveSlot Switches.Open Free
  cases switches.escrowPaused with
  | true => simp
  | false =>
    cases switches.pausedTenant tenantId with
    | some tenant => simp
    | none =>
      cases slots.findById slotId with
      | none => simp
      | some slot =>
        cases hb : slot.bookable with
        | false => simp [hb]
        | true =>
          cases hv : slot.validUntil with
          | none => simp [hb, hv, SlotRecord.expiredAt, @eq_comm _ slots']
          | some validUntil =>
            by_cases hle : validUntil ≤ now
            · simp [hb, hv, hle, SlotRecord.expiredAt]
            · simp [hb, hv, hle, SlotRecord.expiredAt, @eq_comm _ slots']

/-- A reservation throws exactly when a switch is set or the slot is not free. -/
theorem reserveSlot_error_iff :
    (∃ err, reserveSlot switches tenantId now slotId slots = .error err) ↔
      ¬ (switches.Open tenantId ∧ slots.Free now slotId) := by
  constructor
  · rintro ⟨err, herr⟩ hfree
    rw [reserveSlot_eq_ok.mpr ⟨hfree, rfl⟩] at herr
    cases herr
  · intro hnot
    cases hr : reserveSlot switches tenantId now slotId slots with
    | error err => exact ⟨err, rfl⟩
    | ok slots' => exact absurd (reserveSlot_eq_ok.mp hr).1 hnot

theorem releaseSlot_eq_ok :
    releaseSlot slotId slots = .ok slots' ↔
      (slots.findById slotId).isSome = true ∧ slots' = slots.setBookable slotId true := by
  unfold releaseSlot
  rw [← updateBookable_eq_some]
  cases slots.updateBookable slotId true <;> simp

theorem absent_of_releaseSlot {err : SchedulingError} (h : releaseSlot slotId slots = .error err) :
    slots.findById slotId = none := by
  rw [← Option.not_isSome_iff_eq_none]
  intro hrow
  cases h.symm.trans (releaseSlot_eq_ok.mpr ⟨hrow, rfl⟩)

@[simp] theorem releaseSlotBestEffort_eq :
    releaseSlotBestEffort slotId slots = slots.setBookable slotId true := by
  unfold releaseSlotBestEffort
  cases hr : releaseSlot slotId slots with
  | ok slots' => exact (releaseSlot_eq_ok.mp hr).2
  | error err => exact (setBookable_of_absent (absent_of_releaseSlot hr)).symm

/-- The deadline of the slot, if it has one, is ahead. -/
def Slots.unexpired (slots : Slots) (now : Int) (slotId : String) : Bool :=
  (slots.findById slotId).all fun slot => !slot.expiredAt now

/-- A free slot is one whose flag reads bookable and whose deadline is ahead. -/
theorem Slots.free_iff :
    slots.Free now slotId ↔ slots.flag slotId = some true ∧ slots.unexpired now slotId = true := by
  unfold Free flag unexpired
  cases slots.findById slotId <;> simp

theorem Slots.Free.flag (h : slots.Free now slotId) : slots.flag slotId = some true :=
  (free_iff.mp h).1

@[simp] theorem Slots.unexpired_setBookable {slotId' : String} {b : Bool} :
    (slots.setBookable slotId' b).unexpired now slotId = slots.unexpired now slotId := by
  unfold unexpired
  rw [findById_setBookable]
  by_cases hid : slotId = slotId'
  · subst hid
    cases slots.findById slotId <;> simp [SlotRecord.expiredAt]
  · simp [hid]

@[simp] theorem Slots.unexpired_setMany {slotIds : List String} {b : Bool} :
    (slots.setMany slotIds b).unexpired now slotId = slots.unexpired now slotId := by
  induction slotIds generalizing slots with
  | nil => rfl
  | cons first rest ih => rw [setMany_cons, ih, unexpired_setBookable]

end

/-! ## Several slots -/

/-- Reserve slots in order up to the first failure, the i-th at `now i`;
also which ones were reserved. -/
def reserveEach (switches : Switches) (now : Nat → Int) :
    Nat → List String → Slots → Slots × List String × Option SchedulingError
  | _, [], slots => (slots, [], none)
  | i, slotId :: rest, slots =>
    match reserveSlot switches none (now i) slotId slots with
    | .error err => (slots, [], some err)
    | .ok slots' =>
      let (slots'', reserved, failure) := reserveEach switches now (i + 1) rest slots'
      (slots'', slotId :: reserved, failure)

/-- Release each slot; a missing row is ignored. -/
def releaseAll (slotIds : List String) (slots : Slots) : Slots :=
  slotIds.foldl (fun slots slotId => releaseSlotBestEffort slotId slots) slots

/-- Release each slot up to the first missing row, which throws; what was
released before it stays so. -/
def releaseEach : List String → Slots → Slots × Option SchedulingError
  | [], slots => (slots, none)
  | slotId :: rest, slots =>
    match releaseSlot slotId slots with
    | .error err => (slots, some err)
    | .ok slots' => releaseEach rest slots'

section

variable {switches : Switches} {now : Nat → Int} {i : Nat} {slotId : String}
  {slotIds : List String} {slots : Slots}

theorem releaseAll_eq (slotIds : List String) (slots : Slots) :
    releaseAll slotIds slots = slots.setMany slotIds true := by
  simp only [releaseAll, releaseSlotBestEffort_eq, setMany]

/-- All of the slots can be reserved one after the other. -/
structure Reservable (switches : Switches) (now : Nat → Int) (i : Nat) (slotIds : List String)
    (slots : Slots) : Prop where
  isOpen : slotIds ≠ [] → switches.Open none
  distinct : slotIds.Nodup
  free : ∀ j slotId, slotIds[j]? = some slotId → slots.Free (now (i + j)) slotId

theorem Slots.free_setBookable_false {first : String} {t : Int} :
    (slots.setBookable first false).Free t slotId ↔ slotId ≠ first ∧ slots.Free t slotId := by
  rw [free_iff, free_iff, flag_setBookable, unexpired_setBookable]
  by_cases hid : slotId = first <;> simp [hid]

theorem Reservable.cons_iff {first : String} {rest : List String} :
    Reservable switches now i (first :: rest) slots ↔
      (switches.Open none ∧ slots.Free (now i) first) ∧
        Reservable switches now (i + 1) rest (slots.setBookable first false) := by
  constructor
  · rintro ⟨hopen, hdistinct, hfree⟩
    obtain ⟨hnotin, hrest⟩ := nodup_cons.mp hdistinct
    refine ⟨⟨hopen (by simp), hfree 0 first rfl⟩, fun _ => hopen (by simp), hrest, ?_⟩
    intro j slotId hj
    have hne : slotId ≠ first := by
      rintro rfl
      exact hnotin (mem_of_getElem? hj)
    have := hfree (j + 1) slotId hj
    rw [free_setBookable_false]
    exact ⟨hne, by rwa [Nat.add_assoc, Nat.add_comm 1 j]⟩
  · rintro ⟨⟨hopen, hfirst⟩, -, hrest, hfree⟩
    refine ⟨fun _ => hopen, nodup_cons.mpr ⟨fun hmem => ?_, hrest⟩, ?_⟩
    · obtain ⟨j, hj⟩ := mem_iff_getElem?.mp hmem
      exact (free_setBookable_false.mp (hfree j first hj)).1 rfl
    · intro j slotId hj
      cases j with
      | zero =>
        simp only [getElem?_cons_zero, Option.some.injEq] at hj
        rwa [← hj]
      | succ j =>
        have := (free_setBookable_false.mp (hfree j slotId hj)).2
        rwa [Nat.add_assoc, Nat.add_comm 1 j] at this

/-- The loop succeeds exactly when the slots are reservable. -/
theorem reserveEach_none_iff :
    (reserveEach switches now i slotIds slots).2.2 = none ↔
      Reservable switches now i slotIds slots := by
  induction slotIds generalizing i slots with
  | nil => exact iff_of_true rfl ⟨fun h => absurd rfl h, .nil, by simp⟩
  | cons first rest ih =>
    rw [Reservable.cons_iff, reserveEach]
    cases hreserve : reserveSlot switches none (now i) first slots with
    | error err =>
      have hnot := reserveSlot_error_iff.mp ⟨err, hreserve⟩
      simp [hnot]
    | ok slots' =>
      obtain ⟨hfree, rfl⟩ := reserveSlot_eq_ok.mp hreserve
      simp only [hfree, true_and, ← ih, and_self]

/-- What the loop leaves: the slots it reserved were bookable, and are not. -/
theorem reserveEach_spec (switches : Switches) (now : Nat → Int) (i : Nat) (slotIds : List String)
    (slots : Slots) :
    (reserveEach switches now i slotIds slots).1
        = slots.setMany (reserveEach switches now i slotIds slots).2.1 false ∧
    (∀ slotId ∈ (reserveEach switches now i slotIds slots).2.1, slots.flag slotId = some true) ∧
    ((reserveEach switches now i slotIds slots).2.2 = none →
      (reserveEach switches now i slotIds slots).2.1 = slotIds) := by
  induction slotIds generalizing i slots with
  | nil => simp [reserveEach]
  | cons first rest ih =>
    rw [reserveEach]
    cases hreserve : reserveSlot switches none (now i) first slots with
    | error err => simp
    | ok slots' =>
      obtain ⟨⟨-, hfree⟩, rfl⟩ := reserveSlot_eq_ok.mp hreserve
      obtain ⟨hslots, hflags, hall⟩ := ih (i + 1) (slots.setBookable first false)
      refine ⟨hslots, ?_, fun hnone => ?_⟩
      · intro slotId hmem
        rcases mem_cons.mp hmem with rfl | hmem
        · exact hfree.flag
        · have := hflags slotId hmem
          rw [flag_setBookable] at this
          split at this
          next hid =>
            rw [hid]
            exact hfree.flag
          · exact this
      · simp only [hall hnone]

/-- The loop succeeds exactly when all rows are there. -/
theorem releaseEach_none_iff : (releaseEach slotIds slots).2 = none ↔
    ∀ slotId ∈ slotIds, (slots.findById slotId).isSome = true := by
  induction slotIds generalizing slots with
  | nil => simp [releaseEach]
  | cons first rest ih =>
    rw [releaseEach, forall_mem_cons]
    cases hrelease : releaseSlot first slots with
    | ok slots' =>
      obtain ⟨hrow, rfl⟩ := releaseSlot_eq_ok.mp hrelease
      simp [ih, hrow]
    | error err => simp [absent_of_releaseSlot hrelease]

/-- What the loop leaves then. -/
theorem releaseEach_eq (h : ∀ slotId ∈ slotIds, (slots.findById slotId).isSome = true) :
    releaseEach slotIds slots = (slots.setMany slotIds true, none) := by
  induction slotIds generalizing slots with
  | nil => rfl
  | cons first rest ih =>
    obtain ⟨hfirst, hrest⟩ := forall_mem_cons.mp h
    rw [releaseEach, releaseSlot_eq_ok.mpr ⟨hfirst, rfl⟩]
    exact ih (by simpa using hrest)

/-- Releasing slots that were bookable brings their flags back. -/
theorem Slots.flag_reserve_release (h : ∀ x ∈ slotIds, slots.flag x = some true) :
    ((slots.setMany slotIds false).setMany slotIds true).flag slotId = slots.flag slotId := by
  rw [flag_setMany, flag_setMany]
  split
  next hmem => simp [h slotId hmem]
  · rfl

end

end ChronoPay
