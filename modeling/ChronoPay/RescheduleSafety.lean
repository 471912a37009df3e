import ChronoPay.ReschedulePlan

/-!
# RescheduleSafety — when a confirmation goes through, and when its
rollback restores the flags

Each of the four loops of `confirmMultiLegReschedule` has one lemma that
says what it does to the flags; the two main results are read off them.
`Reservable` is when step 2 succeeds, `Restorable` when the rollback
ends where the call began: the old slots are taken back by the SAME
guarded reservation, so a slot that was free before is not free after,
and one that was reserved stays free when the reservation is refused.
-/

namespace ChronoPay

open List Option Slots

variable {switches : Switches} {now : Nat → Int} {i : Nat} {slotIds : List String}
  {slots : Slots} {slotId : String}

/-! ## The four loops -/

/-- Which of the slots exist. -/
def Slots.present (slots : Slots) (slotIds : List String) : List String :=
  slotIds.filter fun slotId => (slots.findById slotId).isSome

theorem Slots.flag_of_present (h : slotId ∈ slots.present slotIds) :
    ∃ b, slots.flag slotId = some b := by
  obtain ⟨-, hsome⟩ := mem_filter.mp h
  exact isSome_iff_exists.mp (flag_isSome.trans hsome)

theorem releaseOld_eq (slotIds : List String) (slots : Slots) :
    releaseOld slotIds slots = (slots.setMany slotIds true, slots.present slotIds) := by
  induction slotIds generalizing slots with
  | nil => rfl
  | cons first rest ih =>
    rw [releaseOld]
    cases hrelease : releaseSlot first slots with
    | error err =>
      have habsent := absent_of_releaseSlot hrelease
      simp only [ih, setMany_cons, setBookable_of_absent habsent, Slots.present,
        filter_cons, habsent, isSome_none, Bool.false_eq_true, if_false]
    | ok slots' =>
      obtain ⟨hsome, rfl⟩ := releaseSlot_eq_ok.mp hrelease
      simp only [ih, setMany_cons, Slots.present, filter_cons, hsome, if_true,
        findById_setBookable_isSome]

/-- One of the attempts to take the slot back, from the i-th on, comes
before the slot's deadline. -/
def Slots.inTime (slots : Slots) (now : Nat → Int) (slotId : String) : Nat → List String → Bool
  | _, [] => false
  | i, first :: rest =>
    (first = slotId && slots.unexpired (now i) slotId) || slots.inTime now slotId (i + 1) rest

@[simp] theorem Slots.inTime_setBookable {first : String} {b : Bool} :
    (slots.setBookable first b).inTime now slotId i slotIds = slots.inTime now slotId i slotIds := by
  induction slotIds generalizing i with
  | nil => rfl
  | cons x rest ih => simp only [inTime, ih, unexpired_setBookable]

@[simp] theorem Slots.inTime_setMany {ids : List String} {b : Bool} :
    (slots.setMany ids b).inTime now slotId i slotIds = slots.inTime now slotId i slotIds := by
  induction ids generalizing slots with
  | nil => rfl
  | cons first rest ih => rw [setMany_cons, ih, inTime_setBookable]

/-- A slot is taken back when one of its attempts is let through. -/
theorem flag_reserveAgain (i : Nat) (slotIds : List String) (slots : Slots) (slotId : String) :
    (reserveAgain switches now i slotIds slots).flag slotId
      = if switches.Open none ∧ slots.flag slotId = some true ∧
          slots.inTime now slotId i slotIds = true
        then some false else slots.flag slotId := by
  induction slotIds generalizing i slots with
  | nil => simp [reserveAgain, inTime]
  | cons first rest ih =>
    rw [reserveAgain]
    cases hreserve : reserveSlot switches none (now i) first slots with
    | error err =>
      -- refused: then this attempt does not count for its slot either
      have hnot := reserveSlot_error_iff.mp ⟨err, hreserve⟩
      rw [free_iff] at hnot
      rw [ih]
      refine if_congr ?_ rfl rfl
      simp only [inTime, Bool.or_eq_true, Bool.and_eq_true, decide_eq_true_eq]
      constructor
      · rintro ⟨hopen, hflag, hrest⟩
        exact ⟨hopen, hflag, .inr hrest⟩
      · rintro ⟨hopen, hflag, ⟨rfl, hun⟩ | hrest⟩
        · exact absurd ⟨hopen, hflag, hun⟩ hnot
        · exact ⟨hopen, hflag, hrest⟩
    | ok slots' =>
      obtain ⟨⟨hopen, hfree⟩, rfl⟩ := reserveSlot_eq_ok.mp hreserve
      rw [free_iff] at hfree
      rw [ih, flag_setBookable, inTime_setBookable]
      by_cases hid : slotId = first
      · subst hid
        simp [inTime, hfree, hopen]
      · have hid' : first ≠ slotId := Ne.symm hid
        simp [inTime, hid, hid']

/-! ## The rollback -/

/-- The rollback leaves every flag as it was: an old slot is reserved
again exactly when it was reserved before. -/
def Restorable (switches : Switches) (env : ConfirmEnv) (option : RescheduleCandidateOption)
    (slots : Slots) : Prop :=
  ∀ slotId ∈ slots.present option.oldSlots,
    slots.flag slotId = some false ↔
      switches.escrowPaused = false ∧
        slots.inTime env.retryNow slotId 0 (slots.present option.oldSlots) = true

theorem Slots.inTime_of_not_mem (h : slotId ∉ slotIds) :
    slots.inTime now slotId i slotIds = false := by
  induction slotIds generalizing i with
  | nil => rfl
  | cons first rest ih =>
    rw [mem_cons, not_or] at h
    obtain ⟨hne, hrest⟩ := h
    simp [inTime, Ne.symm hne, ih hrest]

theorem Switches.open_none : switches.Open none ↔ switches.escrowPaused = false := by
  simp [Switches.Open, Switches.pausedTenant]

/-- The flags after step 2 failed and was undone: an old slot that exists
is bookable unless it could be taken back, any other slot is untouched. -/
theorem flag_rollback (switches : Switches) (env : ConfirmEnv)
    (oldSlots newSlots : List String) (slots : Slots) (slotId : String) :
    (reserveAgain switches env.retryNow 0 (slots.present oldSlots)
      (releaseAll (reserveEach switches env.reserveNow 0 newSlots (slots.setMany oldSlots true)).2.1
        (reserveEach switches env.reserveNow 0 newSlots (slots.setMany oldSlots true)).1)).flag slotId
      = if slotId ∈ slots.present oldSlots then
          if switches.escrowPaused = false ∧
            slots.inTime env.retryNow slotId 0 (slots.present oldSlots) = true
          then some false else some true
        else slots.flag slotId := by
  obtain ⟨hslots, hflags, -⟩ := reserveEach_spec switches env.reserveNow 0 newSlots
    (slots.setMany oldSlots true)
  rw [hslots, releaseAll_eq, flag_reserveAgain, flag_reserve_release hflags, flag_setMany]
  simp only [inTime_setMany, Switches.open_none]
  by_cases hpresent : slotId ∈ slots.present oldSlots
  · obtain ⟨hold, -⟩ := mem_filter.mp hpresent
    obtain ⟨b, hb⟩ := flag_of_present hpresent
    simp only [hpresent, if_true, hold, hb, map_some, true_and]
  · rw [inTime_of_not_mem hpresent, if_neg hpresent]
    simp only [Bool.false_eq_true, and_false, if_false]
    split
    next hold =>
      -- listed but not present: there is no such slot
      have hnone : slots.findById slotId = none := by
        cases hfind : slots.findById slotId with
        | none => rfl
        | some slot => exact absurd (mem_filter.mpr ⟨hold, by rw [hfind]; rfl⟩) hpresent
      simp [flag, hnone]
    · rfl

/-- **A failed confirmation leaves every flag as it was** if and only if
the request is refused before anything is released, or its new slots can
all be reserved (and nothing is thrown), or the rollback restores what
was there. -/
theorem confirm_throw_unchanged_iff (switches : Switches) (env : ConfirmEnv)
    (request : ConfirmRescheduleRequest) (slots : Slots) :
    (∀ slots' err, confirmMultiLegReschedule switches env request slots = (slots', .error err) →
      ∀ slotId, slots'.flag slotId = slots.flag slotId) ↔
    (checkConfirmReschedule switches request = .ok () →
      Reservable switches env.reserveNow 0 request.candidateOption.newSlots
        (slots.setMany request.candidateOption.oldSlots true) ∨
      Restorable switches env request.candidateOption slots) := by
  unfold confirmMultiLegReschedule
  cases hcheck : checkConfirmReschedule switches request with
  | error err =>
    refine iff_of_true ?_ (fun h => nomatch h)
    rintro slots' err' heq slotId
    cases heq
    rfl
  | ok _ =>
    simp only [releaseOld_eq, forall_const]
    rw [← reserveEach_none_iff]
    have hroll := flag_rollback switches env request.candidateOption.oldSlots
      request.candidateOption.newSlots slots
    rcases hreserve : reserveEach switches env.reserveNow 0 request.candidateOption.newSlots
      (slots.setMany request.candidateOption.oldSlots true) with ⟨slots'', reserved, failure⟩
    rw [hreserve] at hroll
    cases failure with
    | none =>
      refine iff_of_true ?_ (.inl rfl)
      rintro slots' err heq
      cases heq
    | some err =>
      simp only [reduceCtorEq, false_or]
      constructor
      · intro h slotId hmem
        have hsame := (hroll slotId).symm.trans (h _ _ rfl slotId)
        rw [← hsame]
        split <;> simp [*]
      · rintro hrest slots' err' heq slotId
        cases heq
        rw [hroll]
        split
        next hmem =>
          obtain ⟨b, hb⟩ := flag_of_present hmem
          have hiff := hrest slotId hmem
          cases b <;> simp_all
        · rfl

/-- One leg moves from a reserved slot to a free one. -/
def sampleMove : CandidateLegSchedule where
  legId := "leg"
  currentSlotId := "old"
  newSlotId := "new"
  professional := "pro"
  currentStartTime := 1000
  newStartTime := 5000
  newEndTime := 6000
  durationMs := 1000
  offsetMs := 0
  isOverridden := false
  isPartialKept := false

def sampleConfirm : ConfirmRescheduleRequest where
  bookingId := "booking"
  buyerId := "buyer"
  candidateOption :=
    { optionId := "opt", anchorStartTimeMs := 5000, legs := [sampleMove],
      totalDisruptionMs := 4000, disruptionScore := 4000, isFullyAvailable := true }
  multiLegBooking :=
    { bookingId := "booking", buyerId := "buyer",
      legs := [{ legId := "leg", slotId := "old", professional := "pro", startTime := 1000,
                 endTime := 2000 }] }

def sampleInventory : Slots :=
  [{ id := "old", professional := "pro", startTime := 1000, endTime := 2000, bookable := false },
    { id := "new", professional := "pro", startTime := 5000, endTime := 6000, bookable := true }]

def stillEnv : ConfirmEnv where
  reserveNow := fun _ => 0
  retryNow := fun _ => 0
  confirmedAtMs := 0
  uuid := "uuid"

/-- During a migration pause the confirmation throws, and the slot of the
booking is up for sale. -/
theorem confirm_paused_frees_old_slot :
    ∃ slots', confirmMultiLegReschedule { escrowPaused := true } stillEnv sampleConfirm
        sampleInventory = (slots', .error (.confirmFailed "booking" .escrowPaused)) ∧
      sampleInventory.flag "old" = some false ∧ slots'.flag "old" = some true := by
  refine ⟨sampleInventory.setBookable "old" true, ?_, ?_, ?_⟩ <;> decide +kernel

/-! ## Planned options -/

variable {uuid : Nat → String} {booking : MultiLegBooking} {options : RescheduleOptions}
  {found : List RescheduleCandidateOption} {option : RescheduleCandidateOption}

/-- What is known of a leg of a planned option. -/
structure PlannedLeg (slots : Slots) (booking : MultiLegBooking) (leg : CandidateLegSchedule) :
    Prop where
  /-- Its current slot is the slot of a leg of the booking. -/
  current : ∃ old ∈ booking.legs, leg.currentSlotId = old.slotId
  /-- Unless it moves, its new slot is its current one. -/
  stays : leg.moved = false → leg.newSlotId = leg.currentSlotId
  /-- If it moves, some record with the new slot's id is bookable. -/
  moves : leg.moved = true → ∃ slot ∈ slots, slot.id = leg.newSlotId ∧ slot.bookable = true

theorem legConfigs_leg {config : LegConfig} (h : config ∈ legConfigs booking options) :
    config.leg ∈ booking.legs := by
  obtain ⟨leg, hleg, rfl⟩ := List.mem_map.mp h
  exact (mem_insertionSort _).mp hleg

theorem proposeLeg_planned {config : LegConfig} {anchor : Int} {leg : CandidateLegSchedule}
    (hconfig : config ∈ legConfigs booking options)
    (h : proposeLeg slots anchor config = some leg) : PlannedLeg slots booking leg := by
  unfold proposeLeg at h
  split at h
  next hskip =>
    cases h
    exact ⟨⟨_, legConfigs_leg hconfig, rfl⟩, fun _ => rfl,
      fun hmoved => by simp [CandidateLegSchedule.moved] at hmoved⟩
  next hskip =>
    obtain ⟨newSlotId, hchoose, rfl⟩ := map_eq_some_iff.mp h
    refine ⟨⟨_, legConfigs_leg hconfig, rfl⟩, fun hstays => ?_, fun hmoved => ?_⟩
    · have hsame : config.leg.slotId = newSlotId := by
        simpa [CandidateLegSchedule.moved, hskip] using hstays
      exact hsame.symm
    · obtain ⟨slot, hslot, hid, husable, -⟩ := chooseSlot_fits hchoose
      refine ⟨slot, hslot, hid, ?_⟩
      simp only [CandidateLegSchedule.moved, Bool.and_eq_true, decide_eq_true_eq] at hmoved
      simp only [usable, Bool.and_eq_true, Bool.or_eq_true, decide_eq_true_eq] at husable
      rcases husable.2 with hbookable | hown
      · exact hbookable
      · exact absurd (hown.symm.trans hid) hmoved.2

/-- The legs of an option fit together at a given time. -/
structure Confirmable (now : Int) (option : RescheduleCandidateOption) (slots : Slots) : Prop where
  /-- No two legs move to the same slot. -/
  distinct : option.newSlots.Nodup
  /-- No leg moves to a slot past its deadline. -/
  unexpired : ∀ slotId ∈ option.newSlots, slots.unexpired now slotId = true
  /-- The slot found under a new id is bookable or given up by a leg. -/
  bookable : ∀ slotId ∈ option.newSlots, slots.flag slotId = some true ∨ slotId ∈ option.oldSlots
  /-- A leg that stays does not share its slot with one that leaves it. -/
  stays : ∀ leg ∈ option.legs, leg.moved = false → leg.newSlotId ∈ option.oldSlots →
    leg.newSlotId ∈ option.newSlots

theorem reservable_iff {t : Int} (hold : ∀ slotId ∈ option.oldSlots, slots.flag slotId = some false) :
    Reservable {} (fun _ => t) 0 option.newSlots (slots.setMany option.oldSlots true) ↔
      option.newSlots.Nodup ∧ ∀ slotId ∈ option.newSlots, slots.unexpired t slotId = true ∧
        (slots.flag slotId = some true ∨ slotId ∈ option.oldSlots) := by
  have hfree : ∀ slotId, (slots.setMany option.oldSlots true).Free t slotId ↔
      slots.unexpired t slotId = true ∧
        (slots.flag slotId = some true ∨ slotId ∈ option.oldSlots) := by
    intro slotId
    rw [free_iff, flag_setMany, unexpired_setMany, and_comm]
    by_cases hmem : slotId ∈ option.oldSlots
    · simp [hmem, hold slotId hmem]
    · simp [hmem]
  constructor
  · rintro ⟨-, hdistinct, hall⟩
    refine ⟨hdistinct, fun slotId hmem => ?_⟩
    obtain ⟨j, hj⟩ := mem_iff_getElem?.mp hmem
    exact (hfree slotId).mp (hall j slotId hj)
  · rintro ⟨hdistinct, hall⟩
    exact ⟨fun _ => ⟨rfl, rfl⟩, hdistinct,
      fun j slotId hj => (hfree slotId).mpr (hall slotId (mem_of_getElem? hj))⟩

/-- The checks at the entry let a planned option pass. -/
theorem planned_option_checked
    (hplan : planMultiLegReschedule {} uuid slots booking options = some (.ok found))
    (hoption : option ∈ found) :
    checkConfirmReschedule {} ⟨booking.bookingId, options.buyerId, option, booking⟩ = .ok () := by
  obtain ⟨hcheck, anchor, hlegs⟩ := planned_option hplan hoption
  obtain ⟨_, -, h⟩ := Result.bind_eq_ok.mp hcheck
  obtain ⟨_, hnonempty, hbuyer⟩ := Result.bind_eq_ok.mp h
  rw [Result.require_eq_ok] at hnonempty hbuyer
  have hoptionLegs : option.legs ≠ [] := by
    have hlength := (proposeLegs_eq_some hlegs).length_eq
    rw [legConfigs, length_map, length_insertionSort] at hlength
    rw [← length_pos_iff] at hnonempty ⊢
    omega
  refine Result.bind_eq_ok.mpr ⟨(), ?_, Result.bind_eq_ok.mpr ⟨(),
    Result.require_eq_ok.mpr hbuyer, Result.require_eq_ok.mpr hoptionLegs⟩⟩
  cases booking.tenantId <;> simp [requireTenant, Switches.pausedTenant]

/-- **A planned option can be confirmed** in the state it was planned in,
leaving every new slot reserved, if and only if its legs fit together. -/
theorem planned_option_confirmable_iff (env : ConfirmEnv) (t : Int)
    (hclock : env.reserveNow = fun _ => t)
    (hreserved : ∀ leg ∈ booking.legs, slots.flag leg.slotId = some false)
    (hplan : planMultiLegReschedule {} uuid slots booking options = some (.ok found))
    (hoption : option ∈ found) :
    (∃ slots' result, confirmMultiLegReschedule {} env
        ⟨booking.bookingId, options.buyerId, option, booking⟩ slots = (slots', .ok result) ∧
      ∀ leg ∈ option.legs, slots'.flag leg.newSlotId = some false) ↔
    Confirmable t option slots := by
  have hleg : ∀ leg ∈ option.legs, PlannedLeg slots booking leg := by
    intro leg h
    obtain ⟨-, anchor, hlegs⟩ := planned_option hplan hoption
    obtain ⟨config, hconfig, hpropose⟩ := forall₂_right_mem (proposeLegs_eq_some hlegs) h
    exact proposeLeg_planned hconfig hpropose
  have hcurrent : ∀ leg ∈ option.legs, slots.flag leg.currentSlotId = some false := by
    intro leg h
    obtain ⟨old, hold, heq⟩ := (hleg leg h).current
    rw [heq]
    exact hreserved old hold
  have hold : ∀ slotId ∈ option.oldSlots, slots.flag slotId = some false := by
    intro slotId h
    obtain ⟨leg, hmem, rfl⟩ := List.mem_map.mp h
    exact hcurrent leg (mem_filter.mp hmem).1
  have hsplit : Confirmable t option slots ↔
      Reservable {} env.reserveNow 0 option.newSlots (slots.setMany option.oldSlots true) ∧
        ∀ leg ∈ option.legs, leg.moved = false → leg.newSlotId ∈ option.oldSlots →
          leg.newSlotId ∈ option.newSlots := by
    rw [hclock, reservable_iff hold]
    constructor
    · rintro ⟨hdistinct, hunexpired, hbookable, hstays⟩
      exact ⟨⟨hdistinct, fun x hx => ⟨hunexpired x hx, hbookable x hx⟩⟩, hstays⟩
    · rintro ⟨⟨hdistinct, hall⟩, hstays⟩
      exact ⟨hdistinct, fun x hx => (hall x hx).1, fun x hx => (hall x hx).2, hstays⟩
  rw [hsplit, ← reserveEach_none_iff]
  obtain ⟨hslots, hflags, hall⟩ := reserveEach_spec {} env.reserveNow 0 option.newSlots
    (slots.setMany option.oldSlots true)
  simp only [confirmMultiLegReschedule, planned_option_checked hplan hoption, releaseOld_eq]
  rcases hreserve : reserveEach {} env.reserveNow 0 option.newSlots
    (slots.setMany option.oldSlots true) with ⟨slots'', reserved, failure⟩
  rw [hreserve] at hslots hflags hall
  cases failure with
  | some err => simp
  | none =>
    rw [hall rfl] at hslots hflags
    subst hslots
    -- a leg that moves has just taken its new slot, so only legs that stay matter
    have hfinal : ∀ leg ∈ option.legs,
        (((slots.setMany option.oldSlots true).setMany option.newSlots false).flag leg.newSlotId
          = some false ↔
        (leg.moved = false → leg.newSlotId ∈ option.oldSlots → leg.newSlotId ∈ option.newSlots)) := by
      intro leg h
      cases hmoved : leg.moved with
      | true =>
        have hnew : leg.newSlotId ∈ option.newSlots :=
          List.mem_map.mpr ⟨leg, mem_filter.mpr ⟨h, hmoved⟩, rfl⟩
        rw [flag_setMany, if_pos hnew, hflags _ hnew]
        simp
      | false =>
        have hflag : slots.flag leg.newSlotId = some false := by
          rw [(hleg leg h).stays hmoved]
          exact hcurrent leg h
        rw [flag_setMany, flag_setMany, hflag]
        by_cases hnew : leg.newSlotId ∈ option.newSlots <;>
          by_cases holdMem : leg.newSlotId ∈ option.oldSlots <;> simp [hnew, holdMem]
    constructor
    · rintro ⟨slots', result, heq, hlegs⟩
      cases heq
      exact ⟨rfl, fun leg h => (hfinal leg h).mp (hlegs leg h)⟩
    · rintro ⟨-, hstays⟩
      exact ⟨_, _, rfl, fun leg h => (hfinal leg h).mpr (hstays leg h)⟩

theorem planned_clash_throws :
    planMultiLegReschedule {} toString twoLegsInventory twoLegs atFive = some (.ok [bothInLong]) ∧
    (∀ leg ∈ twoLegs.legs, twoLegsInventory.flag leg.slotId = some false) ∧
    (confirmMultiLegReschedule {} stillEnv ⟨"booking", "buyer", bothInLong, twoLegs⟩
      twoLegsInventory).2 = .error (.confirmFailed "booking" (.slotNotBookable "long")) := by
  refine ⟨?_, ?_, ?_⟩ <;> decide +kernel

/-- One leg that moves to a free slot, planned and confirmed. -/
theorem planned_single_move_confirmable :
    ∃ slots' result, confirmMultiLegReschedule {} stillEnv
        ⟨"booking", "buyer", { sampleConfirm.candidateOption with optionId := "opt_0" },
          sampleConfirm.multiLegBooking⟩ sampleInventory = (slots', .ok result) ∧
      ∀ leg ∈ sampleConfirm.candidateOption.legs, slots'.flag leg.newSlotId = some false := by
  have hplan : planMultiLegReschedule {} toString sampleInventory sampleConfirm.multiLegBooking
      atFive = some (.ok [{ sampleConfirm.candidateOption with optionId := "opt_0" }]) := by
    decide +kernel
  refine (planned_option_confirmable_iff stillEnv 0 rfl (by decide +kernel) hplan
    (mem_singleton.mpr rfl)).mpr ⟨?_, ?_, ?_, ?_⟩ <;> decide +kernel

end ChronoPay
