import ChronoPay.MultiLegReschedule

/-!
# ReschedulePlan — what `planMultiLegReschedule` returns, and whether

The search walks anchors with a step that the caller gives and nothing
checks: it ends when there is nothing to walk or the step is positive.
What it returns then is the head of the sorted list of ALL valid
anchors, and every leg of an option was placed by one call of
`proposeLeg`.
-/

namespace ChronoPay

open Function List Option

variable {switches : Switches} {uuid : Nat → String} {slots : Slots} {booking : MultiLegBooking}
  {options : RescheduleOptions} {found : List RescheduleCandidateOption}
  {option : RescheduleCandidateOption}

/-! ## Termination -/

/-- The loop itself, for at most `fuel` tests of its condition. -/
def forLoop (stop step : Int) : Nat → Int → Option (List Int)
  | 0, _ => none
  | fuel + 1, t => if t ≤ stop then (forLoop stop step fuel (t + step)).map (t :: ·) else some []

section

variable {start stop step : Int} {ts : List Int}

theorem loopValues_isSome_iff :
    (loopValues start stop step).isSome = true ↔ stop < start ∨ 0 < step := by
  unfold loopValues
  split_ifs with hempty hstep
  · simp [hempty]
  · simp [hempty, hstep]
  · simp [not_le.mp hstep]

theorem loopValues_of_pos (h : 0 < step) :
    loopValues start stop step
      = some ((List.range ((stop - start) / step + 1).toNat).map fun i : Nat =>
          start + i * step) := by
  unfold loopValues
  split_ifs with hempty hstep
  · have hneg : (stop - start) / step < 0 := Int.ediv_neg_of_neg_of_pos (by omega) h
    rw [Int.toNat_of_nonpos (by omega)]
    rfl
  · omega
  · simp [← map_eq_flatMap, comp_def]

/-- One round of the loop. -/
theorem loopValues_of_le (h : start ≤ stop) :
    loopValues start stop step = (loopValues (start + step) stop step).map (start :: ·) := by
  by_cases hstep : 0 < step
  · have hshift : (stop - (start + step)) / step = (stop - start) / step - 1 := by
      rw [show stop - (start + step) = (stop - start) + -1 * step by ring,
        Int.add_mul_ediv_right _ _ hstep.ne']
      rfl
    have hrounds : 0 ≤ (stop - start) / step := Int.ediv_nonneg (by omega) hstep.le
    rw [loopValues_of_pos hstep, loopValues_of_pos hstep, hshift,
      show ((stop - start) / step + 1).toNat = ((stop - start) / step - 1 + 1).toNat + 1 by omega,
      range_succ_eq_map]
    simp only [map_cons, List.map_map, map_some, Option.some.injEq, List.cons.injEq]
    refine ⟨by simp, map_congr_left fun i _ => ?_⟩
    simp only [comp_apply, Nat.succ_eq_add_one, Nat.cast_add, Nat.cast_one]
    ring
  · have hnone : ∀ t, t ≤ stop → loopValues t stop step = none := by
      intro t ht
      rw [loopValues, if_neg (by omega), if_pos (by omega)]
    rw [hnone start h, hnone (start + step) (by omega)]
    rfl

/-- **`loopValues` is what the loop computes**, with `none` for a loop
that no number of rounds ends. -/
theorem loopValues_eq_some_iff :
    loopValues start stop step = some ts ↔ ∃ fuel, forLoop stop step fuel start = some ts := by
  constructor
  · intro h
    induction ts generalizing start with
    | nil =>
      refine ⟨1, if_neg fun hle => ?_⟩
      rw [loopValues_of_le hle] at h
      simp at h
    | cons t ts ih =>
      have hle : start ≤ stop := by
        by_contra hlt
        rw [loopValues, if_pos (not_le.mp hlt)] at h
        cases h
      rw [loopValues_of_le hle] at h
      obtain ⟨rest, hrest, hcons⟩ := map_eq_some_iff.mp h
      cases hcons
      obtain ⟨fuel, hfuel⟩ := ih hrest
      refine ⟨fuel + 1, ?_⟩
      rw [forLoop, if_pos hle, hfuel]
      rfl
  · rintro ⟨fuel, h⟩
    induction fuel generalizing start ts with
    | zero => cases h
    | succ fuel ih =>
      rw [forLoop] at h
      split_ifs at h with hle
      · obtain ⟨rest, hrest, rfl⟩ := map_eq_some_iff.mp h
        rw [loopValues_of_le hle, ih hrest]
        rfl
      · rw [loopValues, if_pos (not_le.mp hle)]
        exact h

end

/-- Two consecutive legs, each in its own slot, and one long slot that is
free: the plan puts both legs into it. -/
def twoLegs : MultiLegBooking where
  bookingId := "booking"
  buyerId := "buyer"
  legs := [
    { legId := "first", slotId := "a", professional := "pro", startTime := 1000, endTime := 2000 },
    { legId := "second", slotId := "b", professional := "pro", startTime := 2000, endTime := 3000 }]

def twoLegsInventory : Slots :=
  [{ id := "a", professional := "pro", startTime := 1000, endTime := 2000, bookable := false },
    { id := "b", professional := "pro", startTime := 2000, endTime := 3000, bookable := false },
    { id := "long", professional := "pro", startTime := 5000, endTime := 8000, bookable := true }]

def atFive : RescheduleOptions where
  buyerId := "buyer"
  targetAnchorStartTimeMs := some 5000
  searchWindow := some ⟨5000, 5000⟩

def bothInLong : RescheduleCandidateOption where
  optionId := "opt_0"
  anchorStartTimeMs := 5000
  legs := [
    { legId := "first", currentSlotId := "a", newSlotId := "long", professional := "pro",
      currentStartTime := 1000, newStartTime := 5000, newEndTime := 6000, durationMs := 1000,
      offsetMs := 0, isOverridden := false, isPartialKept := false },
    { legId := "second", currentSlotId := "b", newSlotId := "long", professional := "pro",
      currentStartTime := 2000, newStartTime := 6000, newEndTime := 7000, durationMs := 1000,
      offsetMs := 1000, isOverridden := false, isPartialKept := false }]
  totalDisruptionMs := 8000
  disruptionScore := 8000
  isFullyAvailable := true

theorem forall₂_of_mapM {α β : Type} {f : α → Option β} {l : List α} {bs : List β}
    (h : l.mapM f = some bs) : List.Forall₂ (fun a b => f a = some b) l bs := by
  induction l generalizing bs with
  | nil =>
    cases h
    exact .nil
  | cons a l ih =>
    simp only [mapM_cons, bind_eq_bind, bind_eq_some_iff, Option.pure_def, Option.some.injEq] at h
    obtain ⟨first, hfirst, rest, hrest, rfl⟩ := h
    exact .cons hfirst (ih hrest)

theorem forall₂_right_mem {α β : Type} {R : α → β → Prop} {l : List α} {bs : List β} {b : β}
    (h : List.Forall₂ R l bs) (hb : b ∈ bs) : ∃ a ∈ l, R a b := by
  induction h with
  | nil => cases hb
  | cons hab _ ih =>
    rcases mem_cons.mp hb with rfl | hb
    · exact ⟨_, mem_cons_self, hab⟩
    · obtain ⟨a, ha, hab⟩ := ih hb
      exact ⟨a, mem_cons_of_mem _ ha, hab⟩

theorem proposeLegs_eq_some {configs : List LegConfig} {anchor : Int}
    {legs : List CandidateLegSchedule} (h : proposeLegs slots configs anchor = some legs) :
    List.Forall₂ (fun config leg => proposeLeg slots anchor config = some leg) configs legs := by
  unfold proposeLegs at h
  split at h
  · cases h
  · exact forall₂_of_mapM h

/-- A chosen slot is usable for the leg and contains its new time. -/
theorem chooseSlot_fits {config : LegConfig} {newStart newEnd : Int} {slotId : String}
    (h : chooseSlot slots config newStart newEnd = some slotId) :
    ∃ slot ∈ slots, slot.id = slotId ∧ usable config.leg slot = true ∧
      slot.startTime ≤ newStart ∧ newEnd ≤ slot.endTime := by
  unfold chooseSlot at h
  split at h
  · obtain ⟨slot, hslot, rfl⟩ := map_eq_some_iff.mp h
    obtain ⟨hfind, hok⟩ := filter_eq_some_iff.mp hslot
    simp only [Bool.and_eq_true, decide_eq_true_eq] at hok
    exact ⟨slot, mem_of_find?_eq_some hfind, rfl, hok.1.1, hok.1.2.le, hok.2.ge⟩
  · obtain ⟨slot, hslot, rfl⟩ := map_eq_some_iff.mp h
    rcases or_eq_some_iff.mp hslot with hfind | ⟨-, hfind⟩
    · have hok := find?_some hfind
      simp only [Bool.and_eq_true, decide_eq_true_eq] at hok
      exact ⟨slot, mem_of_find?_eq_some hfind, rfl, hok.1.1, hok.1.2.le, hok.2.ge⟩
    · have hok := find?_some hfind
      simp only [Bool.and_eq_true, decide_eq_true_eq] at hok
      exact ⟨slot, mem_of_find?_eq_some hfind, rfl, hok.1.1, hok.1.2, hok.2⟩

section

variable {configs : List LegConfig} {anchors : List Int} {anchor : Int}
  {legs : List CandidateLegSchedule}

theorem candidateOptions_mem (h : option ∈ candidateOptions uuid slots configs anchors) :
    proposeLegs slots configs option.anchorStartTimeMs = some option.legs ∧
      option.totalDisruptionMs = disruption option.legs ∧
      option.disruptionScore = option.totalDisruptionMs := by
  rw [candidateOptions, mem_mapIdx] at h
  obtain ⟨i, hi, rfl⟩ := h
  obtain ⟨anchor, -, hlegs⟩ := mem_filterMap.mp (getElem_mem hi)
  obtain ⟨legs, hpropose, heq⟩ := map_eq_some_iff.mp hlegs
  rw [← heq]
  exact ⟨hpropose, rfl, rfl⟩

theorem exists_candidateOption (uuid : Nat → String) (hanchor : anchor ∈ anchors)
    (hlegs : proposeLegs slots configs anchor = some legs) :
    ∃ option ∈ candidateOptions uuid slots configs anchors,
      option.anchorStartTimeMs = anchor ∧ option.totalDisruptionMs = disruption legs := by
  have hmem : (anchor, legs) ∈ anchors.filterMap fun anchor =>
      (proposeLegs slots configs anchor).map fun legs => (anchor, legs) :=
    mem_filterMap.mpr ⟨anchor, hanchor, by rw [hlegs]; rfl⟩
  obtain ⟨i, hi, hget⟩ := mem_iff_getElem.mp hmem
  refine ⟨_, mem_mapIdx.mpr ⟨i, hi, rfl⟩, ?_⟩
  rw [hget]
  exact ⟨rfl, rfl⟩

end

/-- The start of the booking's first leg. -/
def MultiLegBooking.firstStart (booking : MultiLegBooking) : Int :=
  ((booking.legs.insertionSort (·.startTime ≤ ·.startTime)).head?.map (·.startTime)).getD 0

/-- A plan that is found is the head of the sorted candidates. -/
theorem plan_eq_ok (hplan : planMultiLegReschedule switches uuid slots booking options
      = some (.ok found)) :
    checkPlan switches booking options = .ok () ∧
      ∃ anchors, candidateAnchors options booking.firstStart = some anchors ∧
        found = sliceTo (options.maxOptions.getD 3)
          ((candidateOptions uuid slots (legConfigs booking options) anchors).insertionSort
            (·.disruptionScore ≤ ·.disruptionScore)) := by
  unfold planMultiLegReschedule at hplan
  cases hcheck : checkPlan switches booking options with
  | error err => simp [hcheck] at hplan
  | ok _ =>
    rw [hcheck] at hplan
    obtain ⟨anchors, hanchors, hresult⟩ := map_eq_some_iff.mp hplan
    refine ⟨rfl, anchors, ?_, ?_⟩
    · simpa [legConfigs, head?_map, MultiLegBooking.firstStart, comp_def, legConfig]
        using hanchors
    · cases hall : candidateOptions uuid slots (legConfigs booking options) anchors with
      | nil => simp [hall] at hresult
      | cons first rest =>
        rw [hall] at hresult
        exact (Except.ok.inj hresult).symm

theorem mem_of_mem_sliceTo {α : Type} {n : Int} {l : List α} {a : α} (h : a ∈ sliceTo n l) :
    a ∈ l := by
  unfold sliceTo at h
  split at h <;> exact mem_of_mem_take h

/-- The checks passed, and the legs were proposed for one anchor. -/
theorem planned_option (hplan : planMultiLegReschedule switches uuid slots booking options
      = some (.ok found)) (hoption : option ∈ found) :
    checkPlan switches booking options = .ok () ∧
      ∃ anchor, proposeLegs slots (legConfigs booking options) anchor = some option.legs := by
  obtain ⟨hcheck, anchors, -, rfl⟩ := plan_eq_ok hplan
  have hmem := (mem_insertionSort _).mp (mem_of_mem_sliceTo hoption)
  exact ⟨hcheck, _, (candidateOptions_mem hmem).1⟩

/-! ## What a plan promises -/

/-- What a leg becomes for an anchor. -/
structure Placed (slots : Slots) (booking : MultiLegBooking) (options : RescheduleOptions)
    (anchor : Int) (leg : MultiLegBookingLeg) (placed : CandidateLegSchedule) : Prop where
  legId : placed.legId = leg.legId
  /-- A leg that is skipped stays where it is. -/
  kept : ((options.legOverrides.bind (·.get leg.legId)).bind (·.skipReschedule)).getD false = true →
    placed.newSlotId = leg.slotId ∧ placed.newStartTime = leg.startTime ∧
      placed.newEndTime = leg.endTime
  /-- Any other leg keeps its offset to the anchor, unless that is
  overridden, and its duration, in a slot that it may have. -/
  moved : ((options.legOverrides.bind (·.get leg.legId)).bind (·.skipReschedule)).getD false = false →
    ((options.legOverrides.bind (·.get leg.legId)).bind (·.offsetOverrideMs) = none →
      placed.newStartTime - anchor = leg.offsetMs.getD (leg.startTime - booking.firstStart)) ∧
    placed.newEndTime - placed.newStartTime = leg.endTime - leg.startTime ∧
    ∃ slot ∈ slots, slot.id = placed.newSlotId ∧ slot.professional = leg.professional ∧
      slot.startTime ≤ placed.newStartTime ∧ placed.newEndTime ≤ slot.endTime ∧
      (slot.bookable = true ∨ slot.id = leg.slotId)

theorem proposeLeg_placed {anchor : Int} {leg : MultiLegBookingLeg} {placed : CandidateLegSchedule}
    (h : proposeLeg slots anchor (legConfig options.legOverrides booking.firstStart leg)
      = some placed) : Placed slots booking options anchor leg placed := by
  unfold proposeLeg at h
  split at h
  next hskip =>
    cases h
    exact ⟨rfl, fun _ => ⟨rfl, rfl, rfl⟩, fun hmoved => absurd hskip (by simp [legConfig, hmoved])⟩
  next hskip =>
    obtain ⟨newSlotId, hchoose, rfl⟩ := map_eq_some_iff.mp h
    obtain ⟨slot, hslot, hid, husable, hstart, hend⟩ := chooseSlot_fits hchoose
    simp only [usable, Bool.and_eq_true, Bool.or_eq_true, decide_eq_true_eq] at husable
    refine ⟨rfl, fun hkept => absurd hkept (by simpa [legConfig] using hskip), fun _ =>
      ⟨fun hoffset => ?_, ?_, slot, hslot, hid, husable.1, hstart, hend, husable.2⟩⟩
    · simp [legConfig, hoffset]
    · simp [legConfig]

end ChronoPay
