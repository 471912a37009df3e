import ChronoPay.Slots
import Mathlib

/-!
# ConflictPreview — the start times `findNextSafeStart` suggests

The search jumps to the end of the first slot, by start time, that its
candidate overlaps, and gives up after a hundred candidates. A jump
leaves out no free start, and a slot it has jumped over ends no later
than every later candidate, so with fewer than a hundred slots the
search ends at the least free start.
-/

namespace ChronoPay

open List

/-- What the search reads of a slot. -/
structure SlotTimes where
  startTime : ℚ
  endTime : ℚ
  deriving DecidableEq, Repr

/-- The test of the inner loop: the slot meets `[candidate, candidate + durationMs)`. -/
def SlotTimes.conflicts (durationMs candidate : ℚ) (slot : SlotTimes) : Bool :=
  slot.startTime < candidate + durationMs ∧ slot.endTime > candidate

def maxIterations : Nat := 100

/-- The loop of `findNextSafeStart` with the iterations it has left. -/
def nextSafeStart (sorted : List SlotTimes) (durationMs : ℚ) : Nat → ℚ → Option ℚ
  | 0, _ => none
  | left + 1, candidate =>
    match sorted.find? (·.conflicts durationMs candidate) with
    | some slot => nextSafeStart sorted durationMs left slot.endTime
    | none => some candidate

/-- The slots given, or those of the professional in the repository. -/
def slotsSearched (repo : Slots) (professional : String) (profSlots : Option (List SlotTimes)) :
    List SlotTimes :=
  profSlots.getD ((repo.filter fun s => s.professional = professional).map
    fun s => ⟨s.startTime, s.endTime⟩)

def findNextSafeStart (repo : Slots) (professional : String) (afterMs durationMs : ℚ)
    (profSlots : Option (List SlotTimes)) : Option ℚ :=
  nextSafeStart ((slotsSearched repo professional profSlots).insertionSort
    (·.startTime ≤ ·.startTime)) durationMs maxIterations afterMs

/-! ## The least free start -/

/-- The starts from `afterMs` on whose interval overlaps no slot. -/
def safeStarts (slots : List SlotTimes) (durationMs afterMs : ℚ) : Set ℚ :=
  {start | afterMs ≤ start ∧ ∀ slot ∈ slots,
    Disjoint (Set.Ico start (start + durationMs)) (Set.Ico slot.startTime slot.endTime)}

variable {slots : List SlotTimes} {slot : SlotTimes} {durationMs candidate start : ℚ}

theorem disjoint_iff_not_conflicts (hslot : slot.startTime < slot.endTime) (hd : 0 < durationMs) :
    Disjoint (Set.Ico start (start + durationMs)) (Set.Ico slot.startTime slot.endTime) ↔
      ¬ slot.conflicts durationMs start := by
  have hstart : start < start + durationMs := lt_add_of_pos_right start hd
  rw [Set.Ico_disjoint_Ico, SlotTimes.conflicts, decide_eq_true_iff, not_and_or, not_lt, not_lt]
  grind

/-- A start before the end of a slot in the way is in the way of it too. -/
theorem safeStarts_jump (hslots : ∀ slot ∈ slots, slot.startTime < slot.endTime)
    (hd : 0 < durationMs) (hmem : slot ∈ slots) (hslot : slot.conflicts durationMs candidate) :
    safeStarts slots durationMs candidate = safeStarts slots durationMs slot.endTime := by
  obtain ⟨hstart, hend⟩ := of_decide_eq_true hslot
  ext start
  refine ⟨fun ⟨hafter, hfree⟩ => ⟨?_, hfree⟩, fun ⟨hafter, hfree⟩ =>
    ⟨hend.le.trans hafter, hfree⟩⟩
  have hnot := (disjoint_iff_not_conflicts (hslots slot hmem) hd).mp (hfree slot hmem)
  by_contra! hbefore
  exact hnot (decide_eq_true ⟨hstart.trans_le (add_le_add_left hafter durationMs), hbefore⟩)

/-- The slots that can still be in the way of a candidate. -/
def ahead (slots : List SlotTimes) (candidate : ℚ) : Nat :=
  slots.countP fun slot => slot.endTime > candidate

theorem ahead_jump (hmem : slot ∈ slots) (hslot : slot.endTime > candidate) :
    ahead slots slot.endTime < ahead slots candidate := by
  obtain ⟨before, after, rfl⟩ := append_of_mem hmem
  have hle (l : List SlotTimes) : ahead l slot.endTime ≤ ahead l candidate :=
    countP_mono_left fun s _ h => by simpa using hslot.trans (of_decide_eq_true h)
  have hbefore := hle before
  have hafter := hle after
  unfold ahead at *
  simp only [countP_append, countP_cons, gt_iff_lt, lt_irrefl, decide_false, hslot, decide_true]
  grind

/-- By induction on the iterations left, of which there is one for each
slot ahead and one more. -/
theorem nextSafeStart_isLeast (hslots : ∀ slot ∈ slots, slot.startTime < slot.endTime)
    (hd : 0 < durationMs) {left : Nat} (hleft : ahead slots candidate < left) :
    ∃ start, nextSafeStart slots durationMs left candidate = some start ∧
      IsLeast (safeStarts slots durationMs candidate) start := by
  induction left generalizing candidate with
  | zero => omega
  | succ left ih =>
    unfold nextSafeStart
    split
    next slot hfound =>
      have hmem := mem_of_find?_eq_some hfound
      have hslot : slot.conflicts durationMs candidate := find?_some hfound
      have hahead := ahead_jump hmem (of_decide_eq_true hslot).2
      rw [safeStarts_jump hslots hd hmem hslot]
      exact ih (by omega)
    next hfree =>
      refine ⟨candidate, rfl, ⟨le_rfl, fun slot hmem => ?_⟩, fun start hstart => hstart.1⟩
      rw [disjoint_iff_not_conflicts (hslots slot hmem) hd]
      exact find?_eq_none.mp hfree slot hmem

theorem findNextSafeStart_isLeast (repo : Slots) (professional : String) (afterMs : ℚ)
    {durationMs : ℚ} (profSlots : Option (List SlotTimes))
    (hslots : ∀ slot ∈ slotsSearched repo professional profSlots, slot.startTime < slot.endTime)
    (hlength : (slotsSearched repo professional profSlots).length < 100) (hd : 0 < durationMs) :
    ∃ start, findNextSafeStart repo professional afterMs durationMs profSlots = some start ∧
      IsLeast (safeStarts (slotsSearched repo professional profSlots) durationMs afterMs)
        start := by
  generalize hsearched : slotsSearched repo professional profSlots = searched at *
  -- the order decides which slot is jumped over first, not which starts are free
  have hsafe : safeStarts (searched.insertionSort (·.startTime ≤ ·.startTime)) durationMs afterMs =
      safeStarts searched durationMs afterMs := by
    simp only [safeStarts, mem_insertionSort]
  rw [findNextSafeStart, hsearched, ← hsafe]
  refine nextSafeStart_isLeast (fun slot h => hslots slot ((mem_insertionSort _).mp h)) hd ?_
  calc ahead (searched.insertionSort _) afterMs
      ≤ (searched.insertionSort _).length := countP_le_length
    _ = searched.length := length_insertionSort _ _
    _ < maxIterations := hlength

/-- Two slots that overlap and a gap too short for the duration. -/
theorem findNextSafeStart_isLeast_overlapping :
    ∃ start, findNextSafeStart [] "p" 0 3 (some [⟨5, 9⟩, ⟨1, 4⟩, ⟨0, 2⟩]) = some start ∧
      IsLeast (safeStarts [⟨5, 9⟩, ⟨1, 4⟩, ⟨0, 2⟩] 3 0) start :=
  findNextSafeStart_isLeast [] "p" 0 (some [⟨5, 9⟩, ⟨1, 4⟩, ⟨0, 2⟩]) (by decide) (by decide)
    (by decide)

end ChronoPay
