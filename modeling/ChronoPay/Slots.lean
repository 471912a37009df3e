import ChronoPay.Lib.KeyedList
import ChronoPay.Pricing

/-!
# Slots — the slot record and `InMemorySlotRepository`

The repository is the array of its slots. Reads hand out copies, so the
only way a slot changes is `updateBookable`, which flips the flag of the
first slot with the id and throws when there is none.
-/

namespace ChronoPay

open Function KeyedList

inductive SupportedCurrency where
  | usd
  | eur
  | gbp
  | xlm
  deriving DecidableEq, Repr

def SupportedCurrency.text : SupportedCurrency → String
  | usd => "USD"
  | eur => "EUR"
  | gbp => "GBP"
  | xlm => "XLM"

structure SlotPricingStrategy where
  strategyId : StrategyId
  basePrice : ℚ
  capacity : Option ℚ := none
  config : StrategyConfig
  deriving DecidableEq, Repr

structure SlotRecord where
  id : String
  professional : String
  startTime : Int
  endTime : Int
  bookable : Bool
  pricingStrategy : Option SlotPricingStrategy := none
  /-- Bundle expiry in ms; redemptions must come before it. -/
  validUntil : Option Int := none
  category : Option String := none
  transferable : Option Bool := none
  currency : Option SupportedCurrency := none
  deriving DecidableEq, Repr

abbrev Slots := List SlotRecord

namespace Slots

def findById (slots : Slots) (slotId : String) : Option SlotRecord :=
  KeyedList.get SlotRecord.id slotId slots

/-- `updateBookable`; `none` is the error "Slot … not found". -/
def updateBookable (slots : Slots) (slotId : String) (bookable : Bool) : Option Slots :=
  if (slots.findById slotId).isSome then
    some (KeyedList.modify SlotRecord.id slotId (fun s => { s with bookable }) slots)
  else none

/-- A slot of the same professional overlaps `[startTime, endTime)`. -/
def hasConflict (slots : Slots) (professional : String) (startTime endTime : Int)
    (excludeId : Option String) : Bool :=
  slots.any fun s => s.professional = professional ∧ some s.id ≠ excludeId ∧
    s.startTime < endTime ∧ s.endTime > startTime

/-- The slots after setting the flag, unchanged when the slot is absent. -/
def setBookable (slots : Slots) (slotId : String) (bookable : Bool) : Slots :=
  KeyedList.modify SlotRecord.id slotId (fun s => { s with bookable }) slots

/-- The flag a reader of the repository sees for an id. -/
def flag (slots : Slots) (slotId : String) : Option Bool :=
  (slots.findById slotId).map SlotRecord.bookable

variable {slots slots' : Slots} {slotId slotId' : String} {b : Bool}

theorem findById_id {slot : SlotRecord} (h : slots.findById slotId = some slot) :
    slot.id = slotId := get_key h

theorem updateBookable_eq_some :
    slots.updateBookable slotId b = some slots' ↔
      (slots.findById slotId).isSome = true ∧ slots' = slots.setBookable slotId b := by
  unfold updateBookable setBookable
  split
  next h => simp only [Option.some.injEq, h, true_and, eq_comm]
  next h => simp only [reduceCtorEq, h, false_and]

theorem findById_setBookable :
    (slots.setBookable slotId b).findById slotId'
      = if slotId' = slotId then (slots.findById slotId').map (fun s => { s with bookable := b })
        else slots.findById slotId' :=
  get_modify fun _ => rfl

@[simp] theorem findById_setBookable_isSome :
    ((slots.setBookable slotId b).findById slotId').isSome = (slots.findById slotId').isSome := by
  rw [findById_setBookable]
  split <;> simp

theorem flag_setBookable :
    (slots.setBookable slotId b).flag slotId'
      = if slotId' = slotId then (slots.flag slotId').map (fun _ => b) else slots.flag slotId' := by
  simp only [flag, findById_setBookable]
  split <;> simp [comp_def]

theorem flag_isSome : (slots.flag slotId).isSome = (slots.findById slotId).isSome := by
  simp [flag]

theorem setBookable_of_absent (h : slots.findById slotId = none) :
    slots.setBookable slotId b = slots := modify_of_get_none h

/-- Set the flags of several slots, in order. -/
def setMany (slots : Slots) (slotIds : List String) (b : Bool) : Slots :=
  slotIds.foldl (fun slots slotId => slots.setBookable slotId b) slots

@[simp] theorem setMany_nil (slots : Slots) (b : Bool) : slots.setMany [] b = slots := rfl

@[simp] theorem setMany_cons (slots : Slots) (slotIds : List String) :
    slots.setMany (slotId :: slotIds) b = (slots.setBookable slotId b).setMany slotIds b := rfl

theorem flag_setMany (slots : Slots) (slotIds : List String) (b : Bool) (slotId : String) :
    (slots.setMany slotIds b).flag slotId
      = if slotId ∈ slotIds then (slots.flag slotId).map (fun _ => b) else slots.flag slotId := by
  induction slotIds generalizing slots with
  | nil => simp
  | cons first rest ih =>
    rw [setMany_cons, ih, flag_setBookable]
    by_cases hid : slotId = first
    · subst hid
      by_cases hrest : slotId ∈ rest <;> simp [hrest, comp_def]
    · simp [hid]

@[simp] theorem findById_setMany_isSome {slotIds : List String} :
    ((slots.setMany slotIds b).findById slotId).isSome = (slots.findById slotId).isSome := by
  induction slotIds generalizing slots with
  | nil => rfl
  | cons first rest ih => rw [setMany_cons, ih, findById_setBookable_isSome]

/-- Two repositories that differ by flag updates only. -/
abbrev Reflagged (slots slots' : Slots) : Prop := Edits SlotRecord.id slots slots'

theorem Reflagged.setBookable {slots slots' : Slots} (h : Reflagged slots slots')
    (slotId : String) (b : Bool) : Reflagged slots (slots'.setBookable slotId b) :=
  .modify slotId (fun _ => rfl) h

end Slots

end ChronoPay
