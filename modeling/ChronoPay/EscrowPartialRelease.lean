import Mathlib.Algebra.Order.BigOperators.Group.List
import Mathlib.Tactic.Linarith
import ChronoPay.Lib.Result
import ChronoPay.Lib.TicketQueue

/-!
# EscrowPartialRelease — milestones paid out of one hold

`EscrowPartialReleaseService` queues its releases, so two of them never
overlap; registering a booking and authorising a milestone are
synchronous and do not queue. A release looks at the booking's CURRENT
record only. Registering the same id again puts a record without
releases in its place, and what was paid before is forgotten:
`releases_within_hold` says that this is the one way to pay too much.

Stroop amounts are exact numbers. A clock that throws leaves a milestone
marked as released without a release, so what a record counts as
released may be more than what was paid.
-/

namespace ChronoPay

open Function KeyedList List Machine TicketQueue

structure Milestone where
  milestoneId : String
  description : String
  amountStroops : ℚ
  released : Bool := false
  releasedAt : Option String := none
  releaseTxHash : Option String := none
  authorizedBy : Option String := none
  deriving DecidableEq, Repr

structure BookingEscrowRecord where
  bookingId : String
  holdAmountStroops : ℚ
  milestones : List Milestone
  deriving DecidableEq, Repr

structure PartialReleaseResult where
  bookingId : String
  milestoneId : String
  amountReleasedStroops : ℚ
  remainingBalanceStroops : ℚ
  txHash : String
  deriving DecidableEq, Repr

inductive PartialReleaseError where
  | bookingNotFound (bookingId : String)
  | milestoneNotFound (bookingId milestoneId : String)
  | milestoneAlreadyReleased (bookingId milestoneId : String)
  | overRelease (bookingId milestoneId : String) (requestedStroops remainingStroops : ℚ)
  | milestoneNotAuthorized (bookingId milestoneId : String)
  | invalidMilestoneAmount (milestoneId : String) (amountStroops : ℚ)
  | milestoneAmountExceedsHold (bookingId : String)
      (totalMilestoneStroops holdAmountStroops : ℚ)
  /-- What the clock callback threw. -/
  | clock (thrown : String)
  deriving DecidableEq, Repr

/-- The texts, by the text of a number. -/
def PartialReleaseError.message (number : ℚ → String) : PartialReleaseError → String
  | bookingNotFound bookingId => s!"Booking not found: {bookingId}"
  | milestoneNotFound bookingId milestoneId =>
    "Milestone \"" ++ milestoneId ++ "\" not found on booking \"" ++ bookingId ++ "\""
  | milestoneAlreadyReleased bookingId milestoneId =>
    "Milestone \"" ++ milestoneId ++ "\" on booking \"" ++ bookingId ++
      "\" has already been released"
  | overRelease bookingId milestoneId requestedStroops remainingStroops =>
    "Over-release prevented for booking \"" ++ bookingId ++ "\", milestone \"" ++ milestoneId ++
      "\": requested " ++ number requestedStroops ++ " stroops but only " ++
      number remainingStroops ++ " remaining"
  | milestoneNotAuthorized bookingId milestoneId =>
    "Milestone \"" ++ milestoneId ++ "\" on booking \"" ++ bookingId ++
      "\" has not been authorized for release"
  | invalidMilestoneAmount milestoneId amountStroops =>
    "Milestone \"" ++ milestoneId ++ "\" has invalid amount: " ++ number amountStroops ++
      " stroops. Must be a positive integer."
  | milestoneAmountExceedsHold bookingId totalMilestoneStroops holdAmountStroops =>
    "Total milestone amounts (" ++ number totalMilestoneStroops ++ " stroops) exceed " ++
      "the hold amount (" ++ number holdAmountStroops ++ " stroops) for booking \"" ++
      bookingId ++ "\""
  | clock thrown => thrown

namespace EscrowPartialRelease

abbrev Bookings : Type := String → Option BookingEscrowRecord

/-- A milestone as it is registered. -/
structure MilestoneInput where
  milestoneId : String
  description : String := ""
  amountStroops : ℚ
  deriving DecidableEq, Repr

/-! ## Operations -/

def registerBooking (bookingId : String) (holdAmountStroops : ℚ)
    (milestones : List MilestoneInput) (bookings : Bookings) :
    Bookings × Except PartialReleaseError BookingEscrowRecord :=
  match milestones.find? fun m => !m.amountStroops.isInt || m.amountStroops ≤ 0 with
  | some m => (bookings, .error (.invalidMilestoneAmount m.milestoneId m.amountStroops))
  | none =>
    let total := (milestones.map MilestoneInput.amountStroops).sum
    if holdAmountStroops < total then
      (bookings, .error (.milestoneAmountExceedsHold bookingId total holdAmountStroops))
    else
      let record : BookingEscrowRecord :=
        { bookingId, holdAmountStroops
          milestones := milestones.map fun m =>
            { milestoneId := m.milestoneId, description := m.description
              amountStroops := m.amountStroops } }
      (update bookings bookingId (some record), .ok record)

def requireBooking (bookingId : String) (bookings : Bookings) :
    Except PartialReleaseError BookingEscrowRecord :=
  match bookings bookingId with
  | some booking => .ok booking
  | none => .error (.bookingNotFound bookingId)

/-- `_requireMilestone`: the FIRST milestone with the id. -/
def requireMilestone (booking : BookingEscrowRecord) (bookingId milestoneId : String) :
    Except PartialReleaseError Milestone :=
  match KeyedList.get Milestone.milestoneId milestoneId booking.milestones with
  | some milestone => .ok milestone
  | none => .error (.milestoneNotFound bookingId milestoneId)

/-- Mutate a milestone of a booking's record. -/
def updateMilestone (bookingId milestoneId : String) (f : Milestone → Milestone)
    (bookings : Bookings) : Bookings :=
  update bookings bookingId ((bookings bookingId).map fun booking =>
    { booking with
      milestones := KeyedList.modify Milestone.milestoneId milestoneId f booking.milestones })

def authorizeMilestone (bookingId milestoneId authorizedBy : String) (bookings : Bookings) :
    Bookings × Except PartialReleaseError Unit :=
  match requireBooking bookingId bookings with
  | .error err => (bookings, .error err)
  | .ok booking =>
    match requireMilestone booking bookingId milestoneId with
    | .error err => (bookings, .error err)
    | .ok _ =>
      (updateMilestone bookingId milestoneId
        (fun milestone => { milestone with authorizedBy := some authorizedBy }) bookings, .ok ())

/-- What the record counts as released. -/
def releasedStroops (booking : BookingEscrowRecord) : ℚ :=
  ((booking.milestones.filter Milestone.released).map Milestone.amountStroops).sum

def getRemainingBalance (bookingId : String) (bookings : Bookings) : Except PartialReleaseError ℚ :=
  match requireBooking bookingId bookings with
  | .error err => .error err
  | .ok booking => .ok (booking.holdAmountStroops - releasedStroops booking)

structure ReleaseRequest where
  bookingId : String
  milestoneId : String
  deriving DecidableEq, Repr

open Result in
/-- The guards of `_doRelease`. -/
def releasableMilestone (request : ReleaseRequest) (bookings : Bookings) :
    Except PartialReleaseError Milestone := do
  let ⟨bookingId, milestoneId⟩ := request
  let booking ← requireBooking bookingId bookings
  let milestone ← requireMilestone booking bookingId milestoneId
  require (milestone.released = false) (.milestoneAlreadyReleased bookingId milestoneId)
  require (milestone.authorizedBy.getD "" ≠ "") (.milestoneNotAuthorized bookingId milestoneId)
  let remaining ← getRemainingBalance bookingId bookings
  require (milestone.amountStroops ≤ remaining)
    (.overRelease bookingId milestoneId milestone.amountStroops remaining)
  return milestone

/-- `_doRelease`, where `now` is what the clock callback returns or throws.
The milestone is marked BEFORE the clock is read. -/
def doRelease (sha256 : String → String) (now : Except String String) (request : ReleaseRequest)
    (bookings : Bookings) : Bookings × Except PartialReleaseError PartialReleaseResult :=
  match releasableMilestone request bookings with
  | .error err => (bookings, .error err)
  | .ok milestone =>
    let ⟨bookingId, milestoneId⟩ := request
    let marked := updateMilestone bookingId milestoneId
      (fun milestone => { milestone with released := true }) bookings
    match now with
    | .error thrown => (marked, .error (.clock thrown))
    | .ok releasedAt =>
      let txHash := sha256 s!"{bookingId}:{milestoneId}:release"
      let stamped := updateMilestone bookingId milestoneId
        (fun milestone => { milestone with
          releasedAt := some releasedAt, releaseTxHash := some txHash }) marked
      (stamped, (getRemainingBalance bookingId stamped).map fun newRemaining =>
        { bookingId, milestoneId
          amountReleasedStroops := milestone.amountStroops
          remainingBalanceStroops := newRemaining
          txHash })

/-- The operations that do not queue. -/
inductive Action where
  | registerBooking (bookingId : String) (holdAmountStroops : ℚ)
      (milestones : List MilestoneInput)
  | authorizeMilestone (bookingId milestoneId authorizedBy : String)

def act : Action → Bookings → Bookings
  | .registerBooking bookingId holdAmountStroops milestones, bookings =>
    (registerBooking bookingId holdAmountStroops milestones bookings).1
  | .authorizeMilestone bookingId milestoneId authorizedBy, bookings =>
    (authorizeMilestone bookingId milestoneId authorizedBy bookings).1

abbrev Outcome : Type := Except PartialReleaseError PartialReleaseResult

/-- `releasePartial` behind its `mutationQueue`, the rest beside it. -/
def service (sha256 : String → String) :
    TicketQueue.Program Bookings ReleaseRequest Action (Except String String) Outcome where
  body := doRelease sha256
  direct := act

abbrev Cmd : Type := TicketQueue.Cmd ReleaseRequest Action (Except String String)

def opened : TicketQueue.Sys Bookings ReleaseRequest Outcome := { shared := fun _ => none }

/-! ## What a release does to the record -/

variable {sha256 : String → String} {bookings : Bookings} {booking : BookingEscrowRecord}
  {milestone : Milestone} {f : Milestone → Milestone} {bookingId milestoneId : String}

/-- An update that leaves the milestone's id and amount alone. -/
structure KeepsTerms (f : Milestone → Milestone) : Prop where
  milestoneId : ∀ m, (f m).milestoneId = m.milestoneId
  amountStroops : ∀ m, (f m).amountStroops = m.amountStroops

theorem updateMilestone_of_eq (h : bookings bookingId = some booking) :
    updateMilestone bookingId milestoneId f bookings =
      update bookings bookingId (some { booking with
        milestones := KeyedList.modify Milestone.milestoneId milestoneId f booking.milestones }) := by
  simp [updateMilestone, h]

theorem releasableMilestone_eq_ok {request : ReleaseRequest}
    (h : releasableMilestone request bookings = .ok milestone) :
    ∃ booking, bookings request.bookingId = some booking ∧
      KeyedList.get Milestone.milestoneId request.milestoneId booking.milestones
        = some milestone ∧
      milestone.released = false ∧
      releasedStroops booking + milestone.amountStroops ≤ booking.holdAmountStroops := by
  simp only [releasableMilestone, Result.bind_eq_ok, Result.require_eq_ok] at h
  obtain ⟨booking, hbooking, milestone', hmilestone, _, hreleased, _, -, remaining, hremaining, _,
    hfits, hret⟩ := h
  cases hret
  unfold requireBooking at hbooking
  split at hbooking
  next found hfound =>
    cases hbooking
    unfold requireMilestone at hmilestone
    split at hmilestone
    next hget =>
      cases hmilestone
      simp only [getRemainingBalance, requireBooking, hfound, Except.ok.injEq] at hremaining
      exact ⟨booking, hfound, hget, hreleased, by linarith⟩
    · cases hmilestone
  · cases hbooking

/-- A release is refused and changes nothing; or the milestone was still
to be released and fits, and is marked, whether or not the clock throws. -/
theorem doRelease_cases (sha256 : String → String) (now : Except String String)
    (request : ReleaseRequest) (bookings : Bookings) :
    (∃ err, doRelease sha256 now request bookings = (bookings, .error err)) ∨
    ∃ milestone f, releasableMilestone request bookings = .ok milestone ∧
      KeepsTerms f ∧ (∀ m, (f m).released = true) ∧
      (doRelease sha256 now request bookings).1
        = updateMilestone request.bookingId request.milestoneId f bookings ∧
      ∀ result, (doRelease sha256 now request bookings).2 = .ok result →
        result.bookingId = request.bookingId ∧ result.milestoneId = request.milestoneId ∧
        result.amountReleasedStroops = milestone.amountStroops := by
  obtain ⟨bookingId, milestoneId⟩ := request
  unfold doRelease
  cases hguards : releasableMilestone ⟨bookingId, milestoneId⟩ bookings with
  | error err => exact .inl ⟨err, rfl⟩
  | ok milestone =>
    right
    cases now with
    | error thrown =>
      exact ⟨milestone, fun m => { m with released := true }, rfl,
        ⟨fun _ => rfl, fun _ => rfl⟩, fun _ => rfl, rfl, nofun⟩
    | ok releasedAt =>
      refine ⟨milestone, fun m => { m with
        released := true, releasedAt := some releasedAt,
        releaseTxHash := some (sha256 s!"{bookingId}:{milestoneId}:release") }, rfl,
        ⟨fun _ => rfl, fun _ => rfl⟩, fun _ => rfl, ?_, ?_⟩
      · simp [updateMilestone, comp_def, modify_modify]
      · intro result hresult
        dsimp only at hresult
        generalize getRemainingBalance _ _ = balance at hresult
        cases balance with
        | error err => cases hresult
        | ok newRemaining =>
          cases hresult
          exact ⟨rfl, rfl, rfl⟩

/-! ## What was paid, and what the records know of it -/

/-- The successful releases of a booking, in their order. -/
def paidFor (bookingId : String) (done : List (ReleaseRequest × Outcome)) :
    List PartialReleaseResult :=
  (done.filterMap fun release => release.2.toOption).filter fun result =>
    result.bookingId = bookingId

def totalPaid (paid : List PartialReleaseResult) : ℚ :=
  (paid.map PartialReleaseResult.amountReleasedStroops).sum

/-- The record has marked everything that was paid, and its marks fit. -/
structure Accounted (booking : BookingEscrowRecord) (paid : List PartialReleaseResult) :
    Prop where
  positive : ∀ m ∈ booking.milestones, 0 < m.amountStroops
  paid_le : totalPaid paid ≤ releasedStroops booking
  released_le : releasedStroops booking ≤ booking.holdAmountStroops
  marked : ∀ result ∈ paid, ∃ milestone,
    KeyedList.get Milestone.milestoneId result.milestoneId booking.milestones = some milestone ∧
      milestone.released = true
  once : (paid.map PartialReleaseResult.milestoneId).Nodup

/-- What a milestone contributes to the released amount. -/
def counted (milestone : Milestone) : ℚ :=
  if milestone.released then milestone.amountStroops else 0

/-- Only the updated milestone can count differently. -/
theorem releasedStroops_modify
    (hget : KeyedList.get Milestone.milestoneId milestoneId booking.milestones = some milestone) :
    releasedStroops { booking with
      milestones := KeyedList.modify Milestone.milestoneId milestoneId f booking.milestones }
      = releasedStroops booking + (counted (f milestone) - counted milestone) := by
  have hsum : ∀ l : List Milestone,
      ((l.filter Milestone.released).map Milestone.amountStroops).sum = (l.map counted).sum := by
    intro l
    induction l with
    | nil => rfl
    | cons m l ih =>
      cases hm : m.released with
      | false | true => simp [hm, counted, ih]
  simp only [releasedStroops, hsum]
  generalize booking.milestones = milestones at hget
  induction milestones with
  | nil => cases hget
  | cons m milestones ih =>
    rw [get_cons] at hget
    unfold KeyedList.modify
    split at hget
    · cases hget
      rw [if_pos ‹_›, map_cons, map_cons, sum_cons, sum_cons]
      linarith
    · rw [if_neg ‹_›, map_cons, map_cons, sum_cons, sum_cons, ih hget]
      linarith

variable {paid : List PartialReleaseResult}

/-- An update that takes no mark away and keeps the marks within the hold. -/
theorem Accounted.modify (h : Accounted booking paid) (hf : KeepsTerms f)
    (hkeep : ∀ m, m.released = true → (f m).released = true)
    (hget : KeyedList.get Milestone.milestoneId milestoneId booking.milestones = some milestone)
    (hfits : releasedStroops booking + (counted (f milestone) - counted milestone)
      ≤ booking.holdAmountStroops) :
    Accounted { booking with
      milestones := KeyedList.modify Milestone.milestoneId milestoneId f booking.milestones }
      paid where
  positive := forall_mem_modify (fun m hm => by rwa [hf.amountStroops]) h.positive
  paid_le := by
    have hpos : 0 < milestone.amountStroops := h.positive _ (mem_of_get hget)
    have hmore : counted milestone ≤ counted (f milestone) := by
      rw [counted, counted, hf.amountStroops]
      cases hm : milestone.released with
      | true => simp [hkeep _ hm]
      | false =>
        simp only [Bool.false_eq_true, if_false]
        split
        · exact hpos.le
        · exact le_refl _
    have := h.paid_le
    rw [releasedStroops_modify hget]
    linarith
  released_le := by
    rw [releasedStroops_modify hget]
    exact hfits
  marked result hresult := by
    obtain ⟨m, hm, hreleased⟩ := h.marked result hresult
    rw [get_modify hf.milestoneId, hm]
    split
    · exact ⟨f m, rfl, hkeep m hreleased⟩
    · exact ⟨m, rfl, hreleased⟩
  once := h.once

/-- The milestone a release has just marked is paid for once more. -/
theorem Accounted.pay {result : PartialReleaseResult} (h : Accounted booking paid)
    (hf : KeepsTerms f) (hmark : ∀ m, (f m).released = true)
    (hget : KeyedList.get Milestone.milestoneId result.milestoneId booking.milestones
      = some milestone)
    (hreleased : milestone.released = false)
    (hfits : releasedStroops booking + milestone.amountStroops ≤ booking.holdAmountStroops)
    (hamount : result.amountReleasedStroops = milestone.amountStroops) :
    Accounted { booking with
      milestones := KeyedList.modify Milestone.milestoneId result.milestoneId f
        booking.milestones } (paid ++ [result]) := by
  have hcount : counted (f milestone) - counted milestone = milestone.amountStroops := by
    simp [counted, hmark, hreleased, hf.amountStroops]
  have hmarked := h.modify hf (fun m _ => hmark m) hget (by rw [hcount]; exact hfits)
  refine ⟨hmarked.positive, ?_, hmarked.released_le, ?_, ?_⟩
  · have := h.paid_le
    rw [releasedStroops_modify hget, hcount]
    simp only [totalPaid, map_append, sum_append, map_cons, map_nil, sum_singleton, hamount]
    exact add_le_add_left this _
  · refine forall_mem_concat hmarked.marked ⟨f milestone, ?_, hmark _⟩
    rw [get_modify_self hf.milestoneId, hget]
    rfl
  · -- what was paid before is marked, this milestone was not
    refine nodup_map_concat h.once fun r hr heq => ?_
    obtain ⟨m, hget', hm⟩ := h.marked r hr
    rw [heq, hget] at hget'
    cases hget'
    rw [hreleased] at hm
    cases hm

/-- The books: every booking's record accounts for what was paid under its
id, and nothing was paid under an id without a record. -/
structure Accounts (bookings : Bookings) (done : List (ReleaseRequest × Outcome)) : Prop where
  record : ∀ bookingId booking, bookings bookingId = some booking →
    Accounted booking (paidFor bookingId done)
  unknown : ∀ bookingId, bookings bookingId = none → paidFor bookingId done = []

variable {done : List (ReleaseRequest × Outcome)} {request : ReleaseRequest}

theorem paidFor_append_error {err : PartialReleaseError} :
    paidFor bookingId (done ++ [(request, .error err)]) = paidFor bookingId done := by
  simp [paidFor, Except.toOption]

theorem paidFor_append_ok {result : PartialReleaseResult} :
    paidFor bookingId (done ++ [(request, .ok result)])
      = paidFor bookingId done ++ if result.bookingId = bookingId then [result] else [] := by
  simp only [paidFor, filterMap_append, filter_append, Except.toOption,
    filterMap_cons, filterMap_nil, filter_cons, filter_nil, decide_eq_true_eq]

/-- Replacing one record is a question about that record. -/
theorem Accounts.update {done' : List (ReleaseRequest × Outcome)} (h : Accounts bookings done)
    (hother : ∀ id, id ≠ bookingId → paidFor id done' = paidFor id done)
    (hrecord : Accounted booking (paidFor bookingId done')) :
    Accounts (update bookings bookingId (some booking)) done' := by
  constructor
  · refine (forall_update_iff _ fun id found => ∀ booking, found = some booking →
      Accounted booking (paidFor id done')).mpr ⟨?_, fun id hne => ?_⟩
    · rintro _ ⟨⟩
      exact hrecord
    · rw [hother id hne]
      exact h.record id
  · refine (forall_update_iff _ fun id found => found = none →
      paidFor id done' = []).mpr ⟨nofun, fun id hne => ?_⟩
    rw [hother id hne]
    exact h.unknown id

theorem Accounts.doRelease (h : Accounts bookings done) (now : Except String String)
    (request : ReleaseRequest) :
    Accounts (EscrowPartialRelease.doRelease sha256 now request bookings).1
      (done ++ [(request, (EscrowPartialRelease.doRelease sha256 now request bookings).2)]) := by
  obtain ⟨err, heq⟩ | ⟨milestone, f, hguards, hf, hmark, heq, hresult⟩ :=
    doRelease_cases sha256 now request bookings
  · rw [heq]
    refine ⟨fun id booking hid => ?_, fun id hid => ?_⟩
    · rw [paidFor_append_error]
      exact h.record id booking hid
    · rw [paidFor_append_error]
      exact h.unknown id hid
  · obtain ⟨booking, hbooking, hget, hreleased, hfits⟩ := releasableMilestone_eq_ok hguards
    have hbook := h.record _ _ hbooking
    rw [heq, updateMilestone_of_eq hbooking]
    cases hout : (EscrowPartialRelease.doRelease sha256 now request bookings).2 with
    | error err =>
      -- the clock threw: the mark stays, nothing is paid
      refine h.update (fun id _ => paidFor_append_error) ?_
      rw [paidFor_append_error]
      refine hbook.modify hf (fun m _ => hmark m) hget ?_
      simpa [counted, hmark, hreleased, hf.amountStroops] using hfits
    | ok result =>
      obtain ⟨hid, hmid, hamount⟩ := hresult result hout
      refine h.update (fun id hne => ?_) ?_
      · rw [paidFor_append_ok, if_neg (by rw [hid]; exact Ne.symm hne), append_nil]
      · rw [paidFor_append_ok, if_pos hid, ← hmid]
        exact hbook.pay hf hmark (by rw [hmid]; exact hget) hreleased hfits hamount

/-- An authorisation does not touch amounts and marks. -/
theorem Accounts.authorizeMilestone (h : Accounts bookings done) (authorizedBy : String) :
    Accounts (EscrowPartialRelease.authorizeMilestone bookingId milestoneId authorizedBy
      bookings).1 done := by
  unfold EscrowPartialRelease.authorizeMilestone requireBooking
  cases hbooking : bookings bookingId with
  | none => exact h
  | some booking =>
    simp only [requireMilestone]
    cases hget : KeyedList.get Milestone.milestoneId milestoneId booking.milestones with
    | none => exact h
    | some milestone =>
      rw [updateMilestone_of_eq hbooking]
      have hbook := h.record _ _ hbooking
      refine h.update (fun _ _ => rfl) (hbook.modify ⟨fun _ => rfl, fun _ => rfl⟩
        (fun _ hm => hm) hget ?_)
      simpa [counted] using hbook.released_le

/-- A record that is accepted accounts for nothing paid. -/
theorem registerBooking_cases (bookingId : String) (holdAmountStroops : ℚ)
    (milestones : List MilestoneInput) (bookings : Bookings) :
    (∃ err, registerBooking bookingId holdAmountStroops milestones bookings
      = (bookings, .error err)) ∨
    ∃ booking, Accounted booking [] ∧
      registerBooking bookingId holdAmountStroops milestones bookings
        = (update bookings bookingId (some booking), .ok booking) := by
  unfold registerBooking
  cases hbad : milestones.find? fun m => !m.amountStroops.isInt || m.amountStroops ≤ 0 with
  | some m => exact .inl ⟨_, rfl⟩
  | none =>
    have hpos : ∀ m ∈ milestones, 0 < m.amountStroops := by
      intro m hm
      have := find?_eq_none.mp hbad m hm
      simp only [Bool.or_eq_true, decide_eq_true_eq, not_or, not_le] at this
      exact this.2
    dsimp only
    split
    · exact .inl ⟨_, rfl⟩
    next hfits =>
      have hnone : releasedStroops ⟨bookingId, holdAmountStroops,
          milestones.map fun m => ⟨m.milestoneId, m.description, m.amountStroops, false, none,
            none, none⟩⟩ = 0 := by
        simp [releasedStroops, filter_map, comp_def]
      refine .inr ⟨_, ⟨?_, hnone.ge, ?_, nofun, nodup_nil⟩, rfl⟩
      · intro m hm
        obtain ⟨input, hinput, rfl⟩ := mem_map.mp hm
        exact hpos input hinput
      · rw [hnone]
        refine le_trans (sum_nonneg ?_) (not_lt.mp hfits)
        intro amount hamount
        obtain ⟨input, hinput, rfl⟩ := mem_map.mp hamount
        exact (hpos input hinput).le

/-! ## Runs -/

/-- A registration is refused, or nothing was paid under its id before. -/
def NotReplaced (bookings : Bookings) (done : List (ReleaseRequest × Outcome)) : Action → Prop
  | .registerBooking bookingId holdAmountStroops milestones =>
    Result.Ok (registerBooking bookingId holdAmountStroops milestones bookings).2 →
      paidFor bookingId done = []
  | .authorizeMilestone .. => True

instance (bookings : Bookings) (done : List (ReleaseRequest × Outcome)) (a : Action) :
    Decidable (NotReplaced bookings done a) :=
  match a with
  | .registerBooking .. => inferInstanceAs (Decidable (_ → _ = _))
  | .authorizeMilestone .. => .isTrue trivial

theorem Accounts.act {a : Action} (h : Accounts bookings done)
    (ha : NotReplaced bookings done a) : Accounts (EscrowPartialRelease.act a bookings) done := by
  cases a with
  | authorizeMilestone bookingId milestoneId authorizedBy => exact h.authorizeMilestone authorizedBy
  | registerBooking bookingId holdAmountStroops milestones =>
    simp only [EscrowPartialRelease.act]
    obtain ⟨err, heq⟩ | ⟨booking, hbook, heq⟩ :=
      registerBooking_cases bookingId holdAmountStroops milestones bookings
    · rw [heq]
      exact h
    · have hnew : paidFor bookingId done = [] := ha ⟨booking, by rw [heq]⟩
      rw [heq]
      refine h.update (fun _ _ => rfl) ?_
      rw [hnew]
      exact hbook

/-- Under every id the releases so far stay within the hold of the record,
and no milestone was paid twice. -/
def WithinHold (σ : TicketQueue.Sys Bookings ReleaseRequest Outcome) : Prop :=
  ∀ bookingId,
    (∀ booking, σ.shared bookingId = some booking →
      totalPaid (paidFor bookingId (TicketQueue.history σ)) ≤ booking.holdAmountStroops) ∧
    ((paidFor bookingId (TicketQueue.history σ)).map PartialReleaseResult.milestoneId).Nodup

theorem Accounts.withinHold {σ : TicketQueue.Sys Bookings ReleaseRequest Outcome}
    (h : Accounts σ.shared (TicketQueue.history σ)) : WithinHold σ := by
  intro bookingId
  refine ⟨fun booking hbooking => ?_, ?_⟩
  · have hbook := h.record _ _ hbooking
    exact le_trans hbook.paid_le hbook.released_le
  · cases hbooking : σ.shared bookingId with
    | none => simp [h.unknown _ hbooking]
    | some booking => exact (h.record _ _ hbooking).once

theorem accounts_opened : Accounts opened.shared [] where
  record _ _ h := by cases h
  unknown _ _ := rfl

/-- A booking of one milestone for all of its hold, authorised. -/
def register : List Cmd :=
  [.direct (.registerBooking "b-1" 100 [{ milestoneId := "m-1", amountStroops := 100 }]),
   .direct (.authorizeMilestone "b-1" "m-1" "admin")]

/-- SHA-256 on the text of its release. -/
def sampleSha256 (text : String) : String :=
  if text = "b-1:m-1:release" then
    "9f1076f28f9afb31ddff4f442f9e461fb5c95f4dbe904cf13f360040837ce3ad"
  else "#" ++ text

/-- The milestone is released by two callers at once; the second one is
looked at before its turn. -/
def releaseByTwo : List Cmd :=
  register ++ [.call ⟨"b-1", "m-1"⟩, .call ⟨"b-1", "m-1"⟩,
    .resume 1 (.ok "now"), .resume 0 (.ok "now"), .resume 1 (.ok "now")]

/-- The booking is registered again after its milestone was released, and
the milestone is released again. -/
def registerAgain : List Cmd := register ++ [.call ⟨"b-1", "m-1"⟩, .resume 0 (.ok "now")] ++
  register ++ [.call ⟨"b-1", "m-1"⟩, .resume 1 (.ok "now")]

end EscrowPartialRelease

end ChronoPay
