import ChronoPay.RecurringBookings

/-!
# RecurringSafety — interleaved recurring bookings

The engine is an instance of the lease protocol: reserving acquires the
slot's flag, the compensation gives it back, and a persisted intent
keeps it. `recurringResume_acts` is the refinement, one segment at a
time; the exclusivity of the slots follows from the library, and what is
left is that a report lists the occurrences in order.
-/

namespace ChronoPay

open Coop List Machine Option Slots

variable {expandRule : String → Except ExpandError (List Instant)} {e : RecurringEnv} {s : Store}

/-! ## What the pieces of a segment come to -/

/-- The head of the loop ends the call, fails the occurrence, or has found a
slot that starts with it. -/
theorem advance_rule {motive : RecurringTask → Prop} (e : RecurringEnv) (p : Progress) (s : Store)
    (finished : p.rest = [] → motive (.done (.ok p.report)))
    (failed : ∀ t rest reason, p.rest = t :: rest → motive (fail { p with rest } t reason))
    (found : ∀ t rest slot existing, p.rest = t :: rest → slot.startTime = t.ms →
      motive (.waiting (.ownRead { p with rest } t slot existing))) :
    motive (advance e p s) := by
  unfold advance findSlot
  cases hrest : p.rest with
  | nil => exact finished hrest
  | cons t rest =>
    dsimp only
    split
    · exact failed t rest _ hrest
    next slot hfind =>
      split
      · exact failed t rest _ hrest
      · split
        · exact failed t rest _ hrest
        · have hslot := find?_some hfind
          simp only [Bool.and_eq_true, decide_eq_true_eq] at hslot
          exact found t rest slot _ hrest hslot.1

/-- The middle of the loop fails without the slot, or goes on with it. -/
theorem reserveAndPersist_rule {motive : Store × RecurringTask → Prop} (e : RecurringEnv)
    (p : Progress) (t : Instant) (slot : SlotRecord) (s : Store)
    (failed : ∀ reason, motive (s, fail p t reason))
    (compensated : ∀ err, s.slots.flag slot.id = some true →
      motive (compensate p t slot.id err { s with slots := s.slots.setBookable slot.id false }))
    (priced : ∀ snapshots intents, s.slots.flag slot.id = some true →
      motive ({ s with slots := s.slots.setBookable slot.id false },
        .waiting (.pricing p t slot snapshots intents)))
    (persisted : ∀ snapshots, s.slots.flag slot.id = some true →
      motive (persist e p t slot snapshots none
        { s with slots := s.slots.setBookable slot.id false })) :
    motive (reserveAndPersist e p t slot s) := by
  unfold reserveAndPersist
  split
  · exact failed _
  next slots hreserve =>
    obtain ⟨⟨-, hfree⟩, rfl⟩ := reserveSlot_eq_ok.mp hreserve
    split
    · exact compensated _ hfree.flag
    · split
      · exact priced _ _ hfree.flag
      · exact persisted _ hfree.flag

variable {p : Progress} {pricing : Option PricingSnapshot} {slot : SlotRecord}
  {snapshots : PolicySnapshots} {t : Instant} {slotId : String}

theorem persist_slots : (persist e p t slot snapshots pricing s).1.slots = s.slots := by
  unfold persist
  split <;> rfl

theorem compensate_slots {err : PersistError} :
    (compensate p t slotId err s).1.slots = s.slots.setBookable slotId true := by
  simp only [compensate, releaseSlotBestEffort_eq]

/-! ## The engine as a lease protocol -/

/-- The flags and the log of the protocol. -/
def Store.board (s : Store) : Lease.Board String BookingIntentRecord where
  free slotId := s.slots.flag slotId = some true
  log := s.intents.intents

/-- What a call holds and what it has kept so far. -/
def RecurringPc.holder : RecurringPc → Lease.Holder String BookingIntentRecord
  | .start _ => ⟨none, []⟩
  | .next p => ⟨none, p.report.successes⟩
  | .ownRead p _ _ _ => ⟨none, p.report.successes⟩
  | .slotRead p _ _ _ => ⟨none, p.report.successes⟩
  | .pricing p _ slot _ _ => ⟨some slot.id, p.report.successes⟩
  | .persisted p _ intent => ⟨none, p.report.successes ++ [intent]⟩
  | .refused p _ slotId => ⟨some slotId, p.report.successes⟩

def taskHolder : RecurringTask → Lease.Holder String BookingIntentRecord
  | .waiting pc => pc.holder
  | .done (.ok report) => ⟨none, report.successes⟩
  | .done (.error _) => ⟨none, []⟩

/-- Every success reported so far, finished calls or not. -/
def successes (σ : RecurringState) : List BookingIntentRecord :=
  Lease.kept (σ.calls.map fun c => taskHolder c.task)

theorem board_setBookable {b : Bool} (h : (s.slots.findById slotId).isSome = true) :
    ({ s with slots := s.slots.setBookable slotId b } : Store).board
      = { s.board with free := Function.update s.board.free slotId b } := by
  simp only [Store.board, Lease.Board.mk.injEq, and_true]
  funext slotId'
  rw [flag_setBookable]
  by_cases hid : slotId' = slotId
  · subst hid
    obtain ⟨slot, hslot⟩ := isSome_iff_exists.mp h
    cases b <;> simp [flag, hslot]
  · simp [hid]

@[simp] theorem taskHolder_fail (p : Progress) (t : Instant) (reason : FailureReason) :
    taskHolder (fail p t reason) = ⟨none, p.report.successes⟩ := rfl

theorem taskHolder_advance (p : Progress) :
    taskHolder (advance e p s) = ⟨none, p.report.successes⟩ := by
  refine advance_rule (motive := fun task => taskHolder task = ⟨none, p.report.successes⟩) e p s
    (fun _ => rfl) ?_ ?_
  · intro t rest reason _
    rfl
  · intro t rest slot existing _ _
    rfl

/-- The compensation gives the slot back. -/
theorem compensate_acts {err : PersistError} (h : (s.slots.findById slotId).isSome = true) :
    Lease.Acts BookingIntentRecord.slotId (s.board, ⟨some slotId, p.report.successes⟩)
      ((compensate p t slotId err s).1.board, taskHolder (compensate p t slotId err s).2) := by
  simp only [compensate, releaseSlotBestEffort_eq, taskHolder_fail, board_setBookable h]
  exact .single (.release slotId)

/-- Persisting keeps the slot, or leaves it held when it is refused. -/
theorem persist_acts :
    Lease.Acts BookingIntentRecord.slotId (s.board, ⟨some slot.id, p.report.successes⟩)
      ((persist e p t slot snapshots pricing s).1.board,
        taskHolder (persist e p t slot snapshots pricing s).2) := by
  unfold persist
  cases hcreate : s.intents.create (occurrenceDraft e p slot snapshots pricing) with
  | none => exact .refl
  | some result =>
    obtain ⟨repo, intent⟩ := result
    obtain ⟨-, rfl, rfl⟩ := BookingIntents.create_eq_some.mp hcreate
    exact .single (.keep (s.intents.numbered (occurrenceDraft e p slot snapshots pricing)))

theorem reserveAndPersist_acts :
    Lease.Acts BookingIntentRecord.slotId (s.board, ⟨none, p.report.successes⟩)
      ((reserveAndPersist e p t slot s).1.board,
        taskHolder (reserveAndPersist e p t slot s).2) := by
  -- first the reservation, then whatever the rest of the segment does
  have hsome : s.slots.flag slot.id = some true → (s.slots.findById slot.id).isSome = true := by
    intro hflag
    rw [← flag_isSome, hflag]
    rfl
  have hacquire : s.slots.flag slot.id = some true →
      Lease.Acts BookingIntentRecord.slotId (s.board, ⟨none, p.report.successes⟩)
        (({ s with slots := s.slots.setBookable slot.id false } : Store).board,
          ⟨some slot.id, p.report.successes⟩) := by
    intro hflag
    rw [board_setBookable (hsome hflag)]
    exact .single (.acquire slot.id (by simp [Store.board, hflag]))
  refine reserveAndPersist_rule (motive := fun after => Lease.Acts BookingIntentRecord.slotId
    (s.board, ⟨none, p.report.successes⟩) (after.1.board, taskHolder after.2)) e p t slot s ?_ ?_ ?_ ?_
  · intro reason
    exact .refl
  · intro err hflag
    exact (hacquire hflag).trans (compensate_acts (by simpa using hsome hflag))
  · intro snapshots intents hflag
    exact hacquire hflag
  · intro snapshots hflag
    exact (hacquire hflag).trans persist_acts

/-- **Refinement**: what a segment does is a sequence of lease actions of
its own call. -/
theorem recurringResume_acts (pc : RecurringPc)
    (hheld : ∀ slotId, pc.holder.held = some slotId → (s.slots.findById slotId).isSome = true) :
    Lease.Acts BookingIntentRecord.slotId (s.board, pc.holder)
      ((recurringResume expandRule e pc s).1.board,
        taskHolder (recurringResume expandRule e pc s).2) := by
  cases pc with
  | start request =>
    simp only [recurringResume, RecurringPc.holder]
    split
    · exact .refl
    · rw [taskHolder_advance]
  | next p =>
    simp only [recurringResume, RecurringPc.holder, taskHolder_advance]
    exact .refl
  | ownRead p t slot found =>
    simp only [recurringResume, RecurringPc.holder]
    split <;> exact .refl
  | slotRead p t slot found =>
    simp only [recurringResume, RecurringPc.holder]
    split
    · exact .refl
    · exact reserveAndPersist_acts
  | pricing p t slot snapshots intents =>
    simp only [recurringResume, RecurringPc.holder]
    split
    · exact compensate_acts (hheld slot.id rfl)
    · exact persist_acts
  | persisted p t intent => exact .refl
  | refused p t slotId => exact compensate_acts (hheld slotId rfl)

theorem reserveAndPersist_reflagged :
    Reflagged s.slots (reserveAndPersist e p t slot s).1.slots := by
  have hreserved : Reflagged s.slots (s.slots.setBookable slot.id false) :=
    Reflagged.setBookable .refl slot.id false
  refine reserveAndPersist_rule (motive := fun after => Reflagged s.slots after.1.slots)
    e p t slot s (fun _ => .refl) ?_ (fun _ _ _ => hreserved) ?_
  · intro err _
    rw [compensate_slots]
    exact hreserved.setBookable slot.id true
  · intro snapshots _
    rw [persist_slots]
    exact hreserved

/-- A segment only sets flags of slots. -/
theorem recurringResume_reflagged (pc : RecurringPc) :
    Reflagged s.slots (recurringResume expandRule e pc s).1.slots := by
  cases pc with
  | start | ownRead =>
    simp only [recurringResume]
    split <;> exact .refl
  | next | persisted => exact .refl
  | slotRead p t slot found =>
    simp only [recurringResume]
    split
    · exact .refl
    · exact reserveAndPersist_reflagged
  | pricing p t slot snapshots intents =>
    simp only [recurringResume]
    split
    · rw [compensate_slots]
      exact Reflagged.setBookable .refl slot.id true
    · rw [persist_slots]
      exact .refl
  | refused p t slotId =>
    simp only [recurringResume, compensate_slots]
    exact Reflagged.setBookable .refl slotId true

/-- The invariant of every interleaving, relative to the initial store. -/
structure RecurringInv (s₀ : Store) (σ : RecurringState) : Prop where
  reflagged : Reflagged s₀.slots σ.shared.slots
  exclusive : Lease.Exclusive BookingIntentRecord.slotId s₀.board σ.shared.board
    (σ.calls.map fun c => taskHolder c.task)

theorem board_free : s.board.free slotId = true ↔ s.slots.flag slotId = some true := by
  simp [Store.board]

theorem RecurringInv.step {s₀ : Store} {σ : RecurringState} (h : RecurringInv s₀ σ)
    (k : Coop.Cmd RecurringRequest RecurringEnv) :
    RecurringInv s₀ (Coop.step (recurringEngine expandRule) σ k) := by
  rcases step_cases (p := recurringEngine expandRule) σ k with
    ⟨q, rfl, hk⟩ | ⟨i, e, q, pc, rfl, hi, -, hk⟩ | ⟨-, hk⟩
  · rw [hk]
    refine ⟨h.reflagged, ?_⟩
    rw [map_append]
    exact h.exclusive.join
  · rw [hk]
    have hholder : (σ.calls.map fun c => taskHolder c.task)[i]? = some pc.holder := by
      simp [hi, taskHolder]
    refine ⟨h.reflagged.trans (recurringResume_reflagged pc), ?_⟩
    rw [map_set]
    refine h.exclusive.acts hholder (recurringResume_acts pc fun slotId hheld => ?_)
    -- what the call holds was bookable at the start, so its row exists
    have hstart := board_free.mp (h.exclusive.held hholder hheld)
    have hpresent : (s₀.slots.findById slotId).isSome = true := by
      rw [← flag_isSome, hstart]
      rfl
    exact (h.reflagged.get_isSome slotId).trans hpresent
  · rwa [hk]

theorem RecurringInv.run (expandRule : String → Except ExpandError (List Instant)) (s₀ : Store)
    (ks : List (Coop.Cmd RecurringRequest RecurringEnv)) :
    RecurringInv s₀ (Coop.run (recurringEngine expandRule) { shared := s₀ } ks) :=
  run_inv (fun _ k h => h.step k) ⟨.refl, .start _⟩ ks

/-! ## Reports list the occurrences in order -/

def OccurrenceOutcome.intent? : OccurrenceOutcome → Option BookingIntentRecord
  | success intent => some intent
  | failure _ => none

def OccurrenceOutcome.reason? : OccurrenceOutcome → Option FailureReason
  | success _ => none
  | failure reason => some reason

/-- The report of a list of occurrences with their outcomes. -/
def reportOf (outcomes : List (Instant × OccurrenceOutcome)) : RecurringBookingReport where
  successes := outcomes.filterMap fun o => o.2.intent?
  failures := outcomes.filterMap fun o =>
    o.2.reason?.map fun reason => ⟨o.1.toISOString, reason⟩

/-- Each occurrence has exactly one outcome, in order, and a success is
an intent at the occurrence's instant. -/
structure Accounts (occurrences : List Instant) (outcomes : List (Instant × OccurrenceOutcome)) :
    Prop where
  each : outcomes.map Prod.fst = occurrences
  atInstant : ∀ o ∈ outcomes, ∀ intent ∈ o.2.intent?, intent.startTime = o.1.ms

def Reported (occurrences : List Instant) (report : RecurringBookingReport) : Prop :=
  ∃ outcomes, Accounts occurrences outcomes ∧ report = reportOf outcomes

/-- The progress accounts for the occurrences before the current ones. -/
def Progress.Follows (p : Progress) (occurrences current : List Instant) : Prop :=
  ∃ past, past ++ current ++ p.rest = occurrences ∧ Reported past p.report

theorem Progress.Follows.conclude {occurrences : List Instant} {outcome : OccurrenceOutcome}
    (h : p.Follows occurrences [t]) (hat : ∀ intent ∈ outcome.intent?, intent.startTime = t.ms) :
    Progress.Follows { p with report := p.report.push t outcome } occurrences [] := by
  obtain ⟨past, hsplit, outcomes, hacc, hreport⟩ := h
  refine ⟨past ++ [t], by simpa using hsplit, outcomes ++ [(t, outcome)], ⟨?_, ?_⟩, ?_⟩
  · simp [hacc.each]
  · exact KeyedList.forall_mem_concat hacc.atInstant hat
  · rw [hreport]
    cases outcome <;>
      simp [RecurringBookingReport.push, reportOf, OccurrenceOutcome.intent?,
        OccurrenceOutcome.reason?]

/-- What a continuation knows about the request it works on. -/
def RecurringPc.Sound (occurrences : List Instant) : RecurringPc → Prop
  | .start _ => False
  | .next p => p.Follows occurrences []
  | .ownRead p t slot _ => p.Follows occurrences [t] ∧ slot.startTime = t.ms
  | .slotRead p t slot _ => p.Follows occurrences [t] ∧ slot.startTime = t.ms
  | .pricing p t slot _ _ => p.Follows occurrences [t] ∧ slot.startTime = t.ms
  | .persisted p t intent => p.Follows occurrences [t] ∧ intent.startTime = t.ms
  | .refused p t _ => p.Follows occurrences [t]

def TaskSound (occurrences : List Instant) : RecurringTask → Prop
  | .waiting pc => pc.Sound occurrences
  | .done (.ok report) => Reported occurrences report
  | .done (.error _) => False

variable {occurrences : List Instant} {p : Progress} {t : Instant}

theorem fail_sound {reason : FailureReason} (h : p.Follows occurrences [t]) :
    TaskSound occurrences (fail p t reason) :=
  h.conclude (by simp [OccurrenceOutcome.intent?])

theorem advance_sound (h : p.Follows occurrences []) : TaskSound occurrences (advance e p s) := by
  obtain ⟨past, hsplit, hreported⟩ := h
  have hnow : ∀ t rest, p.rest = t :: rest → Progress.Follows { p with rest } occurrences [t] := by
    intro t rest hrest
    exact ⟨past, by simpa [hrest] using hsplit, hreported⟩
  refine advance_rule e p s ?_ ?_ ?_
  · intro hrest
    rw [hrest] at hsplit
    simp only [append_nil] at hsplit
    subst hsplit
    exact hreported
  · intro t rest reason hrest
    exact fail_sound (hnow t rest hrest)
  · intro t rest slot existing hrest hstart
    exact ⟨hnow t rest hrest, hstart⟩

theorem persist_sound (h : p.Follows occurrences [t]) (hslot : slot.startTime = t.ms) :
    TaskSound occurrences (persist e p t slot snapshots pricing s).2 := by
  unfold persist
  split
  · exact h
  next hcreate =>
    obtain ⟨-, rfl, -⟩ := BookingIntents.create_eq_some.mp hcreate
    exact ⟨h, hslot⟩

theorem recurringResume_sound {pc : RecurringPc} (h : pc.Sound occurrences) :
    TaskSound occurrences (recurringResume expandRule e pc s).2 := by
  cases pc with
  | start request => exact h.elim
  | next p => exact advance_sound h
  | ownRead p t slot found =>
    simp only [recurringResume]
    split
    · exact fail_sound h.1
    · exact h
  | slotRead p t slot found =>
    simp only [recurringResume]
    split
    · exact fail_sound h.1
    · exact reserveAndPersist_rule (motive := fun after => TaskSound occurrences after.2) e p t slot s
        (fun _ => fail_sound h.1) (fun _ _ => fail_sound h.1) (fun _ _ _ => h)
        (fun _ _ => persist_sound h.1 h.2)
  | pricing p t slot snapshots intents =>
    simp only [recurringResume]
    split
    · exact fail_sound h.1
    · exact persist_sound h.1 h.2
  | persisted p t intent =>
    exact h.1.conclude (by
      simp only [OccurrenceOutcome.intent?, Option.mem_def, Option.some.injEq, forall_eq']
      exact h.2)
  | refused p t slotId => exact fail_sound h

/-- A call has not started, or it is sound for what its rule expands to;
a rule that does not expand only throws. -/
def CallSound (expandRule : String → Except ExpandError (List Instant)) (q : RecurringRequest)
    (task : RecurringTask) : Prop :=
  task = .waiting (.start q) ∨
    match expand expandRule q.rrule with
    | .ok occurrences => TaskSound occurrences task
    | .error err => task = .done (.error err)

theorem CallSound.resume {q : RecurringRequest} {pc : RecurringPc}
    (h : CallSound expandRule q (.waiting pc)) :
    CallSound expandRule q (recurringResume expandRule e pc s).2 := by
  right
  rcases h with hstart | h
  · cases hstart
    simp only [recurringResume]
    cases expand expandRule q.rrule with
    | error err => rfl
    | ok occurrences => exact advance_sound ⟨[], by simp, [], ⟨rfl, by simp⟩, rfl⟩
  · cases hexpand : expand expandRule q.rrule with
    | error err => simp [hexpand] at h
    | ok occurrences =>
      rw [hexpand] at h
      exact recurringResume_sound h

/-! ## Calls end -/

/-- Every segment lowers the rank: at most six per occurrence. -/
def RecurringPc.rank (expandRule : String → Except ExpandError (List Instant)) : RecurringPc → Nat
  | .start request =>
    match expand expandRule request.rrule with
    | .ok occurrences => 6 * occurrences.length + 1
    | .error _ => 0
  | .next p => 6 * p.rest.length
  | .ownRead p _ _ _ => 6 * p.rest.length + 5
  | .slotRead p _ _ _ => 6 * p.rest.length + 4
  | .pricing p _ _ _ _ => 6 * p.rest.length + 3
  | .persisted p _ _ => 6 * p.rest.length + 2
  | .refused p _ _ => 6 * p.rest.length + 2

/-- The task waits at a continuation below the bound, or is done. -/
def Below (expandRule : String → Except ExpandError (List Instant)) (bound : Nat)
    (task : RecurringTask) : Prop :=
  ∀ pc, task = .waiting pc → pc.rank expandRule < bound

/-- A task that waits is below the bound if its continuation is. -/
theorem below_waiting {pc : RecurringPc} {bound : Nat} (h : pc.rank expandRule < bound) :
    Below expandRule bound (.waiting pc) := by
  intro pc' heq
  cases heq
  exact h

theorem below_done {bound : Nat} {result : Except RecurringBookingError RecurringBookingReport} :
    Below expandRule bound (.done result) := by
  intro pc heq
  cases heq

theorem Below.mono {bound bound' : Nat} {task : RecurringTask} (h : Below expandRule bound task)
    (hle : bound ≤ bound') : Below expandRule bound' task := by
  intro pc heq
  exact (h pc heq).trans_le hle

theorem below_fail {reason : FailureReason} {bound : Nat} (h : 6 * p.rest.length < bound) :
    Below expandRule bound (fail p t reason) := below_waiting h

theorem below_advance : Below expandRule (6 * p.rest.length) (advance e p s) := by
  refine advance_rule e p s (fun _ => below_done) ?_ ?_
  · intro t rest reason hrest
    refine below_fail ?_
    simp only [hrest, length_cons]
    omega
  · intro t rest slot existing hrest _
    refine below_waiting ?_
    simp only [RecurringPc.rank, hrest, length_cons]
    omega

theorem below_persist :
    Below expandRule (6 * p.rest.length + 3) (persist e p t slot snapshots pricing s).2 := by
  unfold persist
  split
  · exact below_waiting (by simp only [RecurringPc.rank]; omega)
  · exact below_waiting (by simp only [RecurringPc.rank]; omega)

theorem below_reserveAndPersist :
    Below expandRule (6 * p.rest.length + 4) (reserveAndPersist e p t slot s).2 := by
  refine reserveAndPersist_rule
    (motive := fun after => Below expandRule (6 * p.rest.length + 4) after.2) e p t slot s
    (fun _ => below_fail (by omega)) (fun _ _ => below_fail (by omega)) ?_ ?_
  · intro snapshots intents _
    exact below_waiting (by simp only [RecurringPc.rank]; omega)
  · intro snapshots _
    exact below_persist.mono (by omega)

theorem recurringResume_below (pc : RecurringPc) :
    Below expandRule (pc.rank expandRule) (recurringResume expandRule e pc s).2 := by
  cases pc with
  | start request =>
    simp only [recurringResume, RecurringPc.rank]
    cases expand expandRule request.rrule with
    | error err => exact below_done
    | ok occurrences => exact below_advance.mono (by dsimp only; omega)
  | next p => exact below_advance
  | ownRead p t slot found =>
    simp only [recurringResume, RecurringPc.rank]
    split
    · exact below_fail (by omega)
    · exact below_waiting (by simp only [RecurringPc.rank]; omega)
  | slotRead p t slot found =>
    simp only [recurringResume, RecurringPc.rank]
    split
    · exact below_fail (by omega)
    · exact below_reserveAndPersist
  | pricing p t slot snapshots intents =>
    simp only [recurringResume, RecurringPc.rank]
    split
    · exact below_fail (by omega)
    · exact below_persist
  | persisted p t intent => exact below_waiting (by simp only [RecurringPc.rank]; omega)
  | refused p t slotId => exact below_fail (by simp only [RecurringPc.rank]; omega)

/-! ## The main result -/

/-- What holds in every state of every interleaving, relative to the
store the calls started from. -/
structure RecurringSafe (expandRule : String → Except ExpandError (List Instant)) (s₀ : Store)
    (σ : RecurringState) : Prop where
  /-- A finished call reports every occurrence once, in order. -/
  reported : ∀ c ∈ σ.calls, ∀ report, c.task = .done (.ok report) →
    ∃ occurrences, expand expandRule c.request.rrule = .ok occurrences ∧ Reported occurrences report
  /-- No two successes own the same slot, across all calls. -/
  distinct : ((successes σ).map BookingIntentRecord.slotId).Nodup
  /-- The slot of a success was bookable and is not bookable any more. -/
  owned : ∀ intent ∈ successes σ, s₀.slots.flag intent.slotId = some true ∧
    σ.shared.slots.flag intent.slotId = some false
  /-- The new intents are the successes. -/
  persisted : ∃ created, σ.shared.intents.intents = s₀.intents.intents ++ created ∧
    created.Perm (successes σ)
  /-- When all calls are finished, every other slot is as it was. -/
  restored : (∀ c ∈ σ.calls, ∃ result, c.task = .done result) →
    ∀ slotId, (∀ intent ∈ successes σ, intent.slotId ≠ slotId) →
      σ.shared.slots.flag slotId = s₀.slots.flag slotId
  /-- Every call comes to an end once it is resumed often enough. -/
  ends : ∀ (i : Nat) c, σ.calls[i]? = some c → ∃ n, ∀ es : List RecurringEnv, n ≤ es.length →
    ∃ result, (Coop.run (recurringEngine expandRule) σ (es.map (.resume i))).calls[i]?
      = some ⟨c.request, .done result⟩

/-- A flag is determined by whether it is free and whether its slot exists. -/
theorem flag_eq_of_free {s₀ s : Store} (hre : Reflagged s₀.slots s.slots)
    (hfree : s.board.free slotId = s₀.board.free slotId) :
    s.slots.flag slotId = s₀.slots.flag slotId := by
  have hsome : (s.slots.flag slotId).isSome = (s₀.slots.flag slotId).isSome := by
    rw [flag_isSome, flag_isSome]
    exact hre.get_isSome slotId
  simp only [Store.board, decide_eq_decide] at hfree
  cases hflag : s.slots.flag slotId with
  | none =>
    rw [hflag, isSome_none, eq_comm, isSome_eq_false_iff, isNone_iff_eq_none]
      at hsome
    exact hsome.symm
  | some b =>
    cases hflag₀ : s₀.slots.flag slotId with
    | none => simp [hflag, hflag₀] at hsome
    | some b₀ => cases b <;> cases b₀ <;> simp [hflag, hflag₀] at hfree ⊢

/-- **Recurring bookings do not interfere**: in every interleaving of any
number of calls, over any inventory and any expander. -/
theorem recurring_bookings_safe (expandRule : String → Except ExpandError (List Instant))
    (s₀ : Store) (ks : List (Coop.Cmd RecurringRequest RecurringEnv)) :
    RecurringSafe expandRule s₀
      (Coop.run (recurringEngine expandRule) { shared := s₀ } ks) := by
  have hinv := RecurringInv.run expandRule s₀ ks
  have hcalls := run_inv (I := Each fun _ => CallSound expandRule)
    (fun σ k (h : Each _ σ) => h.step (p := recurringEngine expandRule) (k := k)
      (fun _ => .inl rfl) (fun _ _ _ _ h => h.resume) fun _ _ _ _ _ h => h)
    (s := { shared := s₀ }) (forall_mem_nil _) ks
  refine ⟨?_, hinv.exclusive.kept_nodup, ?_, hinv.exclusive.log, ?_, ?_⟩
  · intro c hc report hdone
    rcases hcalls c hc with hstart | hsound
    · rw [hdone] at hstart
      cases hstart
    · rw [hdone] at hsound
      cases hexpand : expand expandRule c.request.rrule with
      | error err => simp [hexpand] at hsound
      | ok occurrences =>
        rw [hexpand] at hsound
        exact ⟨occurrences, rfl, hsound⟩
  · intro intent hintent
    obtain ⟨hstart, htaken⟩ := hinv.exclusive.kept_taken hintent
    have hflag := board_free.mp hstart
    refine ⟨hflag, ?_⟩
    have hsome : (flag _ intent.slotId).isSome = true :=
      (flag_isSome.trans (hinv.reflagged.get_isSome intent.slotId)).trans
        (flag_isSome.symm.trans (by rw [hflag]; rfl))
    obtain ⟨b, hb⟩ := isSome_iff_exists.mp hsome
    cases b with
    | false => exact hb
    | true => simp [Store.board, hb] at htaken
  · intro hdone slotId hnone
    refine flag_eq_of_free hinv.reflagged (hinv.exclusive.settled ?_ hnone)
    intro h hh
    obtain ⟨c, hc, rfl⟩ := List.mem_map.mp hh
    obtain ⟨result, hresult⟩ := hdone c hc
    rw [hresult]
    cases result <;> rfl
  · intro i c hi
    exact ⟨_, fun es hes => resumed_done
      (fun _ pc _ pc' hpc => recurringResume_below pc pc' hpc) hi es hes⟩

end ChronoPay
