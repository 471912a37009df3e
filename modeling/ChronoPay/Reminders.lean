import Mathlib.Data.List.Sort
import ChronoPay.Lib.CoopTotal
import ChronoPay.Lib.KeyedList

/-!
# Reminders — workers that claim, deliver and retry

`processReminders` goes over the reminders that are due. For each it sets
a key in Redis, unless the key is there already; the worker that set it
delivers the reminder and marks it sent, or counts a failed attempt. The
key stays for 25 hours whatever comes of the delivery.

So the key does two things. It keeps others from delivering a reminder
again: as long as no worker comes back to a reminder that is delivered,
or being delivered, when the key of that delivery has run out (`Late`),
every reminder is delivered at most once. And it keeps everybody from
trying again: a pass calls `deliverReminder` for a pending reminder
exactly if the key of the last attempt has run out (`Retried`).

A call runs from one answer of Redis, the database or `deliverReminder`
to the next; each of them may reject, without effect. Any number of calls
is under way, and one that is never resumed again is a worker that died.
-/

namespace ChronoPay.Reminders

open Coop KeyedList List Machine Option

/-! ## The table -/

inductive ReminderStatus where
  | pending
  | sent
  | failed
  deriving DecidableEq, Repr

structure Reminder where
  id : String
  slotId : Nat
  triggerAt : Int
  status : ReminderStatus := .pending
  attempts : Nat := 0
  lastAttemptAt : Option Int := none
  sentAt : Option Int := none
  createdAt : Int
  updatedAt : Int
  deriving DecidableEq

/-- `ORDER BY trigger_at ASC, created_at ASC` -/
def Earlier (r r' : Reminder) : Prop :=
  r.triggerAt < r'.triggerAt ∨ r.triggerAt = r'.triggerAt ∧ r.createdAt ≤ r'.createdAt

instance : DecidableRel Earlier := fun _ _ => inferInstanceAs (Decidable (_ ∨ _))

def getDueReminders (rows : List Reminder) (now : Int) (limit : Nat := 100) : List Reminder :=
  ((rows.filter fun r => r.status = .pending ∧ r.triggerAt ≤ now).insertionSort Earlier).take limit

def markSent (id : String) (sentAt : Int) (rows : List Reminder) : List Reminder :=
  KeyedList.modify Reminder.id id
    (fun r => { r with status := .sent, sentAt := some sentAt, updatedAt := sentAt }) rows

def recordAttempt (id : String) (attemptedAt : Int) (rows : List Reminder) : List Reminder :=
  KeyedList.modify Reminder.id id
    (fun r => { r with
      attempts := r.attempts + 1, lastAttemptAt := some attemptedAt, updatedAt := attemptedAt })
    rows

def markFailed (id : String) (failedAt : Int) (rows : List Reminder) : List Reminder :=
  KeyedList.modify Reminder.id id
    (fun r => { r with status := .failed, lastAttemptAt := some failedAt, updatedAt := failedAt })
    rows

/-! ## Redis -/

def dedupTtlSeconds : Nat := 25 * 60 * 60

def dedupKey (reminderId : String) (triggerAt : Int) : String :=
  "reminder:dedup:" ++ reminderId ++ ":" ++ toString triggerAt

/-- The table, the keys in Redis with the time they run out, and the
deliveries that resolved, each with the time it was claimed. -/
structure World where
  rows : List Reminder
  keys : List (String × Int) := []
  /-- The time at Redis, in ms. -/
  clock : Int := 0
  delivered : List (Reminder × Int) := []

namespace World

/-- The key is there. -/
def live (w : World) (key : String) : Bool :=
  (KeyedList.get Prod.fst key w.keys).any fun entry => w.clock < entry.2

/-- `SET key "1" EX ttl NX`, where the key is not there. -/
def setKey (w : World) (key : String) : World :=
  { w with keys := KeyedList.put Prod.fst (key, w.clock + dedupTtlSeconds * 1000) w.keys }

def elapse (w : World) (ms : Nat) : World := { w with clock := w.clock + ms }

end World

/-! ## A pass -/

structure Pass where
  now : Int
  maxRetries : Nat := 3
  /-- `options.reminders`: what the worker loop has fetched already. -/
  reminders : Option (List Reminder) := none
  deriving DecidableEq

/-- The answer a segment starts with: it took so long, and it may be that
the operation the call waited for rejected. -/
structure Env where
  elapsed : Nat := 0
  rejects : Bool := false

inductive Pc where
  | start (pass : Pass)
  /-- At `claimDelivery`, with the reminders behind this one. -/
  | claiming (pass : Pass) (reminder : Reminder) (rest : List Reminder)
  /-- At `deliverReminder`. -/
  | delivering (pass : Pass) (reminder : Reminder) (rest : List Reminder) (claimedAt : Int)
  /-- At `markSent`. -/
  | marking (pass : Pass) (reminder : Reminder) (rest : List Reminder)
  /-- At `recordAttempt`. -/
  | recording (pass : Pass) (reminder : Reminder) (rest : List Reminder)
  /-- At `markFailed`. -/
  | failing (pass : Pass) (reminder : Reminder) (rest : List Reminder)
  deriving DecidableEq

inductive Outcome where
  | resolved
  | rejected
  deriving DecidableEq

abbrev Task := Coop.Task Pc Outcome

/-- The head of the loop. -/
def next (pass : Pass) : List Reminder → Task
  | [] => .done .resolved
  | reminder :: rest => .waiting (.claiming pass reminder rest)

/-- One operation, and the way to the next. -/
def resumeAt (e : Env) : Pc → World → World × Task
  | .start pass, w =>
    match pass.reminders with
    | some reminders => (w, next pass reminders)
    | none =>
      if e.rejects then (w, .done .rejected)
      else (w, next pass (getDueReminders w.rows pass.now))
  | .claiming pass reminder rest, w =>
    let key := dedupKey reminder.id reminder.triggerAt
    if e.rejects then (w, .done .rejected)
    else if w.live key then (w, next pass rest)
    else (w.setKey key, .waiting (.delivering pass reminder rest w.clock))
  | .delivering pass reminder rest claimedAt, w =>
    if e.rejects then (w, .waiting (.recording pass reminder rest))
    else ({ w with delivered := w.delivered ++ [(reminder, claimedAt)] },
      .waiting (.marking pass reminder rest))
  | .marking pass reminder rest, w =>
    if e.rejects then (w, .waiting (.recording pass reminder rest))
    else ({ w with rows := markSent reminder.id pass.now w.rows }, next pass rest)
  | .recording pass reminder rest, w =>
    if e.rejects then (w, .done .rejected)
    else
      let w := { w with rows := recordAttempt reminder.id pass.now w.rows }
      let updated := KeyedList.get Reminder.id reminder.id w.rows
      let attempts := (updated.map Reminder.attempts).getD (reminder.attempts + 1)
      if attempts ≥ pass.maxRetries then (w, .waiting (.failing pass reminder rest))
      else (w, next pass rest)
  | .failing pass reminder rest, w =>
    if e.rejects then (w, .done .rejected)
    else ({ w with rows := markFailed reminder.id pass.now w.rows }, next pass rest)

/-- `processReminders`, one operation at a time. -/
def resume (e : Env) (pc : Pc) (w : World) : World × Task := resumeAt e pc (w.elapse e.elapsed)

def processReminders : Program Pass Env World Pc Outcome where
  start := .start
  resume := resume

abbrev State := Sys Pass World Pc Outcome

abbrev Cmd := Coop.Cmd Pass Env

/-- Nobody works yet; keys may be left from before. -/
def opened (rows : List Reminder) (keys : List (String × Int)) : State :=
  { shared := { rows, keys } }

/-! ## What a segment does -/

variable {w : World} {e : Env} {pc : Pc} {σ : State} {k : Cmd}

/-- The reminders a pass has still to do with. -/
def Pc.reminders : Pc → List Reminder
  | .start pass => pass.reminders.getD []
  | .claiming _ reminder rest => reminder :: rest
  | .delivering _ reminder rest _ => reminder :: rest
  | .marking _ reminder rest => reminder :: rest
  | .recording _ reminder rest => reminder :: rest
  | .failing _ reminder rest => reminder :: rest

def remindersOf : Task → List Reminder
  | .waiting pc => pc.reminders
  | .done _ => []

/-- The reminder whose delivery is under way, with the time it was
claimed. -/
def delivery : Task → Option (Reminder × Int)
  | .waiting (.delivering _ reminder _ claimedAt) => some (reminder, claimedAt)
  | _ => none

theorem delivery_next (pass : Pass) (reminders : List Reminder) :
    delivery (next pass reminders) = none := by
  cases reminders <;> rfl

variable {r : Reminder} {rest : List Reminder} {d : Reminder × Int}

/-- Every row is one of those before, as far as id and time go. -/
def SameTimes (rows rows' : List Reminder) : Prop :=
  ∀ r' ∈ rows', ∃ r ∈ rows, r.id = r'.id ∧ r.triggerAt = r'.triggerAt

theorem SameTimes.refl (rows : List Reminder) : SameTimes rows rows := fun r hr => ⟨r, hr, rfl, rfl⟩

theorem sameTimes_modify {rows : List Reminder} {id : String} {f : Reminder → Reminder}
    (hf : ∀ r, (f r).id = r.id ∧ (f r).triggerAt = r.triggerAt) :
    SameTimes rows (KeyedList.modify Reminder.id id f rows) := by
  refine forall_mem_modify (fun r' hr' => ?_) (SameTimes.refl rows)
  obtain ⟨r, hr, hid, htrigger⟩ := hr'
  exact ⟨r, hr, hid.trans (hf r').1.symm, htrigger.trans (hf r').2.symm⟩

/-- **What a segment can do.** To the keys and the deliveries: set a key
that is not there and call `deliverReminder`; see a delivery resolve; or
nothing. The updates leave a reminder its id and its time, and a pass goes
on with what it has or has fetched. -/
structure Segment (e : Env) (pc : Pc) (w : World) (after : World × Task) : Prop where
  rows : SameTimes w.rows after.1.rows
  reminders : ∀ r ∈ remindersOf after.2, r ∈ pc.reminders ∨ r ∈ w.rows
  effect :
    (∃ pass r rest, pc = .claiming pass r rest ∧
      (w.elapse e.elapsed).live (dedupKey r.id r.triggerAt) = false ∧
      after = ((w.elapse e.elapsed).setKey (dedupKey r.id r.triggerAt),
        .waiting (.delivering pass r rest (w.clock + e.elapsed)))) ∨
    (∃ pass r rest claimedAt, pc = .delivering pass r rest claimedAt ∧
      after = ({ w.elapse e.elapsed with delivered := w.delivered ++ [(r, claimedAt)] },
        .waiting (.marking pass r rest))) ∨
    (after.1.keys = w.keys ∧ after.1.delivered = w.delivered ∧ delivery after.2 = none)

/-- The segment ends the pass. -/
theorem segment_done (rows : List Reminder) (hrows : SameTimes w.rows rows) (outcome : Outcome) :
    Segment e pc w ({ w.elapse e.elapsed with rows := rows }, .done outcome) :=
  ⟨hrows, forall_mem_nil _, .inr (.inr ⟨rfl, rfl, rfl⟩)⟩

/-- It goes on with the next reminder. -/
theorem segment_next (rows : List Reminder) (hrows : SameTimes w.rows rows) (pass : Pass)
    (hrest : ∀ r ∈ rest, r ∈ pc.reminders ∨ r ∈ w.rows) :
    Segment e pc w ({ w.elapse e.elapsed with rows := rows }, next pass rest) := by
  refine ⟨hrows, fun r hr => ?_, .inr (.inr ⟨rfl, rfl, delivery_next _ _⟩)⟩
  cases rest <;> exact hrest r hr

/-- It stays with its reminder. -/
theorem segment_waiting (rows : List Reminder) (hrows : SameTimes w.rows rows) {pc' : Pc}
    (hpc' : pc'.reminders = pc.reminders) (hdelivery : delivery (.waiting pc') = none) :
    Segment e pc w ({ w.elapse e.elapsed with rows := rows }, .waiting pc') :=
  ⟨hrows, fun _ h => .inl (hpc' ▸ h), .inr (.inr ⟨rfl, rfl, hdelivery⟩)⟩

theorem resume_segment (e : Env) (pc : Pc) (w : World) : Segment e pc w (resume e pc w) := by
  have hsame := SameTimes.refl w.rows
  have htail : ∀ {r : Reminder} {rest : List Reminder}, ∀ r' ∈ rest, r' ∈ r :: rest ∨ r' ∈ w.rows :=
    fun r' hr' => .inl (mem_cons_of_mem _ hr')
  cases pc with
  | start pass =>
    rw [resume, resumeAt]
    split
    next reminders hgiven =>
      refine segment_next w.rows hsame pass fun r hr => .inl ?_
      rw [Pc.reminders, hgiven]
      exact hr
    · split
      · exact segment_done w.rows hsame _
      · refine segment_next w.rows hsame pass fun r hr => .inr ?_
        have hsorted := (take_subset _ _) hr
        exact (mem_filter.mp ((perm_insertionSort _ _).subset hsorted)).1
  | claiming pass r rest =>
    rw [resume, resumeAt]
    split
    · exact segment_done w.rows hsame _
    · split
      · exact segment_next w.rows hsame pass htail
      next hdead =>
        exact ⟨hsame, fun _ h => .inl h, .inl ⟨pass, r, rest, rfl, Bool.not_eq_true _ ▸ hdead, rfl⟩⟩
  | delivering pass r rest claimedAt =>
    rw [resume, resumeAt]
    split
    · exact segment_waiting w.rows hsame rfl rfl
    · exact ⟨hsame, fun _ h => .inl h, .inr (.inl ⟨pass, r, rest, claimedAt, rfl, rfl⟩)⟩
  | marking pass r rest =>
    rw [resume, resumeAt]
    have hmarked : SameTimes w.rows (markSent r.id pass.now w.rows) :=
      sameTimes_modify fun _ => ⟨rfl, rfl⟩
    split
    · exact segment_waiting w.rows hsame rfl rfl
    · exact segment_next _ hmarked pass htail
  | recording pass r rest =>
    rw [resume, resumeAt]
    have hrecorded : SameTimes w.rows (recordAttempt r.id pass.now w.rows) :=
      sameTimes_modify fun _ => ⟨rfl, rfl⟩
    split
    · exact segment_done w.rows hsame _
    · dsimp only
      split
      · exact segment_waiting _ hrecorded rfl rfl
      · exact segment_next _ hrecorded pass htail
  | failing pass r rest =>
    rw [resume, resumeAt]
    have hfailed : SameTimes w.rows (markFailed r.id pass.now w.rows) :=
      sameTimes_modify fun _ => ⟨rfl, rfl⟩
    split
    · exact segment_done w.rows hsame _
    · exact segment_next _ hfailed pass htail

/-! ## Keys -/

/-- The key of the delivery stays for its 25 hours at least. -/
def Covered (w : World) (d : Reminder × Int) : Prop :=
  ∃ entry, KeyedList.get Prod.fst (dedupKey d.1.id d.1.triggerAt) w.keys = some entry ∧
    d.2 + dedupTtlSeconds * 1000 ≤ entry.2

/-- It is there until then. -/
theorem Covered.live (h : Covered w d) (hearly : w.clock < d.2 + dedupTtlSeconds * 1000) :
    w.live (dedupKey d.1.id d.1.triggerAt) = true := by
  obtain ⟨entry, hentry, hstays⟩ := h
  rw [World.live, hentry, any_some, decide_eq_true_eq]
  omega

/-- A key is only set where it has run out. -/
theorem Covered.setKey (h : Covered w d) {key : String} (hdead : w.live key = false) :
    Covered (w.setKey key) d := by
  obtain ⟨entry, hentry, hstays⟩ := h
  rw [Covered, World.setKey, get_put]
  by_cases hkey : key = dedupKey d.1.id d.1.triggerAt
  · subst hkey
    rw [World.live, hentry, any_some, decide_eq_false_iff_not] at hdead
    refine ⟨_, if_pos rfl, ?_⟩
    omega
  · exact ⟨entry, (if_neg hkey).trans hentry, hstays⟩

/-- No segment takes a delivery its key. -/
theorem Covered.resume (h : Covered w d) (e : Env) (pc : Pc) :
    Covered (Reminders.resume e pc w).1 d := by
  rcases (resume_segment e pc w).effect with
    ⟨pass, r, rest, rfl, hdead, hresume⟩ | ⟨pass, r, rest, claimedAt, rfl, hresume⟩ |
    ⟨hkeys, -, -⟩
  · rw [hresume]
    exact Covered.setKey (w := w.elapse e.elapsed) h hdead
  · rw [hresume]
    exact h
  · rw [Covered, hkeys]
    exact h

/-! ## At most once -/

/-- A list given to a pass holds reminders of the table, as an earlier
query has found them. -/
def Listed (σ : State) : Cmd → Prop
  | .call pass => ∀ r ∈ pass.reminders.getD [],
      ∃ row ∈ σ.shared.rows, row.id = r.id ∧ row.triggerAt = r.triggerAt
  | .resume _ _ => True

instance (σ : State) : (k : Cmd) → Decidable (Listed σ k)
  | .call _ => inferInstanceAs (Decidable (∀ r ∈ _, ∃ row ∈ _, _ ∧ _))
  | .resume _ _ => .isTrue trivial

/-- What has been delivered and what is being delivered, with the time it
was claimed. -/
def deliveries (σ : State) : List (Reminder × Int) :=
  σ.shared.delivered ++ σ.calls.filterMap fun c => delivery c.task

/-- A worker comes to a reminder that is delivered or being delivered when
the key of that delivery has run out. -/
def Late (σ : State) (k : Cmd) : Prop :=
  match resumed σ k with
  | some (e, .claiming _ r _) =>
    ∃ d ∈ deliveries σ, d.1.id = r.id ∧ d.2 + dedupTtlSeconds * 1000 ≤ σ.shared.clock + e.elapsed
  | _ => False

instance (σ : State) (k : Cmd) : Decidable (Late σ k) := by
  unfold Late
  exact match resumed σ k with
    | some (_, .claiming _ _ _) => inferInstanceAs (Decidable (∃ d ∈ _, _ ∧ _))
    | some (_, .start _) | some (_, .delivering _ _ _ _) | some (_, .marking _ _ _)
    | some (_, .recording _ _ _) | some (_, .failing _ _ _) | none => .isFalse not_false

/-- The deliveries of a reminder, made or under way. -/
def count (id : String) (σ : State) : Nat := (deliveries σ).countP fun d => d.1.id = id

/-- What every state of a run knows. -/
structure Inv (trigger : String → Int) (σ : State) : Prop where
  rows : ∀ r ∈ σ.shared.rows, r.triggerAt = trigger r.id
  held : Held (fun _ pc => ∀ r ∈ pc.reminders, r.triggerAt = trigger r.id) σ
  timed : ∀ d ∈ deliveries σ, d.1.triggerAt = trigger d.1.id
  covered : ∀ d ∈ deliveries σ, Covered σ.shared d
  once : ∀ id, count id σ ≤ 1

/-- How one command changes the deliveries: one is added where a key was
not there, or none. -/
theorem deliveries_step (σ : State) (k : Cmd) :
    (∃ e pass r rest, resumed σ k = some (e, .claiming pass r rest) ∧
      (σ.shared.elapse e.elapsed).live (dedupKey r.id r.triggerAt) = false ∧
      Covered (step processReminders σ k).shared (r, σ.shared.clock + e.elapsed) ∧
      (deliveries (step processReminders σ k)).Perm
        ((r, σ.shared.clock + e.elapsed) :: deliveries σ)) ∨
    (deliveries (step processReminders σ k)).Subperm (deliveries σ) := by
  have hcalls := filterMap_step_perm (p := processReminders) (f := delivery)
    (fun _ => rfl) σ k
  unfold deliveries
  rw [step_shared]
  cases hk : resumed σ k with
  | none =>
    rw [hk] at hcalls
    rw [hcalls]
    exact .inr (List.Subperm.refl _)
  | some segment =>
    obtain ⟨e, pc⟩ := segment
    rw [hk] at hcalls
    dsimp only [processReminders] at hcalls ⊢
    rcases (resume_segment e pc σ.shared).effect with
      ⟨pass, r, rest, rfl, hdead, hresume⟩ | ⟨pass, r, rest, claimedAt, rfl, hresume⟩ |
      ⟨-, hdelivered, hnone⟩
    · rw [hresume] at hcalls ⊢
      refine .inl ⟨e, pass, r, rest, rfl, hdead, ?_, (hcalls.append_left _).trans perm_middle⟩
      rw [Covered, World.setKey, get_put]
      exact ⟨_, if_pos rfl, Int.le_refl _⟩
    · rw [hresume] at hcalls ⊢
      refine .inr (List.Perm.subperm ?_)
      rw [append_assoc]
      exact hcalls.append_left _
    · rw [hdelivered]
      rw [hnone, toList_none, nil_append] at hcalls
      refine .inr ((subperm_append_left _).mpr ?_)
      exact (sublist_append_right _ _).subperm.trans hcalls.subperm

variable {trigger : String → Int}

theorem Inv.step_held (h : Inv trigger σ) (hlisted : Listed σ k) :
    Held (fun _ pc => ∀ r ∈ pc.reminders, r.triggerAt = trigger r.id)
      (step processReminders σ k) := by
  refine h.held.step_others ?_ ?_ ?_
  · rintro pass rfl r hr
    obtain ⟨row, hrow, hid, htrigger⟩ := hlisted r hr
    rw [← hid, ← htrigger]
    exact h.rows row hrow
  · intro e pc pc' _ hpc hnext r hr
    have hmem : r ∈ remindersOf (resume e pc σ.shared).2 := by
      rw [show (resume e pc σ.shared).2 = _ from hnext]
      exact hr
    rcases (resume_segment e pc σ.shared).reminders r hmem with hold | hrow
    · exact hpc r hold
    · exact h.rows r hrow
  · intro i e q pc j q' pc' _ _ _ _ _ hpc'
    exact hpc'

/-- A delivery that is not late finds its key. -/
theorem Inv.live_of_not_late (h : Inv trigger σ) (hlate : ¬ Late σ k) {e : Env} {pass : Pass}
    (hk : resumed σ k = some (e, .claiming pass r rest)) (hd : d ∈ deliveries σ)
    (hid : d.1.id = r.id) :
    (σ.shared.elapse e.elapsed).live (dedupKey r.id r.triggerAt) = true := by
  have hr : r.triggerAt = trigger r.id := h.held.at_resumed hk r mem_cons_self
  have hkey : dedupKey r.id r.triggerAt = dedupKey d.1.id d.1.triggerAt := by
    rw [hr, h.timed d hd, hid]
  rw [Late, hk] at hlate
  rw [hkey]
  refine Covered.live (w := σ.shared.elapse e.elapsed) (h.covered d hd) ?_
  exact Int.not_le.mp fun hle => hlate ⟨d, hd, hid, hle⟩

theorem Inv.step (h : Inv trigger σ) (hlisted : Listed σ k) (hlate : ¬ Late σ k) :
    Inv trigger (step processReminders σ k) := by
  have hrows : ∀ r ∈ (Coop.step processReminders σ k).shared.rows, r.triggerAt = trigger r.id :=
    shared_step (I := fun w : World => ∀ r ∈ w.rows, r.triggerAt = trigger r.id) h.rows
      fun e pc _ r' hr' => by
        obtain ⟨r, hr, hid, htrigger⟩ := (resume_segment e pc σ.shared).rows r' hr'
        rw [← htrigger, ← hid]
        exact h.rows r hr
  have hcovered : ∀ d ∈ deliveries σ, Covered (Coop.step processReminders σ k).shared d :=
    fun d hd => shared_step (I := fun w => Covered w d) (h.covered d hd)
      fun e pc _ => (h.covered d hd).resume e pc
  rcases deliveries_step σ k with ⟨e, pass, r, rest, hk, hdead, hnew, hperm⟩ | hsub
  · have hmem : ∀ d ∈ deliveries (Coop.step processReminders σ k),
        d = (r, σ.shared.clock + e.elapsed) ∨ d ∈ deliveries σ :=
      fun d hd => mem_cons.mp (hperm.subset hd)
    refine ⟨hrows, h.step_held hlisted, ?_, ?_, ?_⟩
    · intro d hd
      rcases hmem d hd with rfl | hold
      · exact h.held.at_resumed hk r mem_cons_self
      · exact h.timed d hold
    · intro d hd
      rcases hmem d hd with rfl | hold
      · exact hnew
      · exact hcovered d hold
    · intro id
      rw [count, hperm.countP_eq, countP_cons]
      by_cases hid : r.id = id
      · -- no delivery of it is made or under way: its key would be there
        have hzero : (deliveries σ).countP (fun d => d.1.id = id) = 0 := by
          rw [countP_eq_zero]
          intro d hd hdid
          have hlive := h.live_of_not_late hlate hk hd ((of_decide_eq_true hdid).trans hid.symm)
          rw [hdead] at hlive
          cases hlive
        simp [hzero, hid]
      · have hone := h.once id
        simp only [hid, decide_false, Bool.false_eq_true, if_false, Nat.add_zero]
        exact hone
  · refine ⟨hrows, h.step_held hlisted, ?_, ?_, ?_⟩
    · exact fun d hd => h.timed d (hsub.subset hd)
    · exact fun d hd => hcovered d (hsub.subset hd)
    · exact fun id => (hsub.countP_le _).trans (h.once id)

/-! ## Calls of `deliverReminder` -/

/-- The reminder a worker is at, from the claim until the outcome is
recorded. -/
def Pc.working : Pc → Option String
  | .delivering _ reminder _ _ => some reminder.id
  | .marking _ reminder _ => some reminder.id
  | .recording _ reminder _ => some reminder.id
  | .failing _ reminder _ => some reminder.id
  | _ => none

/-- The pass has come to a reminder that is due and pending, that no
worker is at and that has attempts left. -/
def Eligible (σ : State) (pass : Pass) (r : Reminder) : Prop :=
  (KeyedList.get Reminder.id r.id σ.shared.rows).any (fun row =>
    row.status = .pending ∧ row.triggerAt ≤ pass.now ∧ row.attempts < pass.maxRetries) = true ∧
  Free Pc.working r.id σ

instance (σ : State) (pass : Pass) (r : Reminder) : Decidable (Eligible σ pass r) :=
  inferInstanceAs (Decidable (_ ∧ _))

/-- The reminder for which Redis answers a pass. -/
def answered (σ : State) (k : Cmd) : Option (Env × Pass × Reminder × List Reminder) :=
  match resumed σ k with
  | some (e, .claiming pass r rest) => if e.rejects then none else some (e, pass, r, rest)
  | _ => none

/-- The call that a command resumes, after it. -/
def taskAfter (σ : State) : Cmd → Option Task
  | .call _ => none
  | .resume i e => ((step processReminders σ (.resume i e)).calls[i]?).map Call.task

/-- A pass that has come to an eligible reminder calls `deliverReminder`. -/
def Retried (σ : State) (k : Cmd) : Prop :=
  match answered σ k with
  | some (_, pass, r, rest) => Eligible σ pass r →
      ∃ claimedAt, taskAfter σ k = some (.waiting (.delivering pass r rest claimedAt))
  | none => True

/-- The key of an eligible reminder has run out when a pass comes to it. -/
def Unblocked (σ : State) (k : Cmd) : Prop :=
  match answered σ k with
  | some (e, pass, r, _) => Eligible σ pass r →
      (σ.shared.elapse e.elapsed).live (dedupKey r.id r.triggerAt) = false
  | none => True

instance (σ : State) (k : Cmd) : Decidable (Unblocked σ k) := by
  unfold Unblocked
  exact match answered σ k with
    | some (_, _, _, _) => inferInstanceAs (Decidable (_ → _))
    | none => .isTrue trivial

theorem answered_eq_some {e : Env} {pass : Pass} (h : answered σ k = some (e, pass, r, rest)) :
    e.rejects = false ∧ ∃ i q, k = .resume i e ∧
      σ.calls[i]? = some ⟨q, .waiting (.claiming pass r rest)⟩ := by
  unfold answered at h
  split at h
  next hk =>
    split at h
    · cases h
    next hrejects =>
      obtain ⟨rfl, rfl, rfl, rfl⟩ := h
      exact ⟨Bool.not_eq_true _ ▸ hrejects, resumed_eq_some hk⟩
  · cases h

/-- Where a pass is after Redis has answered. -/
theorem taskAfter_answered {e : Env} {pass : Pass} (h : answered σ k = some (e, pass, r, rest)) :
    taskAfter σ k = some (if (σ.shared.elapse e.elapsed).live (dedupKey r.id r.triggerAt)
      then next pass rest
      else .waiting (.delivering pass r rest (σ.shared.clock + e.elapsed))) := by
  obtain ⟨hrejects, i, q, rfl, hi⟩ := answered_eq_some h
  have hlt : i < σ.calls.length := (List.getElem?_eq_some_iff.mp hi).1
  simp only [taskAfter, step, hi, getElem?_set_self hlt, map_some,
    processReminders, resume, resumeAt, hrejects, Bool.false_eq_true, if_false]
  split
  · rfl
  · rfl

theorem retried_iff (σ : State) (k : Cmd) : Retried σ k ↔ Unblocked σ k := by
  unfold Retried Unblocked
  cases hanswered : answered σ k with
  | none => exact Iff.rfl
  | some a =>
    obtain ⟨e, pass, r, rest⟩ := a
    refine imp_congr_right fun _ => ?_
    rw [taskAfter_answered hanswered]
    cases hlive : (σ.shared.elapse e.elapsed).live (dedupKey r.id r.triggerAt) with
    | false => exact iff_of_true ⟨_, rfl⟩ rfl
    | true =>
      refine iff_of_false ?_ (by simp)
      rintro ⟨claimedAt, hnext⟩
      have hdelivery := congrArg (Option.bind · delivery) hnext
      dsimp only [bind_some] at hdelivery
      rw [if_pos rfl, delivery_next] at hdelivery
      cases hdelivery

/-! ## Once, and again -/

/-- Where no worker comes to a reminder whose delivery has outlived its
key, every reminder is delivered at most once; and a pass calls
`deliverReminder` for every eligible reminder exactly if it finds no key
of an eligible reminder. -/
theorem delivered_once_and_retried (rows : List Reminder) (keys : List (String × Int))
    (hids : (rows.map Reminder.id).Nodup) (ks : List Cmd)
    (hks : Along (step processReminders) (fun σ k => Listed σ k ∧ ¬ Late σ k)
      (opened rows keys) ks) :
    (∀ id, (Coop.run processReminders (opened rows keys) ks).shared.delivered.countP
      (fun d => d.1.id = id) ≤ 1) ∧
    (Along (step processReminders) Retried (opened rows keys) ks ↔
      Along (step processReminders) Unblocked (opened rows keys) ks) := by
  constructor
  · let trigger := fun id =>
      ((KeyedList.get Reminder.id id rows).map Reminder.triggerAt).getD 0
    have hopened : Inv trigger (opened rows keys) := by
      refine ⟨fun r hr => ?_, forall_mem_nil _,
        forall_mem_nil _, forall_mem_nil _,
        fun id => Nat.zero_le 1⟩
      show r.triggerAt = ((KeyedList.get Reminder.id r.id rows).map Reminder.triggerAt).getD 0
      rw [get_key_of_mem hids hr]
      rfl
    have hinv := run_inv_along (fun σ k h hk => Inv.step h hk.1 hk.2) hopened hks
    intro id
    refine Nat.le_trans ?_ (hinv.once id)
    rw [count, deliveries, countP_append]
    exact Nat.le_add_right _ _
  · rw [show Retried = Unblocked from
      funext fun σ => funext fun k => propext (retried_iff σ k)]

/-- A reminder of a slot. -/
def reminder : Reminder := { id := "r1", slotId := 7, triggerAt := 0, createdAt := 0, updatedAt := 0 }

/-- A pass in which the delivery fails; then a second pass, so many ms later. -/
def failsThenAgain (ms : Nat) : List Cmd :=
  [.call { now := 0 }, .resume 0 {}, .resume 0 {}, .resume 0 { rejects := true }, .resume 0 {},
    .call { now := ms }, .resume 1 { elapsed := ms }, .resume 1 {}]

theorem failsThenAgain_retried :
    ((∀ id, (Coop.run processReminders (opened [reminder] [])
        (failsThenAgain 90000000)).shared.delivered.countP (fun d => d.1.id = id) ≤ 1) ∧
      (Along (step processReminders) Retried (opened [reminder] [])
          (failsThenAgain 90000000) ↔
        Along (step processReminders) Unblocked (opened [reminder] [])
          (failsThenAgain 90000000))) ∧
    Along (step processReminders) Unblocked (opened [reminder] [])
      (failsThenAgain 90000000) :=
  ⟨delivered_once_and_retried [reminder] [] (by decide) (failsThenAgain 90000000)
    (by decide +kernel), by decide +kernel⟩

/-- A delivery that resolves; a second pass comes before the reminder is
marked, 25 hours later. -/
def markedLate : List Cmd :=
  [.call { now := 0 }, .resume 0 {}, .resume 0 {}, .resume 0 {},
    .call { now := 90000000 }, .resume 1 { elapsed := 90000000 }, .resume 1 {}, .resume 1 {}]

/-- A minute after a failed delivery the reminder is eligible and the pass
ends without a call of `deliverReminder`; and a reminder that is marked
too late is delivered twice. -/
theorem failsThenAgain_skipped :
    Eligible (Coop.run processReminders (opened [reminder] []) ((failsThenAgain 60000).take 7))
        { now := 60000 } reminder ∧
      ((Coop.run processReminders (opened [reminder] []) (failsThenAgain 60000)).calls.map
        Call.task).getLast? = some (.done .resolved) ∧
    (Coop.run processReminders (opened [reminder] []) markedLate).shared.delivered.map
        (fun d => d.1.id) = ["r1", "r1"] := by
  decide +kernel

end ChronoPay.Reminders
