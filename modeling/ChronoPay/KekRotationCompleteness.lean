import ChronoPay.KekRotationLoop

/-!
# KekRotationCompleteness — what a completed rotation has re-wrapped

The handler of a failure stores the loop's cursor although the batch is
rolled back. A rotation that fails in the middle of a batch therefore
loses the rows of the batch it had already re-wrapped: when it is
resumed, it starts after them.

`Steady` names what must not happen, each with the operation at which it
would: two loops at once, a batch read around locked rows, a `ROLLBACK`
of re-wrapped rows, and a stop between the stored cursor and its
`COMMIT`. Without these, a rotation is complete when it says so.

The cursor of every checkpoint, stored or held by a call, lies before
all due rows, and the set of due rows only shrinks.
-/

namespace ChronoPay.KekRotation

open Coop KeyedList List Machine Option

variable {ι W D ν : Type} [LinearOrder ι] {r : Runner W D ν} {P : StartRotationParams}

/-! ## Steady runs -/

/-- The calls of one forward rotation. -/
def Request.Forward (P : StartRotationParams) : Request → Prop
  | .start params => params = P
  | .pause rotationId => rotationId = P.rotationId
  | .resume params => params = P
  | .rollback _ => False

instance : (q : Request) → Decidable (q.Forward P)
  | .start params => inferInstanceAs (Decidable (params = P))
  | .pause rotationId => inferInstanceAs (Decidable (rotationId = P.rotationId))
  | .resume params => inferInstanceAs (Decidable (params = P))
  | .rollback _ => .isFalse id

def Forward (P : StartRotationParams) : Cmd ν → Prop
  | .call q => q.Forward P
  | .resume _ _ => True

instance : (k : Cmd ν) → Decidable (Forward P k)
  | .call q => inferInstanceAs (Decidable (q.Forward P))
  | .resume _ _ => .isTrue trivial

/-- What a loop holds. -/
def loopToken : Pc ι W D → Option Unit
  | .loop _ _ => some ()
  | _ => none

omit [LinearOrder ι] in
theorem Pc.loop_or_not (pc : Pc ι W D) : (∃ ℓ pc', pc = .loop ℓ pc') ∨ loopToken pc = none := by
  cases pc with
  | loop ℓ pc => exact .inl ⟨ℓ, pc, rfl⟩
  | _ => exact .inr rfl

/-- What a segment must not do for a rotation to be complete. -/
def Pc.Steady (σ : State ι W D) (e : Env ν) : Pc ι W D → Prop
  | .startUpsert _ _ => e.await = .resolves → Free loopToken () σ
  | .loop _ pc => pc.Steady e σ.shared.table
  | _ => True

instance (σ : State ι W D) (e : Env ν) : (pc : Pc ι W D) → Decidable (pc.Steady σ e)
  | .startUpsert _ _ => inferInstanceAs (Decidable (e.await = .resolves → Free loopToken () σ))
  | .loop _ pc => inferInstanceAs (Decidable (pc.Steady e σ.shared.table))
  | .start _ | .pause _ | .pauseUpsert _ | .resume _ | .rollback _ | .rollbackUpsert ..
  | .rollbackReset .. => .isTrue trivial

def Steady (σ : State ι W D) (k : Cmd ν) : Prop :=
  ∀ segment ∈ resumed σ k, segment.2.Steady σ segment.1

instance (σ : State ι W D) (k : Cmd ν) : Decidable (Steady σ k) :=
  inferInstanceAs (Decidable (∀ segment ∈ resumed σ k, segment.2.Steady σ segment.1))

/-! ## All calls together -/

/-- A row that was on the old KEK has not gone to a third one. -/
def OnOldOrNew (P : StartRotationParams) (rows : List (EnvelopeRow ι W)) (row : EnvelopeRow ι W) :
    Prop :=
  ∀ row₀ ∈ rows, row₀.id = row.id → row₀.kekVersionId = P.oldKek.id →
    row.kekVersionId = P.oldKek.id ∨ row.kekVersionId = P.newKek.id

/-- A row that no checkpoint may have passed. -/
def Due (P : StartRotationParams) (σ : State ι W D) (id : ι) : Prop :=
  (∃ row ∈ σ.shared.table.rows, row.id = id ∧ Stale P row) ∧
    ∀ c ∈ σ.calls, id ∉ sealed σ.shared.table c.task

/-- The cursor of a checkpoint lies before the due rows. -/
def Before (due : ι → Prop) (cp : RotationCheckpoint ι) : Prop :=
  ∀ id, due id → After cp.lastCheckpointId id

/-- What a stored checkpoint says of the table. -/
def Truthful (P : StartRotationParams) (σ : State ι W D) (cp : RotationCheckpoint ι) : Prop :=
  Before (Due P σ) cp ∧ (cp.status = .completed → ∀ row ∈ σ.shared.table.rows, ¬ Stale P row)

/-- What a call other than a loop holds. -/
def Pc.Ok (P : StartRotationParams) (due : ι → Prop) : Pc ι W D → Prop
  | .start params | .resume params => params = P
  | .startUpsert params cp => params = P ∧ Before due cp ∧ cp.status ≠ .completed
  | .pauseUpsert cp => Before due cp ∧ cp.status ≠ .completed
  | .rollback _ | .rollbackUpsert _ _ | .rollbackReset _ _ => False
  | .pause _ | .loop _ _ => True

def Pc.LoopOk (P : StartRotationParams) (t : Table ι W) : Pc ι W D → Prop
  | .loop ℓ pc => ℓ.Ok P t pc.client ∧ pc.Ok P t ℓ.cp.lastCheckpointId
  | _ => True

structure Inv (P : StartRotationParams) (rows : List (EnvelopeRow ι W)) (σ : State ι W D) : Prop
    where
  one : Exclusive loopToken σ
  ids : σ.shared.table.rows.map EnvelopeRow.id = rows.map EnvelopeRow.id
  table : σ.shared.table.Holds (OnOldOrNew P rows) (OnNew P)
  loop : Held (fun s => Pc.LoopOk P s.table) σ
  quiet : Free loopToken () σ → ∀ c, σ.shared.table.pendingOf c = []
  stored : ∀ cp ∈ σ.shared.checkpoints, Truthful P σ cp
  held : Held (fun _ => Pc.Ok P (Due P σ)) σ

section

variable {rows : List (EnvelopeRow ι W)} {σ : State ι W D} {k : Cmd ν} {e : Env ν}
  {s : Shared ι W} {pc pc' : Pc ι W D}

theorem resume_table_of_not_loop (h : loopToken pc = none) :
    ((service r).resume e pc s).1.table = s.table := by
  change (resume r e pc s).1.table = s.table
  have hattempt : (attempt r e pc s).1.table = s.table := by
    cases pc with
    | loop => cases h
    | _ => rfl
  have hdropped : ∀ s', (dropped pc s').table = s'.table := by
    cases pc with
    | loop => cases h
    | _ => exact fun _ => rfl
  rcases resume_cases r e pc s with
    ⟨-, -, -, htable⟩ | ⟨err, s', hs', -, -, htable⟩ | ⟨effect, -, -, hstop⟩
  · rw [htable, hattempt]
  · rcases hs' with rfl | rfl
    · exact htable
    · rw [htable, hattempt]
  · rw [hstop, hdropped]
    cases effect
    · rfl
    · exact hattempt

theorem Inv.ready (h : Inv P rows σ) (hids : (rows.map EnvelopeRow.id).Nodup)
    (hlimit : P.batchSize.getD 100 ≠ 0) (hsteady : Steady σ k) {ℓ : Loop ι} {pc : LoopPc ι W D}
    (hk : resumed σ k = some (e, .loop ℓ pc)) : Ready P σ.shared e ℓ pc where
  ids := h.ids ▸ hids
  onNew := h.table.pending
  limit := hlimit
  steady := hsteady _ hk
  loop := (h.loop.at_resumed hk).1
  pc := (h.loop.at_resumed hk).2

/-- **The due rows only shrink.** -/
theorem Inv.due_of_step (h : Inv P rows σ) (hids : (rows.map EnvelopeRow.id).Nodup)
    (hlimit : P.batchSize.getD 100 ≠ 0) (hsteady : Steady σ k) {id : ι}
    (hdue : Due P (step (service r) σ k) id) : Due P σ id := by
  rcases step_cases (p := service r) σ k with
    ⟨q, rfl, hstep⟩ | ⟨i, e, q, pc, rfl, hi, hk, hstep⟩ | ⟨-, hstep⟩
  · rw [hstep] at hdue
    exact ⟨hdue.1, fun c hc => hdue.2 c (mem_append_left _ hc)⟩
  · rw [hstep] at hdue
    obtain ⟨hrow, hnot⟩ := hdue
    have hlt : i < σ.calls.length := (List.getElem?_eq_some_iff.mp hi).1
    have hother : ∀ j c, j ≠ i → σ.calls[j]? = some c →
        c ∈ σ.calls.set i ⟨q, ((service r).resume e pc σ.shared).2⟩ := fun j c hne hj =>
      mem_of_getElem? (i := j) (by rw [getElem?_set_ne (Ne.symm hne)]; exact hj)
    have hself := hnot _ (mem_of_getElem? (i := i)
      (getElem?_set_self (a := ⟨q, ((service r).resume e pc σ.shared).2⟩) hlt))
    rcases pc.loop_or_not with ⟨ℓ, pc, rfl⟩ | htoken
    · have hdue' := (h.ready hids hlimit hsteady hk).due_of_resume (r := r) ⟨hrow, hself⟩
      refine ⟨hdue'.1, fun c hc => ?_⟩
      obtain ⟨j, hj⟩ := mem_iff_getElem?.mp hc
      by_cases hne : j = i
      · obtain rfl := Option.some.inj (hi.symm.trans (hne ▸ hj))
        exact hdue'.2
      · -- no other call holds a batch
        obtain ⟨q', pc' | r⟩ := c
        · cases pc' with
          | loop ℓ' pc' => exact absurd (h.one j i _ _ () hj hi rfl rfl) hne
          | _ => exact not_mem_nil
        · exact not_mem_nil
    · rw [resume_table_of_not_loop htoken] at hrow hnot
      refine ⟨hrow, fun c hc => ?_⟩
      obtain ⟨j, hj⟩ := mem_iff_getElem?.mp hc
      by_cases hne : j = i
      · obtain rfl := Option.some.inj (hi.symm.trans (hne ▸ hj))
        cases pc with
        | loop => cases htoken
        | _ => exact not_mem_nil
      · exact hnot c (hother j c hne hj)
  · rwa [hstep] at hdue

theorem Pc.Ok.mono {due due' : ι → Prop} (hdue : ∀ id, due' id → due id)
    (h : pc.Ok P due) : pc.Ok P due' := by
  cases pc with
  | startUpsert params cp => exact ⟨h.1, fun id hid => h.2.1 id (hdue id hid), h.2.2⟩
  | pauseUpsert cp => exact ⟨fun id hid => h.1 id (hdue id hid), h.2⟩
  | _ => exact h

/-- A call without a loop goes on only if its operation resolves. -/
theorem resume_of_not_loop (hpc : loopToken pc = none)
    (h : (resume r e pc s).2 = .waiting pc') :
    e.await = .resolves ∧ (attempt r e pc s).2 = .ok (.waiting pc') := by
  rcases resume_cases r e pc s with ⟨hawait, hok, -⟩ | ⟨err, s', -, hcaught, -⟩ | ⟨_, -, hstop, -⟩
  · exact ⟨hawait, h ▸ hok⟩
  · have hdone : caught r err pc = .done (.threw err) := by
      cases pc with
      | loop => cases hpc
      | _ => rfl
    cases (hdone.symm.trans hcaught.symm).trans h
  · cases hstop.symm.trans h

/-- What a call without a loop goes on to. -/
theorem attempt_next {due : ι → Prop} (hpc : loopToken pc = none)
    (hok : pc.Ok P due) (hstored : ∀ cp ∈ s.checkpoints, Before due cp)
    (h : (attempt r e pc s).2 = .ok (.waiting pc')) :
    pc'.Ok P due ∧ (loopToken pc' = none ∨
      ∃ cp, pc = .startUpsert P cp ∧ pc' = .loop { params := P, cp } .getLatest) := by
  cases pc with
  | start params =>
    obtain rfl : params = P := hok
    have hrunning : RotationStatus.running ≠ .completed := by decide
    simp only [attempt, afterStart, failWith] at h
    split at h
    next existing hexisting =>
      split at h
      · cases h
      · split at h
        · cases h
        · cases h
          exact ⟨⟨rfl, hstored existing (mem_of_get hexisting), hrunning⟩, .inl rfl⟩
    · cases h
      exact ⟨⟨rfl, fun _ _ _ h => absurd h (not_mem_none _), hrunning⟩, .inl rfl⟩
  | startUpsert params cp =>
    obtain ⟨rfl, -⟩ := hok
    cases h
    exact ⟨trivial, .inr ⟨cp, rfl, rfl⟩⟩
  | pause rotationId =>
    have hpaused : RotationStatus.paused ≠ .completed := by decide
    simp only [attempt, required, afterPause, failWith] at h
    split at h
    next cp hcp =>
      split at h
      · cases h
      · cases h
        exact ⟨⟨hstored cp (mem_of_get hcp), hpaused⟩, .inl rfl⟩
    · cases h
  | pauseUpsert cp => cases h
  | resume params =>
    simp only [attempt, required, afterResume, failWith] at h
    split at h
    · split at h
      · cases h
      · cases h
        exact ⟨hok, .inl rfl⟩
    · cases h
  | rollback | rollbackUpsert | rollbackReset => exact hok.elim
  | loop => cases hpc

/-- The loop that `start` enters, when there is no other. -/
theorem Inv.entered (h : Inv P rows σ) {cp : RotationCheckpoint ι}
    (hfree : Free loopToken () σ) (hcp : Before (Due P σ) cp ∧ cp.status ≠ .completed) :
    Pc.LoopOk (D := D) P σ.shared.table (.loop { params := P, cp } .getLatest) := by
  refine ⟨⟨rfl, fun c _ => h.quiet hfree c, fun row hrow hstale => .inl ?_, ?_⟩, trivial⟩
  · refine hcp.1 row.id ⟨⟨row, hrow, rfl, hstale⟩, fun c hc => ?_⟩
    have hc := hfree c hc
    obtain ⟨q, pc | r⟩ := c
    · cases pc with
      | loop => exact absurd rfl hc
      | _ => exact not_mem_nil
    · exact not_mem_nil
  · exact fun hdone => absurd hdone hcp.2

/-- A call that enters a loop comes from `start`, and finds no other. -/
theorem Inv.enters (h : Inv P rows σ) (hsteady : Steady σ k)
    (hk : resumed σ k = some (e, pc)) (hpc : loopToken pc = none)
    (hnext : (resume r e pc σ.shared).2 = .waiting pc') :
    loopToken pc' = none ∨ ∃ cp, pc' = .loop { params := P, cp } .getLatest ∧
      Free loopToken () σ ∧ Before (Due P σ) cp ∧ cp.status ≠ .completed := by
  obtain ⟨hawait, hok⟩ := resume_of_not_loop hpc hnext
  have hheld := h.held.at_resumed hk
  rcases (attempt_next hpc hheld (fun cp hcp => (h.stored cp hcp).1) hok).2 with
    hnone | ⟨cp, rfl, rfl⟩
  · exact .inl hnone
  · exact .inr ⟨cp, rfl, hsteady _ hk hawait, hheld.2⟩

theorem Inv.one_step (h : Inv P rows σ) (hsteady : Steady σ k) :
    Exclusive loopToken (step (service r) σ k) := by
  refine h.one.step (fun q => by cases q <;> rfl) ?_
  intro e pc pc' token hk hnext htoken
  cases hpc : loopToken pc with
  | some _ => exact .inl rfl
  | none =>
    rcases h.enters hsteady hk hpc hnext with hnone | ⟨cp, -, hfree, -⟩
    · cases hnone.symm.trans htoken
    · exact .inr hfree

theorem Inv.table_step (h : Inv P rows σ) :
    (step (service r) σ k).shared.table.Holds (OnOldOrNew P rows) (OnNew P) := by
  refine shared_step
    (I := fun s : Shared ι W => s.table.Holds (OnOldOrNew P rows) (OnNew P)) h.table ?_
  intro e pc hk
  refine resume_table_inv (fun _ _ h => h.rollback) h.table ?_
  have hstep := attempt_table r e pc σ.shared
  have hloop := h.loop.at_resumed hk
  have honNew : ∀ row, OnNew P row → OnOldOrNew P rows row := fun _ hnew _ _ _ _ => .inr hnew
  generalize (attempt r e pc σ.shared).1.table = t' at hstep
  cases hstep with
  | same => exact h.table
  | begin => exact h.table.begin
  | lock keys => exact h.table.lock
  | write =>
    refine h.table.write ?_
    rw [OnNew, hloop.1.params]
  | commitCompleted | commit => exact h.table.commit honNew
  | rollback => exact h.table.rollback

section

variable (h : Inv P rows σ) (hids : (rows.map EnvelopeRow.id).Nodup)
  (hlimit : P.batchSize.getD 100 ≠ 0) (hsteady : Steady σ k)

include h hids hlimit hsteady

theorem Inv.loop_step : Held (fun s => Pc.LoopOk P s.table) (step (service r) σ k) := by
  refine h.loop.step_others (fun q _ => by cases q <;> trivial) ?_ ?_
  · intro e pc pc' hk hpc hnext
    rcases pc.loop_or_not with ⟨ℓ, pc, rfl⟩ | htoken
    · have hok := (h.ready hids hlimit hsteady hk).resume_ok (r := r)
      rw [show (resume r e (.loop ℓ pc) σ.shared).2 = .waiting pc' from hnext] at hok
      cases pc' with
      | loop => exact hok
      | _ => trivial
    · rcases h.enters hsteady hk htoken hnext with hnone | ⟨cp, rfl, hfree, hcp⟩
      · cases pc' with
        | loop => cases hnone
        | _ => trivial
      · rw [resume_table_of_not_loop htoken]
        exact h.entered hfree hcp
  · intro i e q pc j q' pc' _ hi hne hj _ hpc'
    cases pc' with
    | loop ℓ' pc' =>
      -- the other call has the loop, so this one does not touch the table
      have htoken : loopToken pc = none := by
        cases htoken : loopToken pc with
        | none => rfl
        | some _ => exact absurd (h.one j i _ _ () hj hi rfl htoken) hne
      rw [resume_table_of_not_loop htoken]
      exact hpc'
    | _ => trivial

theorem Inv.quiet_step (hfree : Free loopToken () (step (service r) σ k)) (c : Nat) :
    (step (service r) σ k).shared.table.pendingOf c = [] := by
  rw [step_shared]
  cases hk : resumed σ k with
  | none =>
    refine h.quiet (hfree.of_step fun e pc hk' => ?_) c
    cases hk.symm.trans hk'
  | some segment =>
    obtain ⟨e, pc⟩ := segment
    rcases pc.loop_or_not with ⟨ℓ, pc, rfl⟩ | htoken
    · have hok := (h.ready hids hlimit hsteady hk).resume_ok (r := r)
      cases hnext : (resume r e (.loop ℓ pc) σ.shared).2 with
      | done result =>
        rw [hnext] at hok
        exact hok c
      | waiting pc' =>
        rw [hnext] at hok
        cases pc' with
        | loop => exact absurd rfl (hfree.next hk hnext)
        | _ => exact hok.elim
    · rw [resume_table_of_not_loop htoken]
      refine h.quiet (hfree.of_step fun e' pc' hk' => ?_) c
      cases hk.symm.trans hk'
      rw [htoken]
      exact (some_ne_none ()).symm

theorem Inv.stored_step : ∀ cp ∈ (step (service r) σ k).shared.checkpoints,
    Truthful P (step (service r) σ k) cp := by
  intro cp hcp
  have hold : cp ∈ σ.shared.checkpoints → Truthful P (step (service r) σ k) cp := by
    intro hmem
    obtain ⟨hbefore, hdone⟩ := h.stored cp hmem
    refine ⟨fun id hid => hbefore id (h.due_of_step hids hlimit hsteady hid),
      fun hcompleted row hrow hstale => hdone hcompleted row ?_ hstale⟩
    refine shared_step (p := service r) (k := k)
      (I := fun s : Shared ι W => row ∈ s.table.rows → row ∈ σ.shared.table.rows) id ?_ hrow
    intro e pc hk hmem
    rcases pc.loop_or_not with ⟨ℓ, pc, rfl⟩ | htoken
    · exact (h.ready hids hlimit hsteady hk).stale_of_resume hmem hstale
    · exact resume_table_of_not_loop (r := r) htoken ▸ hmem
  cases hk : resumed σ k with
  | none =>
    rw [step_shared, hk] at hcp
    exact hold hcp
  | some segment =>
    obtain ⟨e, pc⟩ := segment
    have hshared : (step (service r) σ k).shared = (resume r e pc σ.shared).1 := by
      rw [step_shared, hk]
      rfl
    rw [hshared] at hcp
    rcases pc.loop_or_not with ⟨ℓ, pc, rfl⟩ | htoken
    · rcases (h.ready hids hlimit hsteady hk).stored_of_resume cp hcp with
        hmem | ⟨hbefore, hdone⟩
      · exact hold hmem
      · rw [Truthful, hshared]
        refine ⟨fun id hid => hbefore id ?_, hdone⟩
        obtain ⟨q, -, hmem⟩ := resumed_call (p := service r) hk
        rw [Due, hshared] at hid
        exact ⟨hid.1, hid.2 _ hmem⟩
    · rcases resume_checkpoints cp hcp with hmem | ⟨hstores, -⟩
      · exact hold hmem
      · have hheld := (h.held.at_resumed hk).mono fun id =>
          h.due_of_step (r := r) hids hlimit hsteady
        cases pc with
        | startUpsert params cp' =>
          cases hstores
          exact ⟨hheld.2.1, fun hdone => absurd hdone hheld.2.2⟩
        | pauseUpsert cp' =>
          cases hstores
          exact ⟨hheld.1, fun hdone => absurd hdone hheld.2⟩
        | rollbackUpsert | rollbackReset => exact hheld.elim
        | loop => cases htoken
        | _ => cases hstores

theorem Inv.held_step (hforward : Forward P k) :
    Held (fun _ => Pc.Ok P (Due P (step (service r) σ k)))
      (step (service r) σ k) := by
  have hdue : ∀ id, Due P (step (service r) σ k) id → Due P σ id :=
    fun id => h.due_of_step hids hlimit hsteady
  have hheld : Held (fun _ => Pc.Ok P (Due P (step (service r) σ k))) σ :=
    fun c hc pc hpc => (h.held c hc pc hpc).mono hdue
  refine hheld.step_others ?_ ?_ fun _ _ _ _ _ _ _ _ _ _ _ _ hpc' => hpc'
  · rintro q rfl
    cases q with
    | start | resume => exact hforward
    | pause rotationId => trivial
    | rollback params => exact hforward.elim
  · intro e pc pc' hk hpc hnext
    rcases pc.loop_or_not with ⟨ℓ, pc, rfl⟩ | htoken
    · have hok := (h.ready hids hlimit hsteady hk).resume_ok (r := r)
      rw [show (resume r e (.loop ℓ pc) σ.shared).2 = .waiting pc' from hnext] at hok
      cases pc' with
      | loop => trivial
      | _ => exact hok.elim
    · have hstored : ∀ cp ∈ σ.shared.checkpoints, Before _ cp :=
        fun cp hcp id hid => (h.stored cp hcp).1 id (hdue id hid)
      exact (attempt_next htoken hpc hstored (resume_of_not_loop htoken hnext).2).1

end

theorem Inv.step (hids : (rows.map EnvelopeRow.id).Nodup) (hlimit : P.batchSize.getD 100 ≠ 0)
    (h : Inv P rows σ) (hk : Steady σ k ∧ Forward P k) :
    Inv P rows (step (service r) σ k) where
  one := h.one_step hk.1
  ids := shared_step (I := fun s : Shared ι W => s.table.rows.map EnvelopeRow.id = _) h.ids
    fun e pc _ => resume_table_inv
      (I := fun t => t.rows.map EnvelopeRow.id = rows.map EnvelopeRow.id) (fun _ _ h => h) h.ids
      ((attempt_table r e pc σ.shared).map_id.trans h.ids)
  table := h.table_step
  loop := h.loop_step hids hlimit hk.1
  quiet := h.quiet_step hids hlimit hk.1
  stored := h.stored_step hids hlimit hk.1
  held := h.held_step hids hlimit hk.1 hk.2

theorem opened_inv (hids : (rows.map EnvelopeRow.id).Nodup) :
    Inv (D := D) P rows (opened rows) where
  one _ _ _ _ _ hi := by cases hi
  ids := rfl
  table := by
    refine ⟨fun row hrow row₀ hrow₀ hid hold => .inl ?_, fun _ _ ha => absurd ha not_mem_nil⟩
    rwa [← inj_on_of_nodup_map hids hrow₀ hrow hid]
  loop := forall_mem_nil _
  quiet _ _ := rfl
  stored := forall_mem_nil _
  held := forall_mem_nil _

end

/-- For every table with distinct ids, batch size other than zero and
forward rotation that is steady: when its checkpoint is completed, every
row that was on the old KEK is on the new one. -/
theorem completed_rows_on_new (r : Runner W D ν) (P : StartRotationParams)
    (hlimit : P.batchSize.getD 100 ≠ 0) (rows : List (EnvelopeRow ι W))
    (hids : (rows.map EnvelopeRow.id).Nodup) (ks : List (Cmd ν))
    (hforward : ∀ k ∈ ks, Forward P k)
    (hsteady : Along (step (service r)) Steady (opened rows) ks)
    (cp : RotationCheckpoint ι)
    (hcp : (Coop.run (service r) (opened rows) ks).shared.get P.rotationId = some cp)
    (hcompleted : cp.status = .completed) :
    ∀ row ∈ rows, row.kekVersionId = P.oldKek.id →
      ∃ row' ∈ (Coop.run (service r) (opened rows) ks).shared.table.rows,
        row'.id = row.id ∧ row'.kekVersionId = P.newKek.id := by
  have hinv : Inv P rows (Coop.run (service r) (opened rows) ks) :=
    run_inv_along (fun _ _ h hk => h.step hids hlimit hk) (opened_inv hids)
      (hsteady.and_forall_mem hforward)
  have hdone := (hinv.stored cp (mem_of_get hcp)).2 hcompleted
  intro row hrow hold
  have hid : row.id ∈ (Coop.run (service r) (opened rows) ks).shared.table.rows.map
      EnvelopeRow.id := by
    rw [hinv.ids]
    exact List.mem_map_of_mem hrow
  obtain ⟨row', hrow', heq⟩ := List.mem_map.mp hid
  refine ⟨row', hrow', heq, ?_⟩
  rcases hinv.table.rows row' hrow' row hrow heq.symm hold with hversion | hversion
  · by_contra hne
    exact hdone row' hrow' ⟨hversion, hne⟩
  · exact hversion

/-- The KMS rejects. -/
def kmsFails : Env Unit := { await := .rejects (some "KMS unavailable") false, nonce := () }

/-- The second row's key is not unwrapped at the first attempt; the
rotation fails there and is resumed. -/
def failedAndResumed (params : StartRotationParams) (before after : Nat) : List (Cmd Unit) :=
  .call (.start params) :: List.replicate before (.resume 0 (onClient 0)) ++
    .resume 0 kmsFails :: List.replicate 3 (.resume 0 (onClient 0)) ++
    .call (.resume params) :: List.replicate after (.resume 1 (onClient 0))

/-- The same with one row a batch. -/
def rowByRow : StartRotationParams := { firstToSecond with batchSize := some 1 }

/-- With one row a batch nothing is rolled back that was re-wrapped. -/
theorem completed_rows_on_new_resumed :
    ((Coop.run (service { kms := tagged }) (opened twoRows)
        (failedAndResumed rowByRow 15 18)).shared.get "rot").map RotationCheckpoint.status
        = some .completed ∧
      ∀ row ∈ twoRows, row.kekVersionId = "kek-1" →
        ∃ row' ∈ (Coop.run (service { kms := tagged }) (opened twoRows)
            (failedAndResumed rowByRow 15 18)).shared.table.rows,
          row'.id = row.id ∧ row'.kekVersionId = "kek-2" := by
  have hstatus : ((Coop.run (service { kms := tagged }) (opened twoRows)
      (failedAndResumed rowByRow 15 18)).shared.get "rot").map RotationCheckpoint.status
      = some .completed := by decide +kernel
  obtain ⟨cp, hcp, hcompleted⟩ := map_eq_some_iff.mp hstatus
  exact ⟨hstatus, completed_rows_on_new { kms := tagged } rowByRow (by decide) twoRows (by decide)
    _ (by decide +kernel) (by decide +kernel) cp hcp hcompleted⟩

/-- With both rows in one batch the first one is rolled back with it, but
stays behind the cursor: the rotation completes without it. -/
theorem completed_without_first_row :
    (∀ k ∈ failedAndResumed firstToSecond 9 18, Forward firstToSecond k) ∧
      ((Coop.run (service { kms := tagged }) (opened twoRows)
        (failedAndResumed firstToSecond 9 18)).shared.get "rot").map RotationCheckpoint.status
        = some .completed ∧
      (Coop.run (service { kms := tagged }) (opened twoRows)
        (failedAndResumed firstToSecond 9 18)).shared.table.rows.map EnvelopeRow.kekVersionId
        = ["kek-1", "kek-2"] := by
  decide +kernel

end ChronoPay.KekRotation
