import Mathlib.Data.List.Sort
import ChronoPay.Lib.Coop
import ChronoPay.Lib.TxTable

/-!
# KekRotation — re-wrapping data keys under a new key-encryption key

`KekRotationRunner` walks a table of envelope rows in batches and
re-wraps each row's data key (DEK) from the old key-encryption key (KEK)
to the new one. A batch is one transaction; a checkpoint with the id of
the last row that was dealt with is stored apart from it. `pause`,
`resume` and `rollback` act through the stored checkpoint, and a loop
that a call has started runs on in the background.

A continuation (`Pc`) stands BEFORE an awaited operation. Resuming it
performs the operation and runs on to the next one. Each operation may
resolve, reject or never return because the process stops there; in the
last two cases its effect may have taken place or not. The rotation's
own variables are the call's: only the checkpoint store, the table and
the pool of clients are shared.

The checkpoint store is one that gives out copies (a database). The
metrics and the creation and update times are left out, since nothing
reads them.
-/

namespace ChronoPay.KekRotation

open TxTable

variable {ι W D ν : Type}

/-! ## Types -/

inductive RotationStatus where
  | pending
  | running
  | paused
  | completed
  | failed
  | rollingBack
  deriving DecidableEq, Repr

def RotationStatus.text : RotationStatus → String
  | pending => "pending"
  | running => "running"
  | paused => "paused"
  | completed => "completed"
  | failed => "failed"
  | rollingBack => "rolling_back"

structure KekVersion where
  id : String
  deriving DecidableEq, Repr

structure EnvelopeRow (ι W : Type) where
  id : ι
  wrappedDek : W
  kekVersionId : String
  deriving DecidableEq, Repr

structure RotationCheckpoint (ι : Type) where
  rotationId : String
  status : RotationStatus
  lastCheckpointId : Option ι
  oldKekVersionId : String
  newKekVersionId : String
  rowsProcessed : Nat
  errorMessage : Option String
  deriving DecidableEq, Repr

/-- The table and its columns are fixed. -/
structure StartRotationParams where
  rotationId : String
  oldKek : KekVersion
  newKek : KekVersion
  batchSize : Option Int := none
  deriving DecidableEq, Repr

/-- Two wraps of one key may differ (`ν`). -/
structure KeyManagementService (W D ν : Type) where
  unwrapDek : W → KekVersion → Except String D
  wrapDek : ν → D → KekVersion → W

structure Runner (W D ν : Type) where
  kms : KeyManagementService W D ν
  maxTransientFailures : Nat := 5

/-- What is shared by all calls. -/
structure Shared (ι W : Type) where
  checkpoints : List (RotationCheckpoint ι) := []
  table : TxTable (EnvelopeRow ι W) ι
  /-- The clients of the pool that are checked out. -/
  clients : List Nat := []

namespace Shared

variable (s : Shared ι W)

def get (rotationId : String) : Option (RotationCheckpoint ι) :=
  KeyedList.get RotationCheckpoint.rotationId rotationId s.checkpoints

def upsert (cp : RotationCheckpoint ι) : Shared ι W :=
  { s with checkpoints := KeyedList.put RotationCheckpoint.rotationId cp s.checkpoints }

def release (client : Nat) : Shared ι W := { s with clients := s.clients.erase client }

/-- The server ends the transaction of a client that is gone. -/
def drop (client : Nat) : Shared ι W := { s.release client with table := s.table.rollback client }

end Shared

/-! ## The envelope repository -/

section

variable [LinearOrder ι]

/-- `id > afterId`, where there is an `afterId`. -/
def After (afterId : Option ι) (id : ι) : Prop := ∀ last ∈ afterId, last < id

instance (afterId : Option ι) (id : ι) : Decidable (After afterId id) :=
  inferInstanceAs (Decidable (∀ last ∈ afterId, last < id))

/-- `id > afterId ORDER BY id FOR UPDATE SKIP LOCKED`: the rows after an
id in the order of their ids, without those that other transactions have
locked. -/
def rowsAfter (table : TxTable (EnvelopeRow ι W) ι) (client : Nat) (afterId : Option ι) :
    List (EnvelopeRow ι W) :=
  ((table.rows.map (table.seenBy EnvelopeRow.id client)).filter fun row =>
    After afterId row.id ∧ table.lockedByOther client row.id = false).insertionSort
      fun row row' => row.id ≤ row'.id

def fetchBatch (table : TxTable (EnvelopeRow ι W) ι) (client : Nat) (afterId : Option ι)
    (limit : Int) : Except String (List (EnvelopeRow ι W)) :=
  if limit < 0 then .error "LIMIT must not be negative"
  else .ok ((rowsAfter table client afterId).take limit.toNat)

end

/-! ## Calls and loops -/

inductive Request where
  | start (params : StartRotationParams)
  | pause (rotationId : String)
  | resume (params : StartRotationParams)
  | rollback (params : StartRotationParams)

/-- The variables of `runLoop`. -/
structure Loop (ι : Type) where
  params : StartRotationParams
  cp : RotationCheckpoint ι
  isRollback : Bool := false
  transientFailures : Nat := 0

/-- What was thrown: the message, if it is an `Error`. -/
abbrev Thrown := Option String

/-- The operations of `runLoop`. -/
inductive LoopPc (ι W D : Type) where
  | getLatest
  | connect
  | begin (client : Nat)
  | fetchBatch (client : Nat)
  /-- The checkpoint as completed. -/
  | upsertCompleted (client : Nat)
  | commitCompleted (client : Nat)
  | unwrapDek (client : Nat) (row : EnvelopeRow ι W) (rest : List (EnvelopeRow ι W))
  | wrapDek (client : Nat) (row : EnvelopeRow ι W) (rest : List (EnvelopeRow ι W)) (dek : D)
  | updateWrappedDek (client : Nat) (row : EnvelopeRow ι W) (rest : List (EnvelopeRow ι W))
      (newWrapped : W)
  /-- The checkpoint after a batch. -/
  | upsert (client : Nat)
  | commit (client : Nat)
  | sleep (client : Nat) (err : Thrown)
  | rollback (client : Nat) (err : Thrown)
  /-- The checkpoint as failed. -/
  | upsertFailed (err : Thrown)

/-- The client an operation is made on, or held over. -/
def LoopPc.client : LoopPc ι W D → Option Nat
  | getLatest | connect | upsertFailed _ => none
  | begin client | fetchBatch client | upsertCompleted client | commitCompleted client
  | unwrapDek client .. | wrapDek client .. | updateWrappedDek client .. | upsert client
  | commit client | sleep client _ | rollback client _ => some client

inductive Pc (ι W D : Type) where
  | start (params : StartRotationParams)
  | startUpsert (params : StartRotationParams) (cp : RotationCheckpoint ι)
  | pause (rotationId : String)
  | pauseUpsert (cp : RotationCheckpoint ι)
  | resume (params : StartRotationParams)
  | rollback (params : StartRotationParams)
  | rollbackUpsert (params : StartRotationParams) (cp : RotationCheckpoint ι)
  /-- With the cursor reset. -/
  | rollbackReset (params : StartRotationParams) (cp : RotationCheckpoint ι)
  | loop (ℓ : Loop ι) (pc : LoopPc ι W D)

/-- How a call ends; one that has started a loop, when the loop ends. -/
inductive Outcome (ι : Type) where
  | returned (cp : RotationCheckpoint ι)
  | threw (err : Thrown)
  | stopped
  deriving DecidableEq, Repr

abbrev Task (ι W D : Type) := Coop.Task (Pc ι W D) (Outcome ι)

/-- How an awaited operation ends. `effect` says whether the operation
took place all the same. -/
inductive Await where
  | resolves
  | rejects (err : Thrown) (effect : Bool)
  | stops (effect : Bool)
  deriving DecidableEq, Repr

structure Env (ν : Type) where
  await : Await := .resolves
  /-- The client the pool would give out. -/
  client : Nat := 0
  nonce : ν

section

variable [LinearOrder ι]

/-! ### start, pause, resume, rollback -/

def failWith (message : String) : Task ι W D := .done (.threw (some message))

def afterStart (params : StartRotationParams) : Option (RotationCheckpoint ι) → Task ι W D
  | some existing =>
    if existing.status = .completed then
      failWith ("Rotation " ++ params.rotationId ++ " already completed")
    else if existing.status = .running then
      failWith ("Rotation " ++ params.rotationId ++ " is already running")
    else
      .waiting (.startUpsert params { existing with status := .running, errorMessage := none })
  | none =>
    .waiting (.startUpsert params
      { rotationId := params.rotationId
        status := .running
        lastCheckpointId := none
        oldKekVersionId := params.oldKek.id
        newKekVersionId := params.newKek.id
        rowsProcessed := 0
        errorMessage := none })

/-- What follows `requireCheckpoint`. -/
def required (rotationId : String) (found : Option (RotationCheckpoint ι))
    (next : RotationCheckpoint ι → Task ι W D) : Task ι W D :=
  match found with
  | some cp => next cp
  | none => failWith ("Unknown rotationId: " ++ rotationId)

def afterPause (cp : RotationCheckpoint ι) : Task ι W D :=
  if cp.status ≠ .running then failWith ("Cannot pause rotation in status=" ++ cp.status.text)
  else .waiting (.pauseUpsert { cp with status := .paused })

def afterResume (params : StartRotationParams) (cp : RotationCheckpoint ι) : Task ι W D :=
  if cp.status ≠ .paused ∧ cp.status ≠ .failed then
    failWith ("Cannot resume rotation in status=" ++ cp.status.text)
  else .waiting (.start params)

def afterRollback (params : StartRotationParams) (cp : RotationCheckpoint ι) : Task ι W D :=
  if cp.status = .completed then failWith "Cannot rollback a completed rotation"
  else .waiting (.rollbackUpsert params { cp with status := .rollingBack })

def reverseParams (params : StartRotationParams) : StartRotationParams :=
  { params with oldKek := params.newKek, newKek := params.oldKek }

/-! ### runLoop -/

def Loop.batchSize (ℓ : Loop ι) : Int := ℓ.params.batchSize.getD 100

/-- `cp.lastCheckpointId = row.id` -/
def Loop.passed (ℓ : Loop ι) (id : ι) : Loop ι :=
  { ℓ with cp := { ℓ.cp with lastCheckpointId := some id } }

/-- After a row was updated. -/
def Loop.processed (ℓ : Loop ι) (id : ι) : Loop ι :=
  { ℓ with
    cp := { ℓ.cp with lastCheckpointId := some id, rowsProcessed := ℓ.cp.rowsProcessed + 1 }
    transientFailures := 0 }

def Loop.completed (ℓ : Loop ι) : Loop ι := { ℓ with cp := { ℓ.cp with status := .completed } }

def Loop.failed (ℓ : Loop ι) (err : Thrown) : Loop ι :=
  { ℓ with
    cp :=
      { ℓ.cp with
        status := .failed
        errorMessage := some (err.getD "Unknown rotation error") } }

/-- `for (const row of batch)`, up to the next row to re-wrap. -/
def nextRow (ℓ : Loop ι) (client : Nat) : List (EnvelopeRow ι W) → Pc ι W D
  | [] => .loop ℓ (.upsert client)
  | row :: rest =>
    if row.kekVersionId = ℓ.params.newKek.id then nextRow (ℓ.passed row.id) client rest
    else if row.kekVersionId ≠ ℓ.params.oldKek.id then nextRow (ℓ.passed row.id) client rest
    else .loop ℓ (.unwrapDek client row rest)

def afterLatest (ℓ : Loop ι) : Option (RotationCheckpoint ι) → Task ι W D
  | none => .done (.returned ℓ.cp)
  | some latest =>
    if latest.status = .paused ∨ latest.status = .failed then .done (.returned ℓ.cp)
    else if ¬ ℓ.isRollback ∧ latest.status = .rollingBack then .done (.returned ℓ.cp)
    else .waiting (.loop ℓ .connect)

/-- An operation of the loop that resolves, or that throws on what it
was given. -/
def attemptLoop (r : Runner W D ν) (e : Env ν) (ℓ : Loop ι) (s : Shared ι W) :
    LoopPc ι W D → Shared ι W × Except Thrown (Task ι W D)
  | .getLatest => (s, .ok (afterLatest ℓ (s.get ℓ.params.rotationId)))
  | .connect =>
    -- a client in use is not given out: the loop still waits for one
    if e.client ∈ s.clients then (s, .ok (.waiting (.loop ℓ .connect)))
    else
      ({ s with clients := e.client :: s.clients }, .ok (.waiting (.loop ℓ (.begin e.client))))
  | .begin client =>
    ({ s with table := s.table.begin client }, .ok (.waiting (.loop ℓ (.fetchBatch client))))
  | .fetchBatch client =>
    match KekRotation.fetchBatch s.table client ℓ.cp.lastCheckpointId ℓ.batchSize with
    | .error message => (s, .error (some message))
    | .ok [] => (s, .ok (.waiting (.loop ℓ.completed (.upsertCompleted client))))
    | .ok (row :: rest) =>
      ({ s with table := s.table.lock client ((row :: rest).map EnvelopeRow.id) },
        .ok (.waiting (nextRow ℓ client (row :: rest))))
  | .upsertCompleted client => (s.upsert ℓ.cp, .ok (.waiting (.loop ℓ (.commitCompleted client))))
  | .commitCompleted client =>
    ({ s with table := s.table.commit EnvelopeRow.id client }, .ok (.done (.returned ℓ.cp)))
  | .unwrapDek client row rest =>
    match r.kms.unwrapDek row.wrappedDek ℓ.params.oldKek with
    | .error message => (s, .error (some message))
    | .ok dek => (s, .ok (.waiting (.loop ℓ (.wrapDek client row rest dek))))
  | .wrapDek client row rest dek =>
    (s, .ok (.waiting (.loop ℓ (.updateWrappedDek client row rest
      (r.kms.wrapDek e.nonce dek ℓ.params.newKek)))))
  | .updateWrappedDek client row rest newWrapped =>
    ({ s with
      table := s.table.write EnvelopeRow.id client
        { row with wrappedDek := newWrapped, kekVersionId := ℓ.params.newKek.id } },
      .ok (.waiting (nextRow (ℓ.processed row.id) client rest)))
  | .upsert client => (s.upsert ℓ.cp, .ok (.waiting (.loop ℓ (.commit client))))
  | .commit client =>
    ({ s with table := s.table.commit EnvelopeRow.id client }, .ok (.waiting (.loop ℓ .getLatest)))
  | .sleep client err => (s, .ok (.waiting (.loop ℓ (.rollback client err))))
  | .rollback client err =>
    ({ s with table := s.table.rollback client },
      .ok (.waiting (.loop (ℓ.failed err) (.upsertFailed err))))
  | .upsertFailed _ => (s.upsert ℓ.cp, .ok (.done (.returned ℓ.cp)))

/-- The handlers of `runLoop`, for an operation that threw. -/
def catchLoop (r : Runner W D ν) (err : Thrown) (ℓ : Loop ι) : LoopPc ι W D → Task ι W D
  | .getLatest | .connect => .waiting (.loop (ℓ.failed err) (.upsertFailed err))
  | .unwrapDek client .. | .wrapDek client .. =>
    let ℓ' := { ℓ with transientFailures := ℓ.transientFailures + 1 }
    if ℓ'.transientFailures ≥ r.maxTransientFailures then
      .waiting (.loop ℓ' (.rollback client err))
    else .waiting (.loop ℓ' (.sleep client err))
  -- a timer does not fail
  | .sleep client err => .waiting (.loop ℓ (.rollback client err))
  | .rollback .. => .waiting (.loop (ℓ.failed err) (.upsertFailed err))
  | .upsertFailed _ => .done (.threw err)
  | .begin client | .fetchBatch client | .upsertCompleted client | .commitCompleted client
  | .updateWrappedDek client .. | .upsert client | .commit client =>
    .waiting (.loop ℓ (.rollback client err))

/-! ### A segment -/

def attempt (r : Runner W D ν) (e : Env ν) :
    Pc ι W D → Shared ι W → Shared ι W × Except Thrown (Task ι W D)
  | .start params, s => (s, .ok (afterStart params (s.get params.rotationId)))
  | .startUpsert params cp, s => (s.upsert cp, .ok (.waiting (.loop { params, cp } .getLatest)))
  | .pause rotationId, s => (s, .ok (required rotationId (s.get rotationId) afterPause))
  | .pauseUpsert cp, s => (s.upsert cp, .ok (.done (.returned cp)))
  | .resume params, s =>
    (s, .ok (required params.rotationId (s.get params.rotationId) (afterResume params)))
  | .rollback params, s =>
    (s, .ok (required params.rotationId (s.get params.rotationId) (afterRollback params)))
  | .rollbackUpsert params cp, s =>
    (s.upsert cp, .ok (.waiting
      (.rollbackReset params { cp with lastCheckpointId := none, rowsProcessed := 0 })))
  | .rollbackReset params cp, s =>
    (s.upsert cp, .ok (.waiting
      (.loop { params := reverseParams params, cp, isRollback := true } .getLatest)))
  | .loop ℓ pc, s => attemptLoop r e ℓ s pc

/-- An operation that threw; only `runLoop` handles that. -/
def caught (r : Runner W D ν) (err : Thrown) : Pc ι W D → Task ι W D
  | .loop ℓ pc => catchLoop r err ℓ pc
  | _ => .done (.threw err)

def Pc.client : Pc ι W D → Option Nat
  | .loop _ pc => pc.client
  | _ => none

/-- The client a call holds. -/
def clientOf : Task ι W D → Option Nat
  | .waiting pc => pc.client
  | .done _ => none

/-- `finally { client.release(); }`, where the loop leaves the block. -/
def released (pc : Pc ι W D) (task : Task ι W D) (s : Shared ι W) : Shared ι W :=
  match pc.client with
  | some client => if clientOf task = none then s.release client else s
  | none => s

/-- The process is gone, and with it its client. -/
def dropped (pc : Pc ι W D) (s : Shared ι W) : Shared ι W :=
  match pc.client with
  | some client => s.drop client
  | none => s

/-- Perform the operation and run on to the next one. -/
def resume (r : Runner W D ν) (e : Env ν) (pc : Pc ι W D) (s : Shared ι W) :
    Shared ι W × Task ι W D :=
  match e.await with
  | .resolves =>
    match attempt r e pc s with
    | (s', .ok task) => (released pc task s', task)
    | (s', .error err) => (released pc (caught r err pc) s', caught r err pc)
  | .rejects err effect =>
    (released pc (caught r err pc) (if effect then (attempt r e pc s).1 else s), caught r err pc)
  | .stops effect => (dropped pc (if effect then (attempt r e pc s).1 else s), .done .stopped)

def Request.pc : Request → Pc ι W D
  | .start params => .start params
  | .pause rotationId => .pause rotationId
  | .resume params => .resume params
  | .rollback params => .rollback params

def service (r : Runner W D ν) : Coop.Program Request (Env ν) (Shared ι W) (Pc ι W D) (Outcome ι)
    where
  start := Request.pc
  resume := resume r

/-! ### What a segment does -/

/-- The table before and after an operation that took place. -/
inductive TableStep (t : TxTable (EnvelopeRow ι W) ι) :
    Pc ι W D → TxTable (EnvelopeRow ι W) ι → Prop
  | same {pc : Pc ι W D} : TableStep t pc t
  | begin {ℓ : Loop ι} {c : Nat} : TableStep t (.loop ℓ (.begin c)) (t.begin c)
  | lock {ℓ : Loop ι} {c : Nat} (keys : List ι) :
      TableStep t (.loop ℓ (.fetchBatch c)) (t.lock c keys)
  | write {ℓ : Loop ι} {c : Nat} {row : EnvelopeRow ι W} {rest : List (EnvelopeRow ι W)}
      {newWrapped : W} :
      TableStep t (.loop ℓ (.updateWrappedDek c row rest newWrapped))
        (t.write EnvelopeRow.id c
          { row with wrappedDek := newWrapped, kekVersionId := ℓ.params.newKek.id })
  | commitCompleted {ℓ : Loop ι} {c : Nat} :
      TableStep t (.loop ℓ (.commitCompleted c)) (t.commit EnvelopeRow.id c)
  | commit {ℓ : Loop ι} {c : Nat} :
      TableStep t (.loop ℓ (.commit c)) (t.commit EnvelopeRow.id c)
  | rollback {ℓ : Loop ι} {c : Nat} {err : Thrown} :
      TableStep t (.loop ℓ (.rollback c err)) (t.rollback c)

/-- No operation adds a row, removes one or moves it. -/
theorem TableStep.map_id {t t' : TxTable (EnvelopeRow ι W) ι} {pc : Pc ι W D}
    (h : TableStep t pc t') : t'.rows.map EnvelopeRow.id = t.rows.map EnvelopeRow.id := by
  cases h with
  | begin => rw [rows_begin]
  | commitCompleted | commit => exact map_key_applyWrites
  | same | lock | write | rollback => rfl

theorem attempt_table (r : Runner W D ν) (e : Env ν) (pc : Pc ι W D) (s : Shared ι W) :
    TableStep s.table pc (attempt r e pc s).1.table := by
  cases pc with
  | loop ℓ pc =>
    cases pc with
    | begin => exact .begin
    | fetchBatch client =>
      simp only [attempt, attemptLoop]
      split
      · exact .same
      · exact .same
      · exact .lock _
    | connect | unwrapDek =>
      simp only [attempt, attemptLoop]
      split <;> exact .same
    | updateWrappedDek => exact .write
    | commitCompleted => exact .commitCompleted
    | commit => exact .commit
    | rollback => exact .rollback
    | _ => exact .same
  | _ => exact .same

/-- The same store and table: only the pool may differ. -/
def SameData (s s' : Shared ι W) : Prop := s.checkpoints = s'.checkpoints ∧ s.table = s'.table

omit [LinearOrder ι] in
theorem released_sameData (pc : Pc ι W D) (task : Task ι W D) (s : Shared ι W) :
    SameData (released pc task s) s := by
  unfold released
  split
  · split <;> exact ⟨rfl, rfl⟩
  · exact ⟨rfl, rfl⟩

/-- Everything a segment can do: the operation resolves; it throws, with
or without its effect; or the process stops there. -/
theorem resume_cases (r : Runner W D ν) (e : Env ν) (pc : Pc ι W D) (s : Shared ι W) :
    (e.await = .resolves ∧ (attempt r e pc s).2 = .ok (resume r e pc s).2 ∧
      SameData (resume r e pc s).1 (attempt r e pc s).1) ∨
    (∃ err s', (s' = s ∨ s' = (attempt r e pc s).1) ∧
      (resume r e pc s).2 = caught r err pc ∧ SameData (resume r e pc s).1 s') ∨
    (∃ effect, e.await = .stops effect ∧ (resume r e pc s).2 = .done .stopped ∧
      (resume r e pc s).1 = dropped pc (if effect then (attempt r e pc s).1 else s)) := by
  unfold resume
  split
  next hawait =>
    split
    next s' task heq =>
      rw [heq]
      exact .inl ⟨hawait, rfl, released_sameData ..⟩
    next s' err heq =>
      rw [heq]
      exact .inr (.inl ⟨err, s', .inr rfl, rfl, released_sameData ..⟩)
  next err effect hawait =>
    refine .inr (.inl ⟨err, _, ?_, rfl, released_sameData ..⟩)
    cases effect
    · exact .inl rfl
    · exact .inr rfl
  next effect hawait => exact .inr (.inr ⟨effect, hawait, rfl, rfl⟩)

/-- What the operation and a lost client keep of the table, a segment
keeps. -/
theorem resume_table_inv {I : TxTable (EnvelopeRow ι W) ι → Prop} {r : Runner W D ν} {e : Env ν}
    {pc : Pc ι W D} {s : Shared ι W} (hdrop : ∀ t c, I t → I (t.rollback c)) (h : I s.table)
    (hattempt : I (attempt r e pc s).1.table) : I (resume r e pc s).1.table := by
  rcases resume_cases r e pc s with
    ⟨-, -, -, htable⟩ | ⟨err, s', hs', -, -, htable⟩ | ⟨effect, -, -, hstop⟩
  · rw [htable]
    exact hattempt
  · rw [htable]
    rcases hs' with rfl | rfl
    · exact h
    · exact hattempt
  · have hs' : I (if effect then (attempt r e pc s).1 else s).table := by
      split
      · exact hattempt
      · exact h
    rw [hstop]
    unfold dropped
    split
    · exact hdrop _ _ hs'
    · exact hs'

end

abbrev State (ι W D : Type) := Coop.Sys Request (Shared ι W) (Pc ι W D) (Outcome ι)

abbrev Cmd (ν : Type) := Coop.Cmd Request (Env ν)

/-- The table before the first call. -/
def opened (rows : List (EnvelopeRow ι W)) : State ι W D := { shared := { table := { rows } } }

/-- A KMS whose wrapped keys carry the KEK they are wrapped under. -/
def tagged : KeyManagementService (String × Nat) Nat Unit where
  unwrapDek wrapped kek :=
    if wrapped.1 = kek.id then .ok wrapped.2 else .error "IncorrectKeyException"
  wrapDek _ dek kek := (kek.id, dek)

/-- Two rows under the first KEK. -/
def twoRows : List (EnvelopeRow Nat (String × Nat)) :=
  [{ id := 1, wrappedDek := ("kek-1", 11), kekVersionId := "kek-1" },
    { id := 2, wrappedDek := ("kek-1", 22), kekVersionId := "kek-1" }]

def firstToSecond : StartRotationParams :=
  { rotationId := "rot", oldKek := ⟨"kek-1"⟩, newKek := ⟨"kek-2"⟩, batchSize := some 2 }

/-- The operation resolves; the pool would give out this client. -/
def onClient (client : Nat) : Env Unit := { client, nonce := () }

end ChronoPay.KekRotation
