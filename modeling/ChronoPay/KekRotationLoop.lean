import ChronoPay.KekRotation

/-!
# KekRotationLoop — one rotation loop and its cursor

The loop moves its cursor with every row, before the batch is committed.
`Loop.Ok` says what that cursor is good for: every row that is still to
be re-wrapped lies after it, or is in the batch and not committed. Every
operation keeps this, whether it resolves, throws or stops the process,
as long as no `ROLLBACK` undoes a re-wrapped row (`LoopPc.Steady`).

The rows of a batch whose cursor may be stored already are `sealed`; the
other ones are due. A segment never makes a row due, and what it stores
lies before the rows that are due.
-/

namespace ChronoPay.KekRotation

open List TxTable

variable {ι W D ν : Type} [LinearOrder ι] {r : Runner W D ν} {P : StartRotationParams}

abbrev Table (ι W : Type) := TxTable (EnvelopeRow ι W) ι

/-- What an operation must not do for a rotation to be complete: read
around locked rows, roll back a row that was re-wrapped, or stop between
the stored cursor and the `COMMIT` of its rows. -/
def LoopPc.Steady (e : Env ν) (t : Table ι W) : LoopPc ι W D → Prop
  | .fetchBatch c => ∀ row ∈ t.rows, t.lockedByOther c row.id = false
  | .rollback c _ => t.pendingOf c = []
  | .upsert c => e.await = .stops true → t.pendingOf c = []
  | .commit c => e.await = .stops false → t.pendingOf c = []
  | _ => True

instance (e : Env ν) (t : Table ι W) : (pc : LoopPc ι W D) → Decidable (pc.Steady e t)
  | .fetchBatch c => inferInstanceAs (Decidable (∀ row ∈ t.rows, t.lockedByOther c row.id = false))
  | .rollback c _ => inferInstanceAs (Decidable (t.pendingOf c = []))
  | .upsert c => inferInstanceAs (Decidable (e.await = .stops true → t.pendingOf c = []))
  | .commit c => inferInstanceAs (Decidable (e.await = .stops false → t.pendingOf c = []))
  | .getLatest | .connect | .begin _ | .upsertCompleted _ | .commitCompleted _ | .unwrapDek ..
  | .wrapDek .. | .updateWrappedDek .. | .sleep .. | .upsertFailed _ => .isTrue trivial

/-! ## Rows and cursors -/

/-- Still to be re-wrapped. -/
def Stale (P : StartRotationParams) (row : EnvelopeRow ι W) : Prop :=
  row.kekVersionId = P.oldKek.id ∧ row.kekVersionId ≠ P.newKek.id

/-- The rows a client has re-wrapped and not committed. -/
def uncommitted (t : Table ι W) (client : Option Nat) : List ι :=
  match client with
  | some c => (t.pendingOf c).map EnvelopeRow.id
  | none => []

/-- Each row of a batch is the next one after the row before it. -/
def Follows (rows : List (EnvelopeRow ι W)) : Option ι → List (EnvelopeRow ι W) → Prop
  | _, [] => True
  | cursor, row :: rest =>
    (∀ row' ∈ rows, After cursor row'.id → row'.id ≤ row.id →
      row'.id = row.id ∧ row'.kekVersionId = row.kekVersionId) ∧
    Follows rows (some row.id) rest

/-- What holds of a loop at all of its operations. -/
structure Loop.Ok (P : StartRotationParams) (t : Table ι W) (ℓ : Loop ι) (client : Option Nat) :
    Prop where
  params : ℓ.params = P
  alone : ∀ c, some c ≠ client → t.pendingOf c = []
  cursor : ∀ row ∈ t.rows, Stale P row →
    After ℓ.cp.lastCheckpointId row.id ∨ row.id ∈ uncommitted t client
  completed : ℓ.cp.status = .completed → ∀ row ∈ t.rows, ¬ Stale P row

/-- What holds at one operation. -/
def LoopPc.Ok (P : StartRotationParams) (t : Table ι W) (cursor : Option ι) : LoopPc ι W D → Prop
  | .begin c => t.pendingOf c = []
  | .fetchBatch c => t.pendingOf c = [] ∧ (t.tx c).isSome
  | .upsertCompleted _ => ∀ row ∈ t.rows, ¬ Stale P row
  | .unwrapDek c row rest | .wrapDek c row rest _ | .updateWrappedDek c row rest _ =>
    (t.tx c).isSome ∧ Follows t.rows cursor (row :: rest)
  | _ => True

/-- Where a loop is; when it is over nothing is left uncommitted. -/
def TaskOk (P : StartRotationParams) (t : Table ι W) : Task ι W D → Prop
  | .waiting (.loop ℓ pc) => ℓ.Ok P t pc.client ∧ pc.Ok P t ℓ.cp.lastCheckpointId
  | .waiting _ => False
  | .done _ => ∀ c, t.pendingOf c = []

/-- Re-wrapped. -/
def OnNew (P : StartRotationParams) (row : EnvelopeRow ι W) : Prop := row.kekVersionId = P.newKek.id

/-! ## The loop keeps its cursor before the stale rows -/

section

variable {t t' : Table ι W} {ℓ : Loop ι} {c : Nat}

theorem Loop.Ok.quiet (h : ℓ.Ok P t none) (c : Nat) : t.pendingOf c = [] :=
  h.alone c (Option.some_ne_none c)

variable {row : EnvelopeRow ι W} {client : Option Nat}

/-- Without a client the cursor is before all stale rows. -/
theorem Loop.Ok.after (h : ℓ.Ok P t none) (hrow : row ∈ t.rows) (hstale : Stale P row) :
    After ℓ.cp.lastCheckpointId row.id :=
  (h.cursor row hrow hstale).resolve_right not_mem_nil

theorem Loop.Ok.of_none (h : ℓ.Ok P t none) (c : Nat) : ℓ.Ok P t (some c) where
  params := h.params
  alone c' _ := h.quiet c'
  cursor _ hrow hstale := .inl (h.after hrow hstale)
  completed := h.completed

theorem Loop.Ok.to_none (h : ℓ.Ok P t (some c)) (hc : t.pendingOf c = []) : ℓ.Ok P t none where
  params := h.params
  alone c' _ := by
    by_cases hcc : c' = c
    · rw [hcc, hc]
    · exact h.alone c' fun heq => hcc (Option.some.inj heq)
  cursor row hrow hstale := by
    have := h.cursor row hrow hstale
    rw [uncommitted, hc] at this
    exact this
  completed := h.completed

/-- Only the params, the cursor and whether it is completed matter. -/
theorem Loop.Ok.congr {ℓ' : Loop ι} (h : ℓ.Ok P t client) (hparams : ℓ'.params = ℓ.params)
    (hcursor : ℓ'.cp.lastCheckpointId = ℓ.cp.lastCheckpointId)
    (hstatus : ℓ'.cp.status = .completed → ℓ.cp.status = .completed) : ℓ'.Ok P t client where
  params := hparams.trans h.params
  alone := h.alone
  cursor := by
    rw [hcursor]
    exact h.cursor
  completed hdone := h.completed (hstatus hdone)

theorem Loop.Ok.failed (h : ℓ.Ok P t client) (err : Thrown) : (ℓ.failed err).Ok P t client := by
  refine h.congr rfl rfl ?_
  intro hdone
  cases hdone

/-- The cursor moves to the next row, which is not stale or already
re-wrapped. -/
theorem Loop.Ok.move {ℓ' : Loop ι} {rest : List (EnvelopeRow ι W)} (h : ℓ.Ok P t (some c))
    (hfollows : Follows t.rows ℓ.cp.lastCheckpointId (row :: rest))
    (hrow : Stale P row → row.id ∈ uncommitted t (some c)) (hparams : ℓ'.params = ℓ.params)
    (hcursor : ℓ'.cp.lastCheckpointId = some row.id) (hstatus : ℓ'.cp.status = ℓ.cp.status) :
    ℓ'.Ok P t (some c) where
  params := hparams.trans h.params
  alone := h.alone
  completed hdone := h.completed (hstatus ▸ hdone)
  cursor row' hrow' hstale := by
    rcases h.cursor row' hrow' hstale with hafter | hmem
    · rcases lt_or_ge row.id row'.id with hlt | hle
      · rw [hcursor]
        exact .inl fun last hlast => Option.some.inj hlast ▸ hlt
      · obtain ⟨hid, hversion⟩ := hfollows.1 row' hrow' hafter hle
        rw [hid]
        exact .inr (hrow (by rwa [Stale, ← hversion]))
    · exact .inr hmem

theorem nextRow_ok {batch : List (EnvelopeRow ι W)} (hopen : (t.tx c).isSome)
    (h : ℓ.Ok P t (some c)) (hfollows : Follows t.rows ℓ.cp.lastCheckpointId batch) :
    TaskOk (D := D) P t (.waiting (nextRow ℓ c batch)) := by
  induction batch generalizing ℓ with
  | nil => exact ⟨h, trivial⟩
  | cons row rest ih =>
    unfold nextRow
    split
    next htarget =>
      refine ih (h.move hfollows (fun hstale => ?_) rfl rfl rfl) hfollows.2
      rw [h.params] at htarget
      exact absurd htarget hstale.2
    · split
      next hother =>
        refine ih (h.move hfollows (fun hstale => ?_) rfl rfl rfl) hfollows.2
        rw [h.params] at hother
        exact absurd hstale.1 hother
      · exact ⟨h, hopen, hfollows⟩

/-! ### The batch -/

/-- A sorted list of all rows after the cursor, cut off anywhere. -/
theorem follows_take {rows l : List (EnvelopeRow ι W)} {cursor : Option ι}
    (hsorted : l.Pairwise fun row row' => row.id < row'.id)
    (hafter : ∀ row ∈ l, After cursor row.id)
    (hall : ∀ row ∈ rows, After cursor row.id → row ∈ l) (n : Nat) :
    Follows rows cursor (l.take n) := by
  induction l generalizing cursor n with
  | nil =>
    rw [take_nil]
    trivial
  | cons row l ih =>
    cases n with
    | zero => trivial
    | succ n =>
      obtain ⟨hhead, htail⟩ := pairwise_cons.mp hsorted
      refine ⟨?_, ih htail ?_ ?_ n⟩
      · intro row' hrow' hafter' hle
        rcases mem_cons.mp (hall row' hrow' hafter') with rfl | hmem
        · exact ⟨rfl, rfl⟩
        · exact absurd (hhead row' hmem) (not_lt.mpr hle)
      · intro row' hmem last hlast
        exact Option.some.inj hlast ▸ hhead row' hmem
      · intro row' hrow' hlt
        have hrow := hlt row.id rfl
        have hafter' : After cursor row'.id := fun last hlast =>
          (hafter row mem_cons_self last hlast).trans hrow
        rcases mem_cons.mp (hall row' hrow' hafter') with rfl | hmem
        · exact absurd hrow (lt_irrefl _)
        · exact hmem

section

variable {afterId : Option ι} (hown : t.pendingOf c = [])
  (hlocks : ∀ row ∈ t.rows, t.lockedByOther c row.id = false)

include hown in
theorem rowsAfter_perm :
    (rowsAfter t c afterId).Perm (t.rows.filter fun row =>
      After afterId row.id ∧ t.lockedByOther c row.id = false) := by
  have hseen : t.rows.map (t.seenBy EnvelopeRow.id c) = t.rows :=
    map_id'' (fun row => seenBy_of_pendingOf hown) t.rows
  unfold rowsAfter
  rw [hseen]
  exact perm_insertionSort _ _

include hown hlocks in
theorem mem_rowsAfter : row ∈ rowsAfter t c afterId ↔ row ∈ t.rows ∧ After afterId row.id := by
  rw [(rowsAfter_perm hown).mem_iff, mem_filter, decide_eq_true_eq]
  exact ⟨fun h => ⟨h.1, h.2.1⟩, fun h => ⟨h.1, h.2, hlocks row h.1⟩⟩

include hown in
theorem rowsAfter_sorted (hids : (t.rows.map EnvelopeRow.id).Nodup) :
    (rowsAfter t c afterId).Pairwise fun row row' => row.id < row'.id := by
  have hle : (rowsAfter t c afterId).Pairwise fun row row' => row.id ≤ row'.id :=
    have : Std.Total fun row row' : EnvelopeRow ι W => row.id ≤ row'.id :=
      ⟨fun row row' => le_total row.id row'.id⟩
    have : IsTrans (EnvelopeRow ι W) fun row row' => row.id ≤ row'.id := ⟨fun _ _ _ => le_trans⟩
    pairwise_insertionSort _ _
  have hne : ((rowsAfter t c afterId).map EnvelopeRow.id).Nodup :=
    ((rowsAfter_perm hown).map _).nodup_iff.mpr (hids.sublist (filter_sublist.map _))
  exact (hle.and (pairwise_map.mp hne)).imp fun h => lt_of_le_of_ne h.1 h.2

include hown hlocks in
/-- With nothing locked and nothing of its own, a batch is the rows that
follow the cursor; it is empty only if there are none. -/
theorem fetchBatch_spec {limit : Int} {batch : List (EnvelopeRow ι W)}
    (hids : (t.rows.map EnvelopeRow.id).Nodup) (h : fetchBatch t c afterId limit = .ok batch) :
    Follows t.rows afterId batch ∧
      (batch = [] → limit ≠ 0 → ∀ row ∈ t.rows, ¬ After afterId row.id) := by
  unfold fetchBatch at h
  split at h
  · cases h
  next hlimit =>
    cases h
    refine ⟨follows_take (rowsAfter_sorted hown hids) (fun row hrow => ?_)
      (fun row hrow hafter => (mem_rowsAfter hown hlocks).mpr ⟨hrow, hafter⟩) _, ?_⟩
    · exact ((mem_rowsAfter hown hlocks).mp hrow).2
    · intro hempty hne row hrow hafter
      have hnil : rowsAfter t c afterId = [] := by
        rcases take_eq_nil_iff.mp hempty with hzero | hnil
        · omega
        · exact hnil
      have hmem := (mem_rowsAfter hown hlocks).mpr ⟨hrow, hafter⟩
      rw [hnil] at hmem
      cases hmem

end

/-! ### One operation -/

/-- A stale row after a commit was there before, and not re-wrapped by
the transaction. -/
theorem stale_of_commit (hids : (t.rows.map EnvelopeRow.id).Nodup)
    (hnew : ∀ row ∈ t.pendingOf c, OnNew P row) (hrow : row ∈ (t.commit EnvelopeRow.id c).rows)
    (hstale : Stale P row) : row ∈ t.rows ∧ row.id ∉ uncommitted t (some c) := by
  rcases mem_applyWrites hids hrow with hmem | ⟨hmem, hne⟩
  · exact absurd (hnew row hmem) hstale.2
  · refine ⟨hmem, fun hid => ?_⟩
    obtain ⟨row', hrow', heq⟩ := mem_map.mp hid
    exact hne row' hrow' heq

/-- After a commit nothing is left uncommitted. -/
theorem Loop.Ok.commit (h : ℓ.Ok P t (some c)) (hids : (t.rows.map EnvelopeRow.id).Nodup)
    (hnew : ∀ row ∈ t.pendingOf c, OnNew P row) :
    ℓ.Ok P (t.commit EnvelopeRow.id c) none where
  params := h.params
  alone c' _ := by
    rw [pendingOf_commit]
    split
    · rfl
    next hne => exact h.alone c' fun heq => hne (Option.some.inj heq)
  cursor row hrow hstale := by
    obtain ⟨hmem, hnot⟩ := stale_of_commit hids hnew hrow hstale
    exact .inl ((h.cursor row hmem hstale).resolve_right hnot)
  completed hdone row hrow hstale :=
    h.completed hdone row (stale_of_commit hids hnew hrow hstale).1 hstale

theorem Loop.Ok.write (h : ℓ.Ok P t (some c)) (hopen : (t.tx c).isSome) :
    ℓ.Ok P (t.write EnvelopeRow.id c row) (some c) where
  params := h.params
  alone c' hne := by
    rw [pendingOf_write_ne fun heq => hne (congrArg some heq)]
    exact h.alone c' hne
  cursor row' hrow' hstale := by
    refine (h.cursor row' hrow' hstale).imp_right fun hmem => ?_
    rw [uncommitted, pendingOf_write hopen, map_append]
    exact mem_append_left _ hmem
  completed := h.completed

/-- What only rows and uncommitted writes decide. -/
theorem Loop.Ok.of_same (h : ℓ.Ok P t client) (hrows : t'.rows = t.rows)
    (hpending : ∀ c, t'.pendingOf c = t.pendingOf c) : ℓ.Ok P t' client where
  params := h.params
  alone c hne := (hpending c).trans (h.alone c hne)
  cursor := by
    have huncommitted : uncommitted t' client = uncommitted t client := by
      cases client with
      | none => rfl
      | some c => rw [uncommitted, uncommitted, hpending]
    rw [hrows, huncommitted]
    exact h.cursor
  completed := by
    rw [hrows]
    exact h.completed

theorem Loop.Ok.begin (h : ℓ.Ok P t client) : ℓ.Ok P (t.begin c) client :=
  h.of_same rows_begin fun _ => pendingOf_begin

theorem Loop.Ok.lock (h : ℓ.Ok P t client) (keys : List ι) : ℓ.Ok P (t.lock c keys) client :=
  h.of_same rfl fun _ => pendingOf_lock

/-- A `ROLLBACK` with nothing to undo. -/
theorem Loop.Ok.rollback (h : ℓ.Ok P t client) (hc : t.pendingOf c = []) :
    ℓ.Ok P (t.rollback c) client := by
  refine h.of_same rfl fun c' => ?_
  rw [pendingOf_rollback]
  split
  next heq => rw [heq, hc]
  · rfl

variable {s : Shared ι W} {e : Env ν} {pc : LoopPc ι W D}

/-- What is assumed of the table and of the operation. -/
structure Ready (P : StartRotationParams) (s : Shared ι W) (e : Env ν) (ℓ : Loop ι)
    (pc : LoopPc ι W D) : Prop where
  ids : (s.table.rows.map EnvelopeRow.id).Nodup
  onNew : ∀ c, ∀ row ∈ s.table.pendingOf c, OnNew P row
  limit : P.batchSize.getD 100 ≠ 0
  steady : pc.Steady e s.table
  loop : ℓ.Ok P s.table pc.client
  pc : pc.Ok P s.table ℓ.cp.lastCheckpointId

/-- Whether the call goes on or not, the operation leaves the cursor
before the stale rows. -/
theorem Ready.attempt_loop (h : Ready P s e ℓ pc) :
    ℓ.Ok P (attempt r e (.loop ℓ pc) s).1.table pc.client := by
  have hstep := attempt_table r e (.loop ℓ pc) s
  generalize (attempt r e (.loop ℓ pc) s).1.table = t' at hstep
  obtain ⟨hids, hnew, -, hsteady, hloop, hpc⟩ := h
  cases hstep with
  | same => exact hloop
  | begin => exact hloop.begin
  | lock keys => exact hloop.lock keys
  | write => exact hloop.write hpc.1
  | commitCompleted | commit => exact (hloop.commit hids (hnew _)).of_none _
  | rollback => exact hloop.rollback hsteady

theorem Ready.attempt_ok (h : Ready P s e ℓ pc) {task : Task ι W D}
    (hok : (attempt r e (.loop ℓ pc) s).2 = .ok task) :
    TaskOk P (attempt r e (.loop ℓ pc) s).1.table task := by
  obtain ⟨hids, hnew, hlimit, hsteady, hloop, hpc⟩ := h
  cases pc with
  | getLatest =>
    have htask := Except.ok.inj hok
    subst htask
    simp only [attempt, attemptLoop, afterLatest]
    split
    · exact hloop.quiet
    · split
      · exact hloop.quiet
      · split
        · exact hloop.quiet
        · exact ⟨hloop, trivial⟩
  | connect =>
    simp only [attempt, attemptLoop] at hok ⊢
    split at hok
    next hbusy =>
      cases hok
      rw [if_pos hbusy]
      exact ⟨hloop, trivial⟩
    next hfree =>
      cases hok
      rw [if_neg hfree]
      exact ⟨hloop.of_none _, hloop.quiet _⟩
  | begin c =>
    cases hok
    exact ⟨hloop.begin, pendingOf_begin.trans hpc, tx_begin⟩
  | fetchBatch c =>
    simp only [attempt, attemptLoop] at hok ⊢
    split at hok
    · cases hok
    next hbatch =>
      cases hok
      have hbatchSize : ℓ.batchSize ≠ 0 := by
        rw [Loop.batchSize, hloop.params]
        exact hlimit
      have hnone := (fetchBatch_spec hpc.1 hsteady hids hbatch).2 rfl hbatchSize
      have hdone : ∀ row ∈ s.table.rows, ¬ Stale P row := by
        intro row hrow hstale
        rcases hloop.cursor row hrow hstale with hafter | hmem
        · exact hnone row hrow hafter
        · rw [LoopPc.client, uncommitted, hpc.1] at hmem
          cases hmem
      exact ⟨⟨hloop.params, hloop.alone, hloop.cursor, fun _ => hdone⟩, hdone⟩
    next row rest hbatch =>
      cases hok
      refine nextRow_ok ?_ (hloop.lock _) (fetchBatch_spec hpc.1 hsteady hids hbatch).1
      exact (tx_isSome_within _).trans hpc.2
  | upsertCompleted | upsert | sleep =>
    cases hok
    exact ⟨hloop, trivial⟩
  | commitCompleted c =>
    cases hok
    exact (hloop.commit hids (hnew c)).quiet
  | unwrapDek c row rest =>
    simp only [attempt, attemptLoop] at hok ⊢
    split at hok
    · cases hok
    next dek hdek =>
      cases hok
      exact ⟨hloop, hpc⟩
  | wrapDek c row rest dek =>
    cases hok
    exact ⟨hloop, hpc⟩
  | updateWrappedDek c row rest newWrapped =>
    cases hok
    obtain ⟨hopen, hfollows⟩ := hpc
    refine nextRow_ok ?_ ((hloop.write hopen).move hfollows (fun _ => ?_) rfl rfl rfl) hfollows.2
    · exact (tx_isSome_within _).trans hopen
    · rw [uncommitted, pendingOf_write hopen, map_append]
      exact mem_append_right _ mem_cons_self
  | commit c =>
    cases hok
    exact ⟨hloop.commit hids (hnew c), trivial⟩
  | rollback c err =>
    cases hok
    have hnone : (s.table.rollback c).pendingOf c = [] := by
      rw [pendingOf_rollback, if_pos rfl]
    exact ⟨((hloop.rollback hsteady).to_none hnone).failed err, trivial⟩
  | upsertFailed err =>
    cases hok
    exact hloop.quiet

theorem Ready.caught_ok (h : Ready P s e ℓ pc) {err : Thrown}
    {s' : Shared ι W} (hs' : s' = s ∨ s' = (attempt r e (.loop ℓ pc) s).1) :
    TaskOk P s'.table (caught r err (.loop ℓ pc)) := by
  have hloop : ℓ.Ok P s'.table pc.client := by
    rcases hs' with rfl | rfl
    · exact h.loop
    · exact h.attempt_loop
  cases pc with
  | getLatest | connect => exact ⟨hloop.failed err, trivial⟩
  | unwrapDek | wrapDek =>
    simp only [caught, catchLoop]
    split <;> exact ⟨hloop.congr rfl rfl id, trivial⟩
  | rollback c err' =>
    have hnone : s'.table.pendingOf c = [] := by
      rcases hs' with rfl | rfl
      · exact h.steady
      · exact pendingOf_rollback.trans (if_pos rfl)
    exact ⟨(hloop.to_none hnone).failed err, trivial⟩
  | upsertFailed => exact hloop.quiet
  | _ => exact ⟨hloop, trivial⟩

omit [LinearOrder ι] in
theorem dropped_pendingOf {pc : Pc ι W D} (h : ∀ c, some c ≠ pc.client → s.table.pendingOf c = [])
    (c : Nat) : (dropped pc s).table.pendingOf c = [] := by
  unfold dropped
  split
  next client hclient =>
    refine pendingOf_rollback.trans ?_
    split
    · rfl
    next hne => exact h c fun heq => hne (Option.some.inj (heq.trans hclient))
  next hclient =>
    refine h c ?_
    rw [hclient]
    exact Option.some_ne_none c

/-- **One segment of a loop.** -/
theorem Ready.resume_ok (h : Ready P s e ℓ pc) :
    TaskOk P (resume r e (.loop ℓ pc) s).1.table (resume r e (.loop ℓ pc) s).2 := by
  rcases resume_cases r e (.loop ℓ pc) s with
    ⟨-, hok, -, htable⟩ | ⟨err, s', hs', hcaught, -, htable⟩ | ⟨effect, -, hstop, htable⟩
  · rw [htable]
    exact h.attempt_ok hok
  · rw [htable, hcaught]
    exact h.caught_ok hs'
  · rw [hstop, htable]
    refine dropped_pendingOf ?_
    cases effect
    · exact h.loop.alone
    · exact (h.attempt_loop (r := r)).alone

/-! ### Due rows -/

/-- The rows of a batch whose cursor may be stored already. -/
def sealed (t : Table ι W) : Task ι W D → List ι
  | .waiting (.loop _ (.commit c)) => uncommitted t (some c)
  | .waiting (.loop _ (.rollback c _)) => uncommitted t (some c)
  | _ => []

/-- Due as far as one call is concerned. -/
def DueFor (P : StartRotationParams) (t : Table ι W) (task : Task ι W D) (id : ι) : Prop :=
  (∃ row ∈ t.rows, row.id = id ∧ Stale P row) ∧ id ∉ sealed t task

/-- No operation makes a row stale. -/
theorem TableStep.stale {pc : Pc ι W D} (h : TableStep t pc t')
    (hids : (t.rows.map EnvelopeRow.id).Nodup) (hnew : ∀ c, ∀ row ∈ t.pendingOf c, OnNew P row)
    (hrow : row ∈ t'.rows) (hstale : Stale P row) : row ∈ t.rows := by
  cases h with
  | begin => rwa [rows_begin] at hrow
  | commitCompleted | commit => exact (stale_of_commit hids (hnew _) hrow hstale).1
  | same | lock | write | rollback => exact hrow

omit [LinearOrder ι] in
theorem dropped_rows (pc : Pc ι W D) : (dropped pc s).table.rows = s.table.rows := by
  unfold dropped
  split <;> rfl

theorem Ready.stale_of_resume (h : Ready P s e ℓ pc)
    (hrow : row ∈ (resume r e (.loop ℓ pc) s).1.table.rows) (hstale : Stale P row) :
    row ∈ s.table.rows := by
  have hattempt := fun hmem => (attempt_table r e (.loop ℓ pc) s).stale h.ids h.onNew hmem hstale
  exact resume_table_inv (I := fun t => row ∈ t.rows → row ∈ s.table.rows)
    (fun _ _ h => h) id hattempt hrow

/-- No segment makes a row due. -/
theorem Ready.due_of_resume (h : Ready P s e ℓ pc) {id : ι}
    (hdue : DueFor P (resume r e (.loop ℓ pc) s).1.table (resume r e (.loop ℓ pc) s).2 id) :
    DueFor P s.table (.waiting (.loop ℓ pc)) id := by
  obtain ⟨⟨row, hrow, rfl, hstale⟩, hnot⟩ := hdue
  refine ⟨⟨row, h.stale_of_resume hrow hstale, rfl, hstale⟩, ?_⟩
  cases pc with
  | commit c =>
    have hcommit : row ∈ (attempt r e (.loop ℓ (.commit c)) s).1.table.rows →
        row.id ∉ sealed s.table (.waiting (.loop ℓ (.commit (D := D) c))) :=
      fun hmem => (stale_of_commit h.ids (h.onNew c) hmem hstale).2
    rcases resume_cases r e (.loop ℓ (.commit c)) s with
      ⟨-, -, -, htable⟩ | ⟨err, s', hs', hcaught, -, htable⟩ | ⟨effect, hawait, -, htable⟩
    · exact hcommit (htable ▸ hrow)
    · rcases hs' with rfl | rfl
      · -- the `ROLLBACK` that follows holds the same rows
        rw [htable, hcaught] at hnot
        exact hnot
      · exact hcommit (htable ▸ hrow)
    · rw [htable, dropped_rows] at hrow
      cases effect
      · rw [sealed, uncommitted, h.steady hawait]
        exact not_mem_nil
      · exact hcommit hrow
  | rollback c err =>
    have hnone : s.table.pendingOf c = [] := h.steady
    rw [sealed, uncommitted, hnone]
    exact not_mem_nil
  | _ => exact not_mem_nil

/-! ### Stored checkpoints -/

/-- The checkpoint an operation stores. -/
def Pc.stores : Pc ι W D → Option (RotationCheckpoint ι)
  | .startUpsert _ cp | .pauseUpsert cp | .rollbackUpsert _ cp | .rollbackReset _ cp => some cp
  | .loop ℓ (.upsertCompleted _) | .loop ℓ (.upsert _) | .loop ℓ (.upsertFailed _) => some ℓ.cp
  | _ => none

theorem attempt_checkpoints {pc : Pc ι W D} :
    ∀ cp ∈ (attempt r e pc s).1.checkpoints, cp ∈ s.checkpoints ∨ pc.stores = some cp := by
  have hupsert : ∀ cp', ∀ cp ∈ (s.upsert cp').checkpoints,
      cp ∈ s.checkpoints ∨ some cp' = some cp :=
    fun cp' => KeyedList.forall_mem_put (.inr rfl) fun cp hcp => .inl hcp
  cases pc with
  | startUpsert params cp | pauseUpsert cp | rollbackUpsert params cp | rollbackReset params cp =>
    exact hupsert cp
  | loop ℓ pc =>
    cases pc with
    | upsertCompleted | upsert | upsertFailed => exact hupsert ℓ.cp
    | connect | fetchBatch | unwrapDek =>
      simp only [attempt, attemptLoop]
      split <;> exact fun cp hcp => .inl hcp
    | _ => exact fun cp hcp => .inl hcp
  | _ => exact fun cp hcp => .inl hcp

omit [LinearOrder ι] in
theorem dropped_checkpoints (pc : Pc ι W D) : (dropped pc s).checkpoints = s.checkpoints := by
  unfold dropped
  split <;> rfl

theorem resume_checkpoints {pc : Pc ι W D} : ∀ cp ∈ (resume r e pc s).1.checkpoints,
      cp ∈ s.checkpoints ∨ (pc.stores = some cp ∧ e.await ≠ .stops false) := by
  intro cp hcp
  by_cases hawait : e.await = .stops false
  · unfold resume at hcp
    rw [hawait] at hcp
    exact .inl (dropped_checkpoints pc ▸ hcp)
  · refine Or.imp_right (fun hstores => ⟨hstores, hawait⟩) ?_
    rcases resume_cases r e pc s with
      ⟨-, -, hstore, -⟩ | ⟨err, s', hs', -, hstore, -⟩ | ⟨effect, -, -, hdropped⟩
    · exact attempt_checkpoints cp (hstore ▸ hcp)
    · rw [hstore] at hcp
      rcases hs' with rfl | rfl
      · exact .inl hcp
      · exact attempt_checkpoints cp hcp
    · rw [hdropped, dropped_checkpoints] at hcp
      cases effect
      · exact .inl hcp
      · exact attempt_checkpoints cp hcp

/-- What a segment stores lies before the due rows, and is completed only
if no row is stale. -/
theorem Ready.stored_of_resume (h : Ready P s e ℓ pc) :
    ∀ cp ∈ (resume r e (.loop ℓ pc) s).1.checkpoints, cp ∈ s.checkpoints ∨
      ((∀ id, DueFor P (resume r e (.loop ℓ pc) s).1.table (resume r e (.loop ℓ pc) s).2 id →
          After cp.lastCheckpointId id) ∧
        (cp.status = .completed →
          ∀ row ∈ (resume r e (.loop ℓ pc) s).1.table.rows, ¬ Stale P row)) := by
  intro cp hcp
  refine (resume_checkpoints cp hcp).imp_right ?_
  rintro ⟨hstores, hawait⟩
  have hcompleted : ℓ.cp.status = .completed →
      ∀ row ∈ (resume r e (.loop ℓ pc) s).1.table.rows, ¬ Stale P row :=
    fun hdone row hrow hstale =>
      h.loop.completed hdone row (h.stale_of_resume hrow hstale) hstale
  cases pc with
  | upsertCompleted c =>
    cases hstores
    have hdone : ∀ row ∈ s.table.rows, ¬ Stale P row := h.pc
    refine ⟨?_, hcompleted⟩
    rintro id ⟨⟨row, hrow, -, hstale⟩, -⟩
    exact absurd hstale (hdone row (h.stale_of_resume hrow hstale))
  | upsertFailed err =>
    cases hstores
    refine ⟨?_, hcompleted⟩
    rintro id ⟨⟨row, hrow, rfl, hstale⟩, -⟩
    exact Loop.Ok.after h.loop (h.stale_of_resume hrow hstale) hstale
  | upsert c =>
    cases hstores
    refine ⟨?_, hcompleted⟩
    rintro id ⟨⟨row, hrow, rfl, hstale⟩, hnot⟩
    refine (h.loop.cursor row (h.stale_of_resume hrow hstale) hstale).resolve_right fun hmem => ?_
    -- the batch goes on to its `COMMIT` or its `ROLLBACK`, or is empty
    rcases resume_cases r e (.loop ℓ (.upsert c)) s with
      ⟨-, hok, -, htable⟩ | ⟨err, s', hs', hcaught, -, htable⟩ | ⟨effect, hstops, -, -⟩
    · rw [htable, ← Except.ok.inj hok] at hnot
      exact hnot hmem
    · rw [htable, hcaught] at hnot
      rcases hs' with rfl | rfl
      · exact hnot hmem
      · exact hnot hmem
    · cases effect
      · exact hawait hstops
      · rw [LoopPc.client, uncommitted, h.steady hstops] at hmem
        cases hmem
  | _ => cases hstores

end

end ChronoPay.KekRotation
