import ChronoPay.KekRotation

/-!
# KekRotationSafety — no data key is lost

Whatever calls overlap, in whatever directions, and wherever they fail:
each committed row's wrapped key unwraps, under the KEK its own version
column names, to the row's original data key.

The invariant is about single rows and does not mention the other calls.
A row that was read with its key and version fitting each other stays
such a row, even once the table has moved on, so what is derived from it
fits too. The locks are not needed for this.
-/

namespace ChronoPay.KekRotation

open Coop List

variable {ι W D ν : Type} [LinearOrder ι] {r : Runner W D ν} {orig : ι → D}

/-- The row's wrapped key is its original key, under the KEK it names. -/
def Fits (kms : KeyManagementService W D ν) (orig : ι → D) (row : EnvelopeRow ι W) : Prop :=
  kms.unwrapDek row.wrappedDek ⟨row.kekVersionId⟩ = .ok (orig row.id)

/-- What a suspended call holds of the table. -/
def Pc.Fits (kms : KeyManagementService W D ν) (orig : ι → D) : Pc ι W D → Prop
  | .loop ℓ (.unwrapDek _ row rest) =>
    (∀ row' ∈ row :: rest, KekRotation.Fits kms orig row') ∧ row.kekVersionId = ℓ.params.oldKek.id
  | .loop _ (.wrapDek _ row rest dek) =>
    (∀ row ∈ rest, KekRotation.Fits kms orig row) ∧ dek = orig row.id
  | .loop ℓ (.updateWrappedDek _ row rest newWrapped) =>
    (∀ row ∈ rest, KekRotation.Fits kms orig row) ∧
      kms.unwrapDek newWrapped ℓ.params.newKek = .ok (orig row.id)
  | _ => True

abbrev TableFits (kms : KeyManagementService W D ν) (orig : ι → D)
    (t : TxTable (EnvelopeRow ι W) ι) : Prop :=
  t.Holds (Fits kms orig) (Fits kms orig)

theorem mem_fetchBatch {P : EnvelopeRow ι W → Prop} {t : TxTable (EnvelopeRow ι W) ι}
    {client : Nat} {afterId : Option ι} {limit : Int} {batch : List (EnvelopeRow ι W)}
    (hrows : t.Holds P P) (h : fetchBatch t client afterId limit = .ok batch) :
    ∀ row ∈ batch, P row := by
  unfold fetchBatch rowsAfter at h
  split at h
  · cases h
  · cases h
    intro row hrow
    have hsorted := mem_insertionSort _ |>.mp (mem_of_mem_take hrow)
    obtain ⟨row', hrow', rfl⟩ := mem_map.mp (mem_filter.mp hsorted).1
    exact TxTable.seenBy_inv (hrows.rows row' hrow') (hrows.pending client)

omit [LinearOrder ι] in
theorem nextRow_fits {kms : KeyManagementService W D ν} (client : Nat)
    {batch : List (EnvelopeRow ι W)} (h : ∀ row ∈ batch, Fits kms orig row) (ℓ : Loop ι) :
    (nextRow (D := D) ℓ client batch).Fits kms orig := by
  induction batch generalizing ℓ with
  | nil => trivial
  | cons row rest ih =>
    have hrest := fun row' hrow' => h row' (mem_cons_of_mem row hrow')
    unfold nextRow
    split
    · exact ih hrest _
    · split
      · exact ih hrest _
      next hsource => exact ⟨h, not_not.mp hsource⟩

variable {pc pc' : Pc ι W D} {s : Shared ι W}

/-- An operation that resolves leaves its call with what fits. -/
theorem attempt_fits (hkms : ∀ n d k, r.kms.unwrapDek (r.kms.wrapDek n d k) k = .ok d) {e : Env ν}
    (htable : TableFits r.kms orig s.table) (hpc : pc.Fits r.kms orig)
    (h : (attempt r e pc s).2 = .ok (.waiting pc')) : pc'.Fits r.kms orig := by
  cases pc with
  | loop ℓ pc =>
    cases pc with
    | fetchBatch client =>
      simp only [attempt, attemptLoop] at h
      split at h
      · cases h
      · cases h
        trivial
      next row rest hbatch =>
        cases h
        exact nextRow_fits client (mem_fetchBatch htable hbatch) ℓ
    | unwrapDek client row rest =>
      obtain ⟨hrows, hsource⟩ := hpc
      obtain ⟨hrow, hrest⟩ := forall_mem_cons.mp hrows
      simp only [attempt, attemptLoop] at h
      split at h
      · cases h
      next dek hdek =>
        cases h
        -- the row names the KEK it was unwrapped under
        rw [Fits, hsource] at hrow
        exact ⟨hrest, Except.ok.inj (hdek.symm.trans hrow)⟩
    | wrapDek client row rest dek =>
      obtain ⟨hrest, rfl⟩ := hpc
      cases h
      exact ⟨hrest, hkms e.nonce (orig row.id) ℓ.params.newKek⟩
    | updateWrappedDek client row rest newWrapped =>
      cases h
      exact nextRow_fits client hpc.1 _
    | getLatest =>
      simp only [attempt, attemptLoop, afterLatest] at h
      split at h
      · cases h
      · split at h
        · cases h
        · split at h
          · cases h
          · cases h
            trivial
    | connect =>
      simp only [attempt, attemptLoop] at h
      split at h <;> cases h <;> trivial
    | _ => cases h <;> trivial
  | start params =>
    simp only [attempt, afterStart, failWith] at h
    split at h
    · split at h
      · cases h
      · split at h
        · cases h
        · cases h
          trivial
    · cases h
      trivial
  | pause | resume | rollback =>
    simp only [attempt, required, afterPause, afterResume, afterRollback, failWith] at h
    split at h
    · split at h
      · cases h
      · cases h
        trivial
    · cases h
  | _ => cases h <;> trivial

omit [LinearOrder ι] in
theorem caught_fits {err : Thrown} (h : caught r err pc = .waiting pc') : pc'.Fits r.kms orig := by
  cases pc with
  | loop ℓ pc =>
    cases pc with
    | unwrapDek | wrapDek =>
      simp only [caught, catchLoop] at h
      split at h <;> cases h <;> trivial
    | _ => cases h <;> trivial
  | _ => cases h

theorem resume_fits (hkms : ∀ n d k, r.kms.unwrapDek (r.kms.wrapDek n d k) k = .ok d) {e : Env ν}
    (htable : TableFits r.kms orig s.table) (hpc : pc.Fits r.kms orig)
    (h : (resume r e pc s).2 = .waiting pc') : pc'.Fits r.kms orig := by
  rcases resume_cases r e pc s with ⟨-, hok, -⟩ | ⟨err, s', -, hcaught, -⟩ | ⟨effect, -, hstop, -⟩
  · exact attempt_fits hkms htable hpc (h ▸ hok)
  · exact caught_fits (hcaught.symm.trans h)
  · cases hstop.symm.trans h

/-- No operation of a call that holds what fits spoils the table. -/
theorem TableStep.fits {t t' : TxTable (EnvelopeRow ι W) ι} (h : TableStep t pc t')
    (htable : TableFits r.kms orig t) (hpc : pc.Fits r.kms orig) : TableFits r.kms orig t' := by
  cases h with
  | same => exact htable
  | begin => exact htable.begin
  | lock keys => exact htable.lock
  | write => exact htable.write hpc.2
  | commitCompleted | commit => exact htable.commit fun _ => id
  | rollback => exact htable.rollback

structure Kept (kms : KeyManagementService W D ν) (orig : ι → D) (ids : List ι)
    (σ : State ι W D) : Prop where
  ids : σ.shared.table.rows.map EnvelopeRow.id = ids
  table : TableFits kms orig σ.shared.table
  held : Held (fun _ => Pc.Fits kms orig) σ

theorem Kept.step (hkms : ∀ n d k, r.kms.unwrapDek (r.kms.wrapDek n d k) k = .ok d)
    {ids : List ι} {σ : State ι W D} (h : Kept r.kms orig ids σ) (k : Cmd ν) :
    Kept r.kms orig ids (Coop.step (service r) σ k) where
  ids := shared_step (I := fun s : Shared ι W => s.table.rows.map EnvelopeRow.id = ids) h.ids
    fun e pc _ => resume_table_inv (I := fun t => t.rows.map EnvelopeRow.id = ids) (fun _ _ h => h)
      h.ids ((attempt_table r e pc σ.shared).map_id.trans h.ids)
  table := shared_step (I := fun s : Shared ι W => TableFits r.kms orig s.table) h.table
    fun e pc hk => resume_table_inv (fun _ _ h => h.rollback) h.table
      ((attempt_table r e pc σ.shared).fits h.table (h.held.at_resumed hk))
  held := by
    refine h.held.step ?_ ?_ fun _ _ _ _ _ => id
    · intro q
      cases q <;> trivial
    · exact fun e pc pc' _ hpc hnext => resume_fits hkms h.table hpc hnext

/-- For every run of `start`, `pause`, `resume` and `rollback`, with any
overlap and any failures: the table has the rows it had, and each wrapped
key unwraps under the KEK of its own row to the row's original key. -/
theorem committed_rows_fit (r : Runner W D ν)
    (hkms : ∀ n d k, r.kms.unwrapDek (r.kms.wrapDek n d k) k = .ok d) (orig : ι → D)
    (rows : List (EnvelopeRow ι W))
    (hrows : ∀ row ∈ rows, r.kms.unwrapDek row.wrappedDek ⟨row.kekVersionId⟩ = .ok (orig row.id))
    (ks : List (Cmd ν)) :
    (Coop.run (service r) (opened rows) ks).shared.table.rows.map EnvelopeRow.id
        = rows.map EnvelopeRow.id ∧
      ∀ row ∈ (Coop.run (service r) (opened rows) ks).shared.table.rows,
        r.kms.unwrapDek row.wrappedDek ⟨row.kekVersionId⟩ = .ok (orig row.id) := by
  have hopened : Kept r.kms orig (rows.map EnvelopeRow.id) (opened rows) :=
    ⟨rfl, ⟨hrows, fun _ _ ha => absurd ha not_mem_nil⟩, forall_mem_nil _⟩
  have hkept := Machine.run_inv (fun _ k h => h.step hkms k) hopened ks
  exact ⟨hkept.ids, hkept.table.rows⟩

/-- A rotation that is rolled back while it is re-wrapping the second
row: the reverse loop takes the first row back, and the second is
committed after that. -/
def crossed : List (Cmd Unit) :=
  let params := { firstToSecond with batchSize := some 1 }
  .call (.start params) :: List.replicate 15 (.resume 0 (onClient 0)) ++
    .call (.rollback params) :: List.replicate 12 (.resume 1 (onClient 1)) ++
    List.replicate 5 (.resume 0 (onClient 0))

theorem committed_rows_fit_crossed :
    (Coop.run (service { kms := tagged }) (opened twoRows) crossed).shared.table.rows.map
        EnvelopeRow.kekVersionId = ["kek-1", "kek-2"] ∧
      ∀ row ∈ (Coop.run (service { kms := tagged }) (opened twoRows) crossed).shared.table.rows,
        tagged.unwrapDek row.wrappedDek ⟨row.kekVersionId⟩ = .ok (11 * row.id) :=
  ⟨by decide +kernel, (committed_rows_fit { kms := tagged } (by simp [tagged])
    (fun id => 11 * id) twoRows (by decide) crossed).2⟩

end ChronoPay.KekRotation
