import ChronoPay.RefundSettlement

/-!
# RefundSettlementSafety — one submission for each refund

The status guard of a submission is read before its callback is awaited,
and a reconciliation writes into records it chose earlier. So nothing in
the code keeps two submissions of one refund apart, and nothing keeps a
late writer from a record that is settled by now. `submitted_once` says
when both are impossible: a submission starts only if the refund is
neither being submitted nor was submitted before, and reconciliations do
not overlap.

The invariant has a part for each kind of suspended call (`Expects`): a
submission in flight is the first one of its refund, and the records a
reconciliation still has to poll are on the chain and not final.
-/

namespace ChronoPay

open Coop KeyedList List Machine Option

namespace RefundSettlement

variable {minConfirmations : ℚ} {e : Env} {pc pc' : Pc} {s s' s'' : Store} {σ : State} {k : Cmd}
  {now : Int}
  {id : String} {ids ids' : List String} {r : RefundSettlementRecord}
  {f : RefundSettlementRecord → RefundSettlementRecord}

/-! ## Records -/

/-- How often a refund was submitted successfully. -/
def submissionsOf (s : Store) (id : String) : Nat :=
  s.submissions.countP fun submission => submission.1 = id

/-- The refund is on the chain, as far as its record knows. -/
def OnChain (status : RefundSettlementStatus) : Prop :=
  status = .settled ∨ status = .submitted ∨ status = .pendingFinality

instance (status : RefundSettlementStatus) : Decidable (OnChain status) :=
  inferInstanceAs (Decidable (_ ∨ _ ∨ _))

theorem Active.onChain {status : RefundSettlementStatus} (h : Active status) : OnChain status :=
  .inr h

/-- An update that leaves the key alone. -/
def KeepsKey (f : RefundSettlementRecord → RefundSettlementRecord) : Prop :=
  ∀ r, (f r).refundRequestId = r.refundRequestId

theorem keepsKey_submissionFailed {reason : String} : KeepsKey (submissionFailed reason now) := by
  intro r
  unfold submissionFailed
  dsimp only
  split <;> rfl

theorem keepsKey_applyFinality {txHash : String} {status : ChainFinalityStatus} :
    KeepsKey (applyFinality minConfirmations txHash now status) := by
  intro r
  unfold applyFinality
  dsimp only
  split
  · rfl
  · split
    · rfl
    · split <;> split <;> rfl

/-! ## Updates of some records -/

/-- Only the records of `ids` are updated, and nothing is submitted. -/
structure Touches (s s' : Store) (ids : List String) : Prop where
  submissions : s'.submissions = s.submissions
  keys : s'.records.map (fun r => r.refundRequestId) = s.records.map fun r => r.refundRequestId
  others : ∀ id, id ∉ ids → s'.get id = s.get id

theorem Touches.refl : Touches s s ids := ⟨rfl, rfl, fun _ _ => rfl⟩

theorem Touches.trans (h : Touches s s' ids) (h' : Touches s' s'' ids) : Touches s s'' ids where
  submissions := h'.submissions.trans h.submissions
  keys := h'.keys.trans h.keys
  others id hid := (h'.others id hid).trans (h.others id hid)

theorem Touches.mono (h : Touches s s' ids) (hsub : ids ⊆ ids') : Touches s s' ids' :=
  { h with others := fun id hid => h.others id fun hmem => hid (hsub hmem) }

theorem update_keys (hf : KeepsKey f) :
    (s.update id f).records.map (fun r => r.refundRequestId)
      = s.records.map fun r => r.refundRequestId :=
  map_key_modify hf

theorem get_update (hf : KeepsKey f) (id' : String) :
    (s.update id f).get id' = if id' = id then (s.get id').map f else s.get id' :=
  get_modify hf

theorem touches_update (hf : KeepsKey f) : Touches s (s.update id f) [id] where
  submissions := rfl
  keys := update_keys hf
  others id' hid' := by
    rw [get_update hf, if_neg fun heq => hid' (by simp [heq])]

/-- The status of every record is what it was. -/
def SameStatus (s s' : Store) : Prop :=
  ∀ id, (s'.get id).map (fun r => r.status) = (s.get id).map fun r => r.status

/-- The records are active, and no id is listed twice. -/
structure Watched (s : Store) (ids : List String) : Prop where
  distinct : ids.Nodup
  active : ∀ id ∈ ids, ∃ r, s.get id = some r ∧ Active r.status

theorem Watched.sublist (h : Watched s ids) (hsub : ids'.Sublist ids) : Watched s ids' where
  distinct := h.distinct.sublist hsub
  active id hid := h.active id (hsub.subset hid)

theorem Watched.of_status (h : Watched s ids)
    (hstatus : ∀ id ∈ ids, (s'.get id).map (fun r => r.status)
      = (s.get id).map fun r => r.status) : Watched s' ids where
  distinct := h.distinct
  active id hid := by
    obtain ⟨r, hr, hactive⟩ := h.active id hid
    have hsame := hstatus id hid
    rw [hr] at hsame
    obtain ⟨r', hr', hstatus'⟩ := map_eq_some_iff.mp hsame
    exact ⟨r', hr', by rw [hstatus']; exact hactive⟩

/-- The loop marks at most the record it polls next, and goes on with a
part of the list. -/
theorem pollNext_spec (now latestLedger : Int) (ids : List String) (s : Store) :
    Touches s (pollNext now latestLedger ids s).1 ids ∧
    SameStatus s (pollNext now latestLedger ids s).1 ∧
    ∀ pc, (pollNext now latestLedger ids s).2 = .waiting pc →
      ∃ id txHash rest, pc = .polling id txHash latestLedger rest ∧ (id :: rest).Sublist ids := by
  induction ids with
  | nil => exact ⟨.refl, fun _ => rfl, fun pc h => by cases h⟩
  | cons id rest ih =>
    simp only [pollNext]
    cases (s.get id).bind polledTx with
    | none =>
      obtain ⟨htouch, hstatus, hnext⟩ := ih
      refine ⟨htouch.mono (subset_cons_self _ _), hstatus, fun pc hpc => ?_⟩
      obtain ⟨id', txHash, rest', rfl, hsub⟩ := hnext pc hpc
      exact ⟨id', txHash, rest', rfl, hsub.cons _⟩
    | some txHash =>
      have hkey : KeepsKey fun r => { r with lastPolledAt := some now } := fun _ => rfl
      refine ⟨(touches_update hkey).mono (by simp), fun id' => ?_, fun pc hpc => ?_⟩
      · rw [get_update hkey]
        split
        · rw [Option.map_map]
          rfl
        · rfl
      · cases hpc
        exact ⟨id, txHash, rest, rfl, List.Sublist.refl _⟩

/-! ## What the store keeps -/

/-- No refund is submitted twice, and one on the chain was submitted. -/
structure Booked (s : Store) : Prop where
  distinct : (s.records.map fun r => r.refundRequestId).Nodup
  once : ∀ id, submissionsOf s id ≤ 1
  onChain : ∀ id r, s.get id = some r → OnChain r.status → submissionsOf s id = 1

theorem Booked.touches (h : Booked s) (hwatched : Watched s ids) (htouch : Touches s s' ids) :
    Booked s' := by
  have hcount : ∀ id, submissionsOf s' id = submissionsOf s id := by
    intro id
    rw [submissionsOf, htouch.submissions, submissionsOf]
  refine ⟨by rw [htouch.keys]; exact h.distinct, fun id => by rw [hcount]; exact h.once id, ?_⟩
  intro id r hr honChain
  rw [hcount]
  by_cases hid : id ∈ ids
  · -- it was on the chain before
    obtain ⟨old, hold, hactive⟩ := hwatched.active id hid
    exact h.onChain id old hold hactive.onChain
  · rw [htouch.others id hid] at hr
    exact h.onChain id r hr honChain

theorem Booked.submit {hash : String} (h : Booked s) (hfirst : submissionsOf s id = 0) :
    Booked { s.update id (submittedWith hash now) with
      submissions := s.submissions ++ [(id, hash)] } := by
  have hkey : KeepsKey (submittedWith hash now) := fun _ => rfl
  have hcount : ∀ id', submissionsOf { s.update id (submittedWith hash now) with
      submissions := s.submissions ++ [(id, hash)] } id'
        = submissionsOf s id' + if id = id' then 1 else 0 := by
    intro id'
    simp [submissionsOf, countP_append]
  refine ⟨(update_keys hkey).symm ▸ h.distinct, fun id' => ?_, fun id' r hr honChain => ?_⟩
  · rw [hcount]
    split
    next heq => rw [← heq, hfirst]
    · exact h.once id'
  · rw [hcount]
    split
    next heq => rw [← heq, hfirst]
    next hne =>
      have hget : (s.update id (submittedWith hash now)).get id' = some r := hr
      rw [get_update hkey, if_neg (Ne.symm hne)] at hget
      exact h.onChain id' r hget honChain

theorem Booked.submissionFailed {reason : String} (h : Booked s) (hfirst : submissionsOf s id = 0) :
    Booked (s.update id (RefundSettlement.submissionFailed reason now)) := by
  refine ⟨(update_keys keepsKey_submissionFailed).symm ▸ h.distinct, h.once, ?_⟩
  intro id' r hr honChain
  rw [get_update keepsKey_submissionFailed] at hr
  split at hr
  next heq =>
    subst heq
    obtain ⟨old, hold, rfl⟩ := map_eq_some_iff.mp hr
    have hoff : ¬ OnChain old.status := by
      intro hon
      have := h.onChain _ old hold hon
      omega
    -- a failed submission does not put the refund on the chain
    unfold submissionFailed at honChain
    dsimp only at honChain
    split at honChain
    · rcases honChain with h | h | h <;> cases h
    · exact absurd honChain hoff
  · exact h.onChain id' r hr honChain

theorem get_append_queued {entry : LedgerEntry} (hid : s.get id = some r) :
    ({ s with records := s.records ++ [queued now entry] } : Store).get id = some r := by
  have : KeyedList.get (fun r => r.refundRequestId) id s.records = some r := hid
  simp [Store.get, get_append, this]

theorem Booked.queue {entry : LedgerEntry} (h : Booked s)
    (hnew : s.get entry.refundRequestId = none) :
    Booked { s with records := s.records ++ [queued now entry] } := by
  have hfresh : ∀ r ∈ s.records, r.refundRequestId ≠ entry.refundRequestId := get_eq_none.mp hnew
  refine ⟨nodup_map_concat h.distinct hfresh, h.once, ?_⟩
  · intro id r hr honChain
    cases hold : s.get id with
    | some old =>
      rw [get_append_queued hold] at hr
      cases hr
      exact h.onChain id _ hold honChain
    | none =>
      -- the new record is not on the chain
      have hget : KeyedList.get (fun r => r.refundRequestId) id s.records = none := hold
      simp only [Store.get, get_append, hget, none_or, get_cons, get_nil] at hr
      split at hr
      · cases hr
        rcases honChain with h | h | h <;> cases h
      · cases hr

/-! ## What suspended calls rely on -/

/-- The records a reconciliation still has to deal with. -/
def watching : Pc → Option (List String)
  | .fetching active => some active
  | .polling id _ _ rest => some (id :: rest)
  | .start _ | .submitting _ => none

/-- What only one call at a time may do: submit a given refund, or
reconcile. -/
inductive Task where
  | submit (id : String)
  | reconcile
  deriving DecidableEq

def task : Pc → Option Task
  | .submitting id => some (.submit id)
  | .fetching _ | .polling .. => some .reconcile
  | .start _ => none

/-- A submission in flight is the first of its refund; a reconciliation
deals with active records. -/
def Expects (s : Store) : Pc → Prop
  | .start _ => True
  | .submitting id => submissionsOf s id = 0
  | .fetching active => Watched s active
  | .polling id _ _ rest => Watched s (id :: rest)

theorem expects_of_watching (h : watching pc = some ids) : Expects s pc ↔ Watched s ids := by
  cases pc with
  | start | submitting => cases h
  | fetching | polling =>
    cases h
    exact Iff.rfl

theorem task_of_watching (hids : watching pc = some ids) : task pc = some .reconcile := by
  cases pc with
  | start | submitting => cases hids
  | fetching | polling => rfl

/-- **Everything a segment can do.** A reconciliation touches records it
watches, and what it goes on with it may go on watching. -/
inductive Runs (e : Env) (s : Store) : Pc → Store → Coop.Task Pc Outcome → Prop where
  | answered {request : Request} (outcome : Outcome) : Runs e s (.start request) s (.done outcome)
  | queued {entry : LedgerEntry} (outcome : Outcome) (hnew : s.get entry.refundRequestId = none) :
      Runs e s (.start (.queueEscrowRefundSettlement entry))
        { s with records := s.records ++ [queued e.now entry] } (.done outcome)
  | submits {id : String} {r : RefundSettlementRecord} (hr : s.get id = some r)
      (hoff : ¬ OnChain r.status) :
      Runs e s (.start (.submitRefundToChain id)) s (.waiting (.submitting id))
  | reconciles : Runs e s (.start .reconcileRefunds) s (.waiting (.fetching
      ((s.records.filter fun r => Active r.status).map fun r => r.refundRequestId)))
  | submitted {id : String} (hash : String) (outcome : Outcome) :
      Runs e s (.submitting id)
        { s.update id (submittedWith hash e.now) with
          submissions := s.submissions ++ [(id, hash)] } (.done outcome)
  | failed {id : String} (reason : String) (outcome : Outcome) :
      Runs e s (.submitting id) (s.update id (submissionFailed reason e.now)) (.done outcome)
  | polled {pc : Pc} {ids : List String} {s' : Store} {t : Coop.Task Pc Outcome}
      (hids : watching pc = some ids) (htouch : Touches s s' ids)
      (hnext : ∀ pc', t = .waiting pc' →
        ∃ ids', watching pc' = some ids' ∧ (Watched s ids → Watched s' ids')) :
      Runs e s pc s' t

theorem pollNext_runs {rest : List String} (latestLedger : Int) (hids : watching pc = some ids)
    (htouch : Touches s s' ids) (hsub : rest ⊆ ids) (hrest : Watched s ids → Watched s' rest) :
    Runs e s pc (pollNext e.now latestLedger rest s').1 (pollNext e.now latestLedger rest s').2 := by
  obtain ⟨htouch', hstatus, hnext⟩ := pollNext_spec e.now latestLedger rest s'
  refine .polled hids (htouch.trans (htouch'.mono hsub)) fun pc' hpc' => ?_
  obtain ⟨id, txHash, rest', rfl, hsub'⟩ := hnext pc' hpc'
  exact ⟨_, rfl, fun h => ((hrest h).sublist hsub').of_status fun id _ => hstatus id⟩

theorem resume_runs (minConfirmations : ℚ) (e : Env) (pc : Pc) (s : Store) :
    Runs e s pc (resume minConfirmations e pc s).1 (resume minConfirmations e pc s).2 := by
  cases pc with
  | start request =>
    cases request with
    | queueEscrowRefundSettlement entry =>
      simp only [resume]
      cases hget : s.get entry.refundRequestId with
      | none => exact .queued _ hget
      | some existing => exact .answered _
    | submitRefundToChain id =>
      simp only [resume]
      cases hget : s.get id with
      | none => exact .answered _
      | some r =>
        dsimp only
        split
        · exact .answered _
        next hoff => exact .submits hget hoff
    | reconcileRefunds =>
      simp only [resume]
      split
      · exact .answered _
      · exact .reconciles
  | submitting id =>
    simp only [resume]
    cases e.submitXdr with
    | ok hash => exact .submitted hash _
    | error thrown => exact .failed thrown _
  | fetching active =>
    simp only [resume]
    cases e.latestLedger with
    | error thrown => exact .polled rfl .refl fun pc' h => by cases h
    | ok latestLedger => exact pollNext_runs latestLedger rfl .refl (List.Subset.refl _) id
  | polling id txHash latestLedger rest =>
    -- what the answer does to the polled record leaves the rest alone
    have hpoll : ∀ s', Touches s s' [id] →
        Runs e s (.polling id txHash latestLedger rest) (pollNext e.now latestLedger rest s').1
          (pollNext e.now latestLedger rest s').2 := by
      intro s' htouch
      refine pollNext_runs latestLedger rfl (htouch.mono (by simp)) (subset_cons_self _ _) ?_
      intro hwatched
      obtain ⟨hid, hrest⟩ := nodup_cons.mp hwatched.distinct
      refine (hwatched.sublist (sublist_cons_self _ _)).of_status fun id' hid' => ?_
      rw [htouch.others id' fun h => hid (mem_singleton.mp h ▸ hid')]
    simp only [resume]
    cases e.finality with
    | error thrown => exact hpoll s .refl
    | ok status => exact hpoll _ (touches_update keepsKey_applyFinality)

variable {t : Coop.Task Pc Outcome}

/-- A segment keeps the books, if it may rely on what it expects. -/
theorem Runs.booked (hruns : Runs e s pc s' t) (h : Booked s) (hpc : Expects s pc) : Booked s' := by
  cases hruns with
  | answered | submits | reconciles => exact h
  | queued outcome hnew => exact h.queue hnew
  | submitted hash outcome => exact h.submit hpc
  | failed reason outcome => exact h.submissionFailed hpc
  | polled hids htouch hnext => exact h.touches ((expects_of_watching hids).mp hpc) htouch

/-- A segment does not touch a settled record. -/
theorem Runs.settled (hruns : Runs e s pc s' t) (h : Booked s) (hpc : Expects s pc)
    (hr : s.get id = some r) (hsettled : r.status = .settled) :
    s'.get id = some r ∧ submissionsOf s' id = submissionsOf s id := by
  -- the submission in flight is of another refund
  have hne : ∀ id', pc = .submitting id' → id ≠ id' := by
    rintro id' rfl rfl
    rw [Expects, h.onChain id r hr (.inl hsettled)] at hpc
    cases hpc
  cases hruns with
  | answered | submits | reconciles => exact ⟨hr, rfl⟩
  | queued outcome hnew => exact ⟨get_append_queued hr, rfl⟩
  | @submitted id' hash outcome =>
    have hkey : KeepsKey (submittedWith hash e.now) := fun _ => rfl
    have hget : (s.update id' (submittedWith hash e.now)).get id = some r := by
      rw [get_update hkey, if_neg (hne id' rfl), hr]
    exact ⟨hget, by simp [submissionsOf, countP_append, Ne.symm (hne id' rfl)]⟩
  | failed reason outcome =>
    rw [get_update keepsKey_submissionFailed, if_neg (hne _ rfl)]
    exact ⟨hr, rfl⟩
  | @polled _ ids _ _ hids htouch hnext =>
    have hid : id ∉ ids := by
      intro hmem
      obtain ⟨r', hr', hactive⟩ := ((expects_of_watching hids).mp hpc).active id hmem
      rw [hr] at hr'
      cases hr'
      rw [hsettled] at hactive
      rcases hactive with h | h <;> cases h
    exact ⟨(htouch.others id hid).trans hr, by rw [submissionsOf, htouch.submissions, submissionsOf]⟩

/-! ## Runs -/

/-- A submission starts only if the refund is neither being submitted nor
was submitted before; a reconciliation, only if no other is under way. -/
def StartsAlone (σ : State) : Pc → Prop
  | .start (.submitRefundToChain id) => ∀ r ∈ σ.shared.get id, ¬ OnChain r.status →
      submissionsOf σ.shared id = 0 ∧ ∀ c ∈ σ.calls, heldBy task c ≠ some (.submit id)
  | .start .reconcileRefunds => ∀ c ∈ σ.calls, heldBy task c ≠ some .reconcile
  | .start (.queueEscrowRefundSettlement _) | .submitting _ | .fetching _ | .polling .. => True

instance (σ : State) : (pc : Pc) → Decidable (StartsAlone σ pc)
  | .start (.submitRefundToChain id) =>
    inferInstanceAs (Decidable (∀ r ∈ σ.shared.get id, ¬ OnChain r.status → _ ∧ ∀ c ∈ σ.calls, _))
  | .start .reconcileRefunds => inferInstanceAs (Decidable (∀ c ∈ σ.calls, _))
  | .start (.queueEscrowRefundSettlement _) | .submitting _ | .fetching _ | .polling .. =>
    .isTrue trivial

def Orderly (σ : State) (k : Cmd) : Prop := ∀ segment ∈ resumed σ k, StartsAlone σ segment.2

instance (σ : State) (k : Cmd) : Decidable (Orderly σ k) :=
  inferInstanceAs (Decidable (∀ segment ∈ resumed σ k, StartsAlone σ segment.2))

/-- The books, what every suspended call expects, and one call at a time
for each task. -/
structure Settling (σ : State) : Prop where
  booked : Booked σ.shared
  expects : Held Expects σ
  exclusive : Exclusive task σ

theorem settling_opened : Settling opened where
  booked := ⟨nodup_nil, fun _ => Nat.zero_le _, fun _ _ h => by cases h⟩
  expects c hc := by cases hc
  exclusive i j c c' t hi := by simp [opened] at hi

theorem Watched.update (h : Watched s ids) (hf : KeepsKey f) (hid : id ∉ ids) :
    Watched (s.update id f) ids :=
  h.of_status fun id' hid' => by
    have hne : id' ≠ id := by
      rintro rfl
      exact hid hid'
    rw [get_update hf, if_neg hne]

/-- A refund that is on the chain is not a first submission. -/
theorem Watched.not_mem (h : Watched s ids) (hbooked : Booked s)
    (hfirst : submissionsOf s id = 0) : id ∉ ids := by
  intro hid
  obtain ⟨r, hr, hactive⟩ := h.active id hid
  have := hbooked.onChain id r hr hactive.onChain
  omega

/-- What another call expects is not spoiled by a segment. -/
theorem Runs.frame (hruns : Runs e s pc s' t) (h : Booked s) (hpc : Expects s pc)
    (hpc' : Expects s pc') (hother : ∀ t, task pc = some t → task pc' ≠ some t) :
    Expects s' pc' := by
  -- a reconciliation only minds its records, a submission only its count
  have hframe : (∀ ids, watching pc' = some ids → Watched s ids → Watched s' ids) →
      (∀ id', pc' = .submitting id' → submissionsOf s' id' = submissionsOf s id') →
      Expects s' pc' := by
    intro hwatched hcount
    cases pc' with
    | start request => trivial
    | submitting id' => exact (hcount id' rfl).trans hpc'
    | fetching | polling => exact hwatched _ rfl hpc'
  cases hruns with
  | answered | submits | reconciles => exact hpc'
  | queued outcome hnew =>
    refine hframe (fun ids _ hwatched => ⟨hwatched.distinct, fun id hid => ?_⟩) fun _ _ => rfl
    obtain ⟨r, hr, hactive⟩ := hwatched.active id hid
    exact ⟨r, get_append_queued hr, hactive⟩
  | @submitted id hash outcome =>
    have hkey : KeepsKey (submittedWith hash e.now) := fun _ => rfl
    refine hframe (fun ids _ hwatched => ?_) fun id' hid' => ?_
    · obtain ⟨hdistinct, hactive⟩ := hwatched.update hkey (hwatched.not_mem h hpc)
      exact ⟨hdistinct, hactive⟩
    · have hne : id ≠ id' := by
        rintro rfl
        exact hother _ rfl (hid' ▸ rfl)
      simp [submissionsOf, countP_append, hne]
  | failed reason outcome =>
    exact hframe (fun ids _ hwatched =>
      hwatched.update keepsKey_submissionFailed (hwatched.not_mem h hpc)) fun _ _ => rfl
  | polled hids htouch hnext =>
    refine hframe (fun ids' hids' _ => ?_) fun id' _ => ?_
    · exact absurd (task_of_watching hids') (hother _ (task_of_watching hids))
    · rw [submissionsOf, htouch.submissions, submissionsOf]

theorem Settling.step (h : Settling σ) (hk : Orderly σ k) :
    Settling (step (reconciler minConfirmations) σ k) := by
  have hruns : ∀ e pc, Runs e σ.shared pc ((reconciler minConfirmations).resume e pc σ.shared).1
      ((reconciler minConfirmations).resume e pc σ.shared).2 :=
    fun e pc => resume_runs minConfirmations e pc σ.shared
  refine ⟨shared_step h.booked ?_, h.expects.step_others (fun _ _ => trivial) ?_ ?_,
    h.exclusive.step (fun _ => rfl) ?_⟩
  · intro e pc hresumed
    exact (hruns e pc).booked h.booked (h.expects.at_resumed hresumed)
  · intro e pc pc' hresumed hpc hnext
    have hseg := hruns e pc
    rw [hnext] at hseg
    generalize ((reconciler minConfirmations).resume e pc σ.shared).1 = s' at hseg
    cases hseg with
    | submits hr hoff => exact (hk _ hresumed _ hr hoff).1
    | reconciles =>
      refine ⟨h.booked.distinct.sublist (filter_sublist.map _), fun id hid => ?_⟩
      obtain ⟨r, hr, rfl⟩ := List.mem_map.mp hid
      obtain ⟨hmem, hactive⟩ := mem_filter.mp hr
      exact ⟨r, get_key_of_mem h.booked.distinct hmem, by simpa using hactive⟩
    | polled hids htouch hwatch =>
      obtain ⟨ids', hids', hwatched⟩ := hwatch pc' rfl
      exact (expects_of_watching hids').mpr (hwatched ((expects_of_watching hids).mp hpc))
  · intro i e q pc j q' pc' hki hi hne hj hpc hpc'
    refine (hruns e pc).frame h.booked hpc hpc' fun t ht ht' => hne ?_
    exact h.exclusive j i _ _ t hj hi ht' ht
  · intro e pc pc' t hresumed hnext ht
    have hseg := hruns e pc
    rw [hnext] at hseg
    generalize ((reconciler minConfirmations).resume e pc σ.shared).1 = s' at hseg
    cases hseg with
    | submits hr hoff =>
      cases ht
      exact .inr (hk _ hresumed _ hr hoff).2
    | reconciles =>
      cases ht
      exact .inr (hk _ hresumed)
    | polled hids htouch hwatch =>
      obtain ⟨ids', hids', -⟩ := hwatch pc' rfl
      exact .inl ((task_of_watching hids).trans ((task_of_watching hids').symm.trans ht))

/-- A settled refund is left as it is, and is not submitted again. -/
def SettledStays (minConfirmations : ℚ) (σ : State) (k : Cmd) : Prop :=
  ∀ id r, σ.shared.get id = some r → r.status = .settled →
    (step (reconciler minConfirmations) σ k).shared.get id = some r ∧
    submissionsOf (step (reconciler minConfirmations) σ k).shared id
      = submissionsOf σ.shared id

theorem Settling.settledStays (h : Settling σ) : SettledStays minConfirmations σ k := by
  intro id r hr hsettled
  refine shared_step
    (I := fun s => s.get id = some r ∧ submissionsOf s id = submissionsOf σ.shared id) ⟨hr, rfl⟩ ?_
  intro e pc hresumed
  exact (resume_runs minConfirmations e pc σ.shared).settled h.booked
    (h.expects.at_resumed hresumed) hr hsettled

/-- **At most one submission for each refund, and settled is final**, for
every interleaving of orderly submissions and reconciliations. -/
theorem submitted_once (minConfirmations : ℚ) (ks : List Cmd)
    (hks : Along (step (reconciler minConfirmations)) Orderly opened ks) :
    Always (step (reconciler minConfirmations))
      (fun σ => ∀ id, submissionsOf σ.shared id ≤ 1) opened ks ∧
    Along (step (reconciler minConfirmations)) (SettledStays minConfirmations)
      opened ks :=
  ⟨(always_of_along (I := Settling) (fun _ _ h hk => h.step hk) settling_opened
      hks).mono fun _ h => h.booked.once,
    along_of_inv (I := Settling) (fun _ _ h hk => h.step hk)
      (fun _ _ h _ => h.settledStays) settling_opened hks⟩

/-- A refund that is queued. -/
def queueOne : List Cmd :=
  [.call (.queueEscrowRefundSettlement { refundRequestId := "r-1" }), .resume 0 {}]

/-- It is submitted, found final, and a second submission comes late. -/
def settleOne : List Cmd := queueOne ++
  [.call (.submitRefundToChain "r-1"), .resume 1 {}, .resume 1 { submitXdr := .ok "tx-1" },
   .call .reconcileRefunds, .resume 2 {}, .resume 2 {},
   .resume 2 { finality := .ok { found := true, successful := some true, confirmations := 3 } },
   .call (.submitRefundToChain "r-1"), .resume 3 {}]

theorem submitted_once_settleOne : Along (step (reconciler 3)) Orderly opened settleOne ∧
    Always (step (reconciler 3)) (fun σ => ∀ id, submissionsOf σ.shared id ≤ 1)
      opened settleOne := by
  have h : Along (step (reconciler 3)) Orderly opened settleOne := by
    decide +kernel
  exact ⟨h, (submitted_once 3 settleOne h).1⟩

/-- Two submissions of one refund at once. -/
def submitTwice : List Cmd := queueOne ++
  [.call (.submitRefundToChain "r-1"), .call (.submitRefundToChain "r-1"),
   .resume 1 {}, .resume 2 {},
   .resume 1 { submitXdr := .ok "tx-1" }, .resume 2 { submitXdr := .ok "tx-2" }]

/-- **Both find the refund pending, and both succeed.** -/
theorem submitTwice_submits_twice :
    submissionsOf (Coop.run (reconciler 3) opened submitTwice).shared "r-1" = 2 := by
  decide +kernel

end RefundSettlement

end ChronoPay
