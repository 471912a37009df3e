import ChronoPay.ReversalSafety

/-!
# ReversalReleases — escrow releases of appends that do not go through

An append calls the release hook BEFORE it checks the balance and before
its key is known to be free, and neither undoes the call. A release is
followed by the entry that carries its transaction when it is made for an
append that would go through at that moment, and nothing that concerns
it is inserted before its own entry (`releases_persisted`).

`Promised` is what such an append knows at each of its suspensions, and
`Followed` what it has achieved when it is done.
-/

namespace ChronoPay

open List

namespace CancellationReversal

open Coop Machine ReversalRepository

variable {deps : Deps} {e : Env} {pc : Pc} {repo : ReversalRepository} {σ : State} {k : Cmd}
  {entry : CancellationReversalEntry} {input : InsertCancellationReversalInput}

/-! ## What a release relies on -/

/-- What an append needs of the ledger to go through. -/
structure Terms where
  idempotencyKey : String
  bookingIntentId : String
  currency : SupportedCurrency
  amountCents : ℚ

def inputTerms (input : InsertCancellationReversalInput) : Terms :=
  ⟨input.idempotencyKey, input.bookingIntentId, input.currency, input.amountCents⟩

def entryTerms (entry : CancellationReversalEntry) : Terms :=
  ⟨entry.idempotencyKey, entry.bookingIntentId, entry.currency, entry.amountCents⟩

/-- The key is not taken and the amount fits, as things are now. -/
structure Payable (deps : Deps) (repo : ReversalRepository) (terms : Terms) : Prop where
  unused : ∀ e ∈ repo.byId, e.idempotencyKey ≠ terms.idempotencyKey
  fits : ∀ net ∈ deps.netRefundLookup,
    ∃ netRefund ∈ net terms.bookingIntentId terms.currency,
      repo.sumReversalCents terms.bookingIntentId terms.currency + terms.amountCents = -netRefund

instance (deps : Deps) (repo : ReversalRepository) (terms : Terms) :
    Decidable (Payable deps repo terms) :=
  decidable_of_iff
    ((∀ e ∈ repo.byId, e.idempotencyKey ≠ terms.idempotencyKey) ∧
      ∀ net ∈ deps.netRefundLookup,
        ∃ netRefund ∈ net terms.bookingIntentId terms.currency,
          repo.sumReversalCents terms.bookingIntentId terms.currency + terms.amountCents
            = -netRefund)
    ⟨fun h => ⟨h.1, h.2⟩, fun h => ⟨h.unused, h.fits⟩⟩

/-- The append for which a segment calls the hook. -/
def releasesFor : Pc → Option Terms
  | .tipped input _ =>
    if input.escrowReleased = true ∧ input.escrowReleaseTxId.isNone = true then
      some (inputTerms input)
    else none
  | _ => none

/-- The append that has called the hook and not yet inserted its entry. -/
def owing : Pc → Option Terms
  | .releasing input _ => some (inputTerms input)
  | .summed (some _) entry _ | .netted (some _) entry _ _ | .certified (some _) entry
  | .conflicted (some _) entry | .reread (some _) entry _ => some (entryTerms entry)
  | _ => none

/-- What is owed by the calls other than the resumed one. -/
def owedByOthers (σ : State) : Cmd → List Terms
  | .call _ => []
  | .resume i _ => (σ.calls.eraseIdx i).filterMap fun c =>
    match c.task with
    | .waiting pc => owing pc
    | .done _ => none

/-- Behind a release nothing fails that is not about the ledger's state:
the clock can be rendered, the policy lookup answers, and the hash is new. -/
def NoFault (repo : ReversalRepository) (e : Env) : Pc → Prop
  | .releasing _ _ => Result.Ok e.releaseEscrow → (IsoDate.toISOString e.now).isSome = true
  | .netted (some _) _ _ _ => e.netRefundThrew = none
  | .certified (some _) entry => ∀ stored ∈ repo.byId, stored.entryHash ≠ entry.entryHash
  | _ => True

instance (repo : ReversalRepository) (e : Env) (pc : Pc) : Decidable (NoFault repo e pc) :=
  match pc with
  | .releasing _ _ => inferInstanceAs (Decidable (_ → _ = true))
  | .netted (some _) _ _ _ => inferInstanceAs (Decidable (_ = none))
  | .certified (some _) _ => inferInstanceAs (Decidable (∀ stored ∈ repo.byId, _ ≠ _))
  | .start _ | .currency _ | .searched _ _ | .tipped _ _ | .summed _ _ _ | .netted none _ _ _
  | .certified none _ | .conflicted _ _ | .reread _ _ _ => .isTrue trivial

/-- A command releases only for an append that would go through now, and
inserts nothing that gets in the way of an append that has released. -/
structure Undisturbed (deps : Deps) (σ : State) (k : Cmd) : Prop where
  fresh : FreshIds σ k
  release : ∀ segment ∈ resumed σ k, ∀ terms ∈ releasesFor segment.2, Payable deps σ.shared terms
  faultless : ∀ segment ∈ resumed σ k, NoFault σ.shared segment.1 segment.2
  others : ∀ entry ∈ inserts σ k, ∀ terms ∈ owedByOthers σ k,
    entry.idempotencyKey ≠ terms.idempotencyKey ∧
      ¬ (entry.bookingIntentId = terms.bookingIntentId ∧ entry.currency = terms.currency)

instance (deps : Deps) (σ : State) (k : Cmd) : Decidable (Undisturbed deps σ k) :=
  decidable_of_iff
    (FreshIds σ k ∧
      (∀ segment ∈ resumed σ k, ∀ terms ∈ releasesFor segment.2, Payable deps σ.shared terms) ∧
      (∀ segment ∈ resumed σ k, NoFault σ.shared segment.1 segment.2) ∧
      ∀ entry ∈ inserts σ k, ∀ terms ∈ owedByOthers σ k,
        entry.idempotencyKey ≠ terms.idempotencyKey ∧
          ¬ (entry.bookingIntentId = terms.bookingIntentId ∧ entry.currency = terms.currency))
    ⟨fun h => ⟨h.1, h.2.1, h.2.2.1, h.2.2.2⟩, fun h => ⟨h.fresh, h.release, h.faultless, h.others⟩⟩

/-- What an append that has released knows until it has inserted: it can
still be paid, and what it read is up to date. -/
def Promised (deps : Deps) (repo : ReversalRepository) : Pc → Prop
  | .releasing input _ => Payable deps repo (inputTerms input)
  | .summed (some txId) entry existingSum =>
    entry.escrowReleaseTxId = some txId ∧ Payable deps repo (entryTerms entry) ∧
      existingSum = repo.sumReversalCents entry.bookingIntentId entry.currency
  | .netted (some txId) entry projectedSum netRefund =>
    entry.escrowReleaseTxId = some txId ∧ Payable deps repo (entryTerms entry) ∧
      projectedSum = repo.sumReversalCents entry.bookingIntentId entry.currency
        + entry.amountCents ∧
      ∃ net ∈ deps.netRefundLookup, netRefund = net entry.bookingIntentId entry.currency
  | .certified (some txId) entry =>
    entry.escrowReleaseTxId = some txId ∧ Payable deps repo (entryTerms entry)
  | .conflicted (some _) _ | .reread (some _) _ _ => False
  | _ => True

/-- A release came with the persisted entry that carries its transaction. -/
def Followed (repo : ReversalRepository) (outcome : Outcome) : Prop :=
  ∀ txId ∈ outcome.released, ∃ entry ∈ repo.byId,
    outcome.answer = .ok (.persisted entry) ∧ entry.escrowReleaseTxId = some txId

theorem followed_of_none {answer : Except ReversalError Appended} :
    Followed repo ⟨none, answer⟩ := by
  intro txId h
  cases h

/-- What a segment leaves of a release. -/
def Honoured (deps : Deps) : Segment → Prop
  | (repo, .waiting pc) => Promised deps repo pc
  | (repo, .done outcome) => Followed repo outcome

theorem Honoured.promised {segment : Segment} (h : Honoured deps segment)
    (hpc : segment.2 = .waiting pc) : Promised deps segment.1 pc := by
  obtain ⟨repo, task⟩ := segment
  obtain rfl : task = .waiting pc := hpc
  exact h

theorem Honoured.followed {segment : Segment} {outcome : Outcome} (h : Honoured deps segment)
    (hdone : segment.2 = .done outcome) : Followed segment.1 outcome := by
  obtain ⟨repo, task⟩ := segment
  obtain rfl : task = .done outcome := hdone
  exact h

/-- **A release is kept**: the segment of an append that has released goes
on, or stores the entry. -/
theorem honoured_resume (hpc : Promised deps repo pc)
    (hrelease : ∀ terms ∈ releasesFor pc, Payable deps repo terms)
    (hfault : NoFault repo e pc)
    (hfresh : ∀ entry, inserting pc = some entry → repo.Insertable entry → repo.FreshId entry) :
    Honoured deps (resume deps e pc repo) := by
  have hran := resume_ran deps e pc repo
  generalize resume deps e pc repo = segment at hran
  cases hran with
  | refused => exact followed_of_none
  | unpaused | guarded | tipped | built => trivial
  | hooked input prevHash hreleased hnone =>
    exact hrelease _ (by simp [releasesFor, hreleased, hnone])
  | released input prevHash txId htx entry hentry =>
    obtain ⟨entryHash, -, rfl⟩ := Option.map_eq_some_iff.mp hentry
    exact ⟨rfl, hpc, rfl⟩
  | undated input prevHash txId htx hentry =>
    obtain ⟨iso, hiso⟩ := Option.isSome_iff_exists.mp (hfault ⟨txId, htx⟩)
    simp [buildEntry, deriveReversalEntryHash, hiso] at hentry
  | unchecked released | certified released =>
    cases released with
    | none => trivial
    | some txId => exact ⟨hpc.1, hpc.2.1⟩
  | netted released entry existingSum net hlookup =>
    cases released with
    | none => trivial
    | some txId =>
      obtain ⟨htx, hpay, rfl⟩ := hpc
      exact ⟨htx, hpay, rfl, net, hlookup, rfl⟩
  | threw released entry projectedSum netRefund thrown hthrew =>
    cases released with
    | none => exact followed_of_none
    | some txId =>
      have hanswers : e.netRefundThrew = none := hfault
      rw [hanswers] at hthrew
      cases hthrew
  | violated released entry projectedSum netRefund err herr =>
    cases released with
    | none => exact followed_of_none
    | some txId =>
      obtain ⟨-, hpay, rfl, net, hnet, rfl⟩ := hpc
      -- an amount that fits passes the check
      obtain ⟨netRefund, hmem, hsum⟩ := hpay.fits net hnet
      have hsome : net entry.bookingIntentId entry.currency = some netRefund := hmem
      rw [hsome] at herr
      cases herr.symm.trans (Result.require_eq_ok (u := ()).mpr hsum)
  | stored released entry hins =>
    intro txId htxId
    obtain rfl : released = some txId := htxId
    refine ⟨entry, ?_, rfl, hpc.1⟩
    rw [store_byId (hfresh entry rfl hins)]
    exact mem_append_right _ (mem_singleton.mpr rfl)
  | conflicted released entry hins =>
    cases released with
    | none => trivial
    | some txId =>
      exact hins fun stored hstored => ⟨hpc.2.unused stored hstored, hfault stored hstored⟩
  | collided released entry err hins =>
    cases released with
    | none => exact followed_of_none
    | some txId =>
      exact absurd (fun stored hstored => ⟨hpc.2.unused stored hstored, hfault stored hstored⟩) hins
  | reread released entry =>
    cases released with
    | none => trivial
    | some txId => exact hpc
  | answered released entry winner answer =>
    cases released with
    | none => exact followed_of_none
    | some txId => exact hpc.elim

/-! ## What other appends insert -/

theorem Payable.store {terms : Terms} (h : Payable deps repo terms) (hindexed : repo.Indexed)
    (hfresh : repo.FreshId entry) (hkey : entry.idempotencyKey ≠ terms.idempotencyKey)
    (hbooking : ¬ (entry.bookingIntentId = terms.bookingIntentId ∧
      entry.currency = terms.currency)) : Payable deps (repo.store entry) terms where
  unused := by
    rw [store_byId hfresh]
    exact KeyedList.forall_mem_concat h.unused hkey
  fits := by
    rw [sumReversalCents_store hindexed hfresh, if_neg hbooking, add_zero]
    exact h.fits

theorem Promised.store (h : Promised deps repo pc) (hindexed : repo.Indexed)
    (hfresh : repo.FreshId entry)
    (hothers : ∀ terms ∈ owing pc, entry.idempotencyKey ≠ terms.idempotencyKey ∧
      ¬ (entry.bookingIntentId = terms.bookingIntentId ∧ entry.currency = terms.currency)) :
    Promised deps (repo.store entry) pc := by
  -- the sum an append has read is about its own booking
  have hsum : ∀ other, entryTerms other ∈ owing pc →
      (repo.store entry).sumReversalCents other.bookingIntentId other.currency
        = repo.sumReversalCents other.bookingIntentId other.currency := by
    intro other hother
    have hbooking : ¬ (entry.bookingIntentId = other.bookingIntentId ∧
        entry.currency = other.currency) := (hothers _ hother).2
    rw [sumReversalCents_store hindexed hfresh, if_neg hbooking, add_zero]
  cases pc with
  | releasing input prevHash =>
    obtain ⟨hkey, hbooking⟩ := hothers _ rfl
    exact Payable.store h hindexed hfresh hkey hbooking
  | summed released other existingSum =>
    cases released with
    | none => trivial
    | some txId =>
      obtain ⟨htx, hpay, hread⟩ := h
      obtain ⟨hkey, hbooking⟩ := hothers _ rfl
      exact ⟨htx, hpay.store hindexed hfresh hkey hbooking, hread.trans (hsum other rfl).symm⟩
  | netted released other projectedSum netRefund =>
    cases released with
    | none => trivial
    | some txId =>
      obtain ⟨htx, hpay, hread, hnet⟩ := h
      obtain ⟨hkey, hbooking⟩ := hothers _ rfl
      refine ⟨htx, hpay.store hindexed hfresh hkey hbooking, ?_, hnet⟩
      rw [hsum other rfl]
      exact hread
  | certified released other =>
    cases released with
    | none => trivial
    | some txId =>
      obtain ⟨hkey, hbooking⟩ := hothers _ rfl
      exact ⟨h.1, h.2.store hindexed hfresh hkey hbooking⟩
  | conflicted released | reread released =>
    cases released with
    | none => trivial
    | some txId => exact h.elim
  | start | currency | searched | tipped => trivial

theorem Followed.store {outcome : Outcome} (h : Followed repo outcome)
    (hfresh : repo.FreshId entry) : Followed (repo.store entry) outcome := by
  intro txId htxId
  obtain ⟨stored, hstored, hanswer⟩ := h txId htxId
  refine ⟨stored, ?_, hanswer⟩
  rw [store_byId hfresh]
  exact mem_append_left _ hstored

/-! ## Runs -/

structure Releasing (deps : Deps) (σ : State) : Prop where
  indexed : σ.shared.Indexed
  promised : Held (Promised deps) σ
  followed : Ended Followed σ

theorem releasing_opened : Releasing deps opened where
  indexed := indexed_empty
  promised c hc := by cases hc
  followed c hc := by cases hc

/-- A segment that stores an entry is one of a command that inserts it. -/
theorem inserts_of_resumed {released : Option String}
    (hresumed : resumed σ k = some (e, .certified released entry))
    (hins : σ.shared.Insertable entry) : entry ∈ inserts σ k := by
  simp [inserts, hresumed, inserting, hins, Option.filter]

theorem Releasing.step (h : Releasing deps σ) (hk : Undisturbed deps σ k) :
    Releasing deps (step (service deps) σ k) := by
  have hself : ∀ e pc, resumed σ k = some (e, pc) → Honoured deps (resume deps e pc σ.shared) := by
    intro e pc hresumed
    refine honoured_resume (h.promised.at_resumed hresumed) (hk.release _ hresumed)
      (hk.faultless _ hresumed) ?_
    intro entry hentry hins
    refine hk.fresh entry ?_
    simp [inserts, hresumed, hentry, hins, Option.filter]
  refine ⟨indexed_step h.indexed hk.fresh, h.promised.step_others (fun _ _ => trivial) ?_ ?_,
    h.followed.step ?_ ?_⟩
  · intro e pc pc' hresumed _ hnext
    exact (hself e pc hresumed).promised hnext
  · intro i e q pc j q' pc' hki hi hne hj _ hpc'
    subst hki
    change Promised deps (resume deps e pc σ.shared).1 pc'
    obtain ⟨released, entry, rfl, hins, heq⟩ | ⟨-, heq⟩ := resume_cases deps e pc σ.shared
    · have hresumed : resumed σ (.resume i e) = some (e, .certified released entry) := by
        simp [resumed, hi]
      have hentry : entry ∈ inserts σ (.resume i e) := inserts_of_resumed hresumed hins
      rw [heq]
      exact hpc'.store h.indexed (hk.fresh entry hentry) fun terms hterms =>
        hk.others entry hentry terms (mem_filterMap.mpr
          ⟨_, mem_eraseIdx_iff_getElem?.mpr ⟨j, hne, hj⟩, hterms⟩)
    · rw [heq]
      exact hpc'
  · intro e pc outcome hresumed hdone
    exact (hself e pc hresumed).followed hdone
  · intro e pc outcome hresumed houtcome
    change Followed (resume deps e pc σ.shared).1 outcome
    obtain ⟨released, entry, rfl, hins, heq⟩ | ⟨-, heq⟩ := resume_cases deps e pc σ.shared
    · rw [heq]
      exact houtcome.store (hk.fresh entry (inserts_of_resumed hresumed hins))
    · rw [heq]
      exact houtcome

/-- **A release is followed by its entry**, whatever the interleaving, when
it is made for an append that would go through at that moment and that
nothing overtakes before its own insert. -/
theorem releases_persisted (deps : Deps) (ks : List Cmd)
    (hks : Along (step (service deps)) (Undisturbed deps) opened ks) :
    Always (step (service deps)) (Ended Followed) opened ks :=
  (always_of_along (I := Releasing deps) (fun _ _ h hk => h.step hk) releasing_opened
    hks).mono fun _ h => h.followed

/-- An append that asks for a release. -/
def sampleRelease (amountCents : ℚ) : InsertCancellationReversalInput :=
  { sampleAppend "k-1" with
    amountCents, escrowReleased := true, escrowReleasedAmountCents := -amountCents }

def releaseEnv : Env := { sampleEnv "id-1" with releaseEscrow := .ok "tx-1" }

/-- It takes eight segments on its own. -/
def releaseOnce (amountCents : ℚ) : List Cmd :=
  .call (sampleRelease amountCents) :: List.replicate 8 (.resume 0 releaseEnv)

theorem releases_persisted_releaseOnce :
    Along (step (service sampleDeps)) (Undisturbed sampleDeps) opened
      (releaseOnce (-100)) ∧
    Always (step (service sampleDeps)) (Ended Followed) opened
      (releaseOnce (-100)) := by
  have h : Along (step (service sampleDeps)) (Undisturbed sampleDeps) opened
      (releaseOnce (-100)) := by
    decide +kernel
  exact ⟨h, releases_persisted sampleDeps (releaseOnce (-100)) h⟩

/-- What the first call of a run has released, and whether it was rejected. -/
def releasedThenRejected (σ : State) : Option String :=
  match σ.calls with
  | ⟨_, .done ⟨released, .error _⟩⟩ :: _ => released
  | _ => none

/-- **50 of the 100 cents**: the hook is called, and then the check rejects
the append. -/
theorem releaseOnce_rejected :
    ¬ Always (step (service sampleDeps)) (Ended Followed) opened
      (releaseOnce (-50)) := by
  intro h
  have hlast : Ended Followed (Coop.run (service sampleDeps) opened (releaseOnce (-50))) := h.last
  have hrejected : releasedThenRejected (Coop.run (service sampleDeps) opened (releaseOnce (-50)))
      = some "tx-1" := by
    decide +kernel
  generalize Coop.run (service sampleDeps) opened (releaseOnce (-50)) = σ at hlast hrejected
  unfold releasedThenRejected at hrejected
  split at hrejected
  next q released err rest hcalls =>
    obtain rfl : released = some "tx-1" := hrejected
    obtain ⟨entry, -, hanswer, -⟩ := hlast _ (by rw [hcalls]; exact mem_cons_self) _ rfl "tx-1" rfl
    cases hanswer
  · cases hrejected

end CancellationReversal

end ChronoPay
