import ChronoPay.CancellationReversal

/-!
# ReversalSafety — what interleaved appends do to the reversal ledger

Only the segment behind the invariant check writes, and only if neither
the key nor the hash is taken (`resume_cases`); everything it writes was
decided earlier. So the ledger stays balanced and its chains valid exactly
in the runs whose insertions are still up to date when they are made
(`ledger_sound_iff`).

Ids are random; that an id is not drawn twice is a condition on the run.
-/

namespace ChronoPay

open Coop Function HashChain KeyedList List Machine Option

namespace ReversalRepository

variable {repo : ReversalRepository} {entry : CancellationReversalEntry}
  {bookingIntentId paymentId : String} {currency : SupportedCurrency}

/-- Ids are distinct, and the indexes list the ids of their entries. -/
structure Indexed (repo : ReversalRepository) : Prop where
  distinct : (repo.byId.map CancellationReversalEntry.id).Nodup
  payments : ∀ paymentId, repo.byPayment paymentId =
    (repo.byId.filter fun e => e.paymentId = paymentId).map CancellationReversalEntry.id
  bookings : ∀ bookingIntentId, repo.byBooking bookingIntentId =
    (repo.byId.filter fun e => e.bookingIntentId = bookingIntentId).map
      CancellationReversalEntry.id

theorem indexed_empty : Indexed {} where
  distinct := nodup_nil
  payments _ := rfl
  bookings _ := rfl

theorem Indexed.findByIds (h : repo.Indexed) (p : CancellationReversalEntry → Bool) :
    repo.findByIds ((repo.byId.filter p).map CancellationReversalEntry.id)
      = repo.byId.filter p := by
  rw [ReversalRepository.findByIds, filterMap_map]
  refine (filterMap_congr (g := some) fun e he => ?_).trans filterMap_some
  exact get_key_of_mem h.distinct (mem_filter.mp he).1

theorem Indexed.findByPaymentId (h : repo.Indexed) :
    repo.findByPaymentId paymentId = repo.byId.filter fun e => e.paymentId = paymentId := by
  rw [ReversalRepository.findByPaymentId, h.payments, h.findByIds]

theorem Indexed.booked (h : repo.Indexed) :
    repo.booked bookingIntentId currency = repo.byId.filter fun e =>
      e.bookingIntentId = bookingIntentId ∧ e.currency = currency := by
  rw [ReversalRepository.booked, findByBookingIntentId, h.bookings, h.findByIds, List.filter_filter]
  refine filter_congr fun e _ => ?_
  simp [Bool.and_comm]

/-! ## Storing an entry -/

/-- No stored entry has its id. -/
def FreshId (repo : ReversalRepository) (entry : CancellationReversalEntry) : Prop :=
  ∀ e ∈ repo.byId, e.id ≠ entry.id

instance : Decidable (FreshId repo entry) :=
  inferInstanceAs (Decidable (∀ e ∈ repo.byId, e.id ≠ entry.id))

theorem store_byId (hfresh : FreshId repo entry) :
    (repo.store entry).byId = repo.byId ++ [entry] := by
  have hnone : KeyedList.get CancellationReversalEntry.id entry.id repo.byId = none :=
    get_eq_none.mpr hfresh
  simp [store, set, hnone]

section

variable (h : repo.Indexed) (hfresh : FreshId repo entry)
include h hfresh

theorem Indexed.store : (repo.store entry).Indexed where
  distinct := by
    rw [store_byId hfresh]
    exact nodup_map_concat h.distinct hfresh
  payments paymentId := by
    rw [store_byId hfresh]
    simp only [ReversalRepository.store, appendIntoIndex, h.payments]
    by_cases hid : paymentId = entry.paymentId
    · subst hid
      simp
    · simp [update_of_ne hid, h.payments, Ne.symm hid]
  bookings bookingIntentId := by
    rw [store_byId hfresh]
    simp only [ReversalRepository.store, appendIntoIndex, h.bookings]
    by_cases hid : bookingIntentId = entry.bookingIntentId
    · subst hid
      simp
    · simp [update_of_ne hid, h.bookings, Ne.symm hid]

theorem findByPaymentId_store :
    (repo.store entry).findByPaymentId paymentId
      = repo.findByPaymentId paymentId ++ if entry.paymentId = paymentId then [entry] else [] := by
  rw [(h.store hfresh).findByPaymentId, h.findByPaymentId, store_byId hfresh, filter_append]
  simp [filter_cons]

theorem booked_store :
    (repo.store entry).booked bookingIntentId currency
      = repo.booked bookingIntentId currency ++
        if entry.bookingIntentId = bookingIntentId ∧ entry.currency = currency
        then [entry] else [] := by
  rw [(h.store hfresh).booked, h.booked, store_byId hfresh, filter_append]
  simp [filter_cons]

theorem sumReversalCents_store :
    (repo.store entry).sumReversalCents bookingIntentId currency
      = repo.sumReversalCents bookingIntentId currency +
        if entry.bookingIntentId = bookingIntentId ∧ entry.currency = currency
        then entry.amountCents else 0 := by
  rw [sumReversalCents, booked_store h hfresh, map_append, sum_append, sumReversalCents]
  split <;> simp

end

/-- Neither the key nor the hash of the entry is taken. -/
def Insertable (repo : ReversalRepository) (entry : CancellationReversalEntry) : Prop :=
  ∀ e ∈ repo.byId, e.idempotencyKey ≠ entry.idempotencyKey ∧ e.entryHash ≠ entry.entryHash

instance : Decidable (Insertable repo entry) :=
  inferInstanceAs (Decidable (∀ e ∈ repo.byId, _ ∧ _))

theorem insert_of_insertable (h : repo.Insertable entry) :
    repo.insert entry = .ok (repo.store entry) := by
  have hnone : repo.byId.find? (fun e => e.idempotencyKey = entry.idempotencyKey ||
      e.entryHash = entry.entryHash) = none := by
    refine find?_eq_none.mpr fun e he => ?_
    simpa using h e he
  simp [insert, hnone]

theorem insert_of_not_insertable (h : ¬ repo.Insertable entry) :
    ∃ err, repo.insert entry = .error err := by
  unfold insert
  cases hfind : repo.byId.find? fun e => e.idempotencyKey = entry.idempotencyKey ||
      e.entryHash = entry.entryHash with
  | none =>
    refine absurd (fun e he => ?_) h
    simpa using find?_eq_none.mp hfind e he
  | some e =>
    dsimp only
    split
    · exact ⟨_, rfl⟩
    · exact ⟨_, rfl⟩

end ReversalRepository

namespace CancellationReversal

open ReversalRepository

variable {deps : Deps} {e : Env} {pc : Pc} {repo : ReversalRepository} {σ : State} {k : Cmd}
  {entry : CancellationReversalEntry} {input : InsertCancellationReversalInput}

/-! ## What a segment writes -/

/-- The entry a segment tries to insert. -/
def inserting : Pc → Option CancellationReversalEntry
  | .certified _ entry => some entry
  | _ => none

/-- Everything a segment can do. An append that stops before it could have
released is `refused`, whatever the reason. -/
inductive Ran (deps : Deps) (e : Env) (repo : ReversalRepository) : Pc → Segment → Prop
  | refused (pc : Pc) (answer : Except ReversalError Appended) (hpc : inserting pc = none) :
      Ran deps e repo pc (repo, .done ⟨none, answer⟩)
  | unpaused (input : InsertCancellationReversalInput) :
      Ran deps e repo (.start input) (repo, .waiting (.currency input))
  | guarded (input : InsertCancellationReversalInput) :
      Ran deps e repo (.currency input)
        (repo, .waiting (.searched input (repo.findByIdempotencyKey input.idempotencyKey)))
  | tipped (input : InsertCancellationReversalInput) :
      Ran deps e repo (.searched input none)
        (repo, .waiting (.tipped input (tipOf (repo.findByPaymentId input.paymentId))))
  | hooked (input : InsertCancellationReversalInput) (prevHash : String)
      (hreleased : input.escrowReleased = true) (hnone : input.escrowReleaseTxId = none) :
      Ran deps e repo (.tipped input prevHash) (repo, .waiting (.releasing input prevHash))
  | built (input : InsertCancellationReversalInput) (prevHash : String) (txId : Option String)
      (entry : CancellationReversalEntry)
      (hentry : buildEntry deps e.randomUUID e.now input prevHash txId = some entry) :
      Ran deps e repo (.tipped input prevHash) (repo, .waiting (.summed none entry
        (repo.sumReversalCents input.bookingIntentId input.currency)))
  | released (input : InsertCancellationReversalInput) (prevHash txId : String)
      (htx : e.releaseEscrow = .ok txId) (entry : CancellationReversalEntry)
      (hentry : buildEntry deps e.randomUUID e.now input prevHash (some txId) = some entry) :
      Ran deps e repo (.releasing input prevHash) (repo, .waiting (.summed (some txId) entry
        (repo.sumReversalCents input.bookingIntentId input.currency)))
  | undated (input : InsertCancellationReversalInput) (prevHash txId : String)
      (htx : e.releaseEscrow = .ok txId)
      (hentry : buildEntry deps e.randomUUID e.now input prevHash (some txId) = none) :
      Ran deps e repo (.releasing input prevHash)
        (repo, .done ⟨some txId, .error .invalidTime⟩)
  | unchecked (released : Option String) (entry : CancellationReversalEntry) (existingSum : ℚ)
      (hlookup : deps.netRefundLookup = none) :
      Ran deps e repo (.summed released entry existingSum)
        (repo, .waiting (.certified released entry))
  | netted (released : Option String) (entry : CancellationReversalEntry) (existingSum : ℚ)
      (net : String → SupportedCurrency → Option ℚ) (hlookup : deps.netRefundLookup = some net) :
      Ran deps e repo (.summed released entry existingSum)
        (repo, .waiting (.netted released entry (existingSum + entry.amountCents)
          (net entry.bookingIntentId entry.currency)))
  | threw (released : Option String) (entry : CancellationReversalEntry) (projectedSum : ℚ)
      (netRefund : Option ℚ) (thrown : String) (hthrew : e.netRefundThrew = some thrown) :
      Ran deps e repo (.netted released entry projectedSum netRefund)
        (repo, .done ⟨released, .error (.threw thrown)⟩)
  | violated (released : Option String) (entry : CancellationReversalEntry) (projectedSum : ℚ)
      (netRefund : Option ℚ) (err : ReversalError)
      (herr : preWriteInvariant entry projectedSum netRefund = .error err) :
      Ran deps e repo (.netted released entry projectedSum netRefund)
        (repo, .done ⟨released, .error err⟩)
  | certified (released : Option String) (entry : CancellationReversalEntry) (projectedSum : ℚ)
      (netRefund : Option ℚ) (hok : preWriteInvariant entry projectedSum netRefund = .ok ()) :
      Ran deps e repo (.netted released entry projectedSum netRefund)
        (repo, .waiting (.certified released entry))
  | stored (released : Option String) (entry : CancellationReversalEntry)
      (hins : repo.Insertable entry) :
      Ran deps e repo (.certified released entry)
        (repo.store entry, .done ⟨released, .ok (.persisted entry)⟩)
  | conflicted (released : Option String) (entry : CancellationReversalEntry)
      (hins : ¬ repo.Insertable entry) :
      Ran deps e repo (.certified released entry) (repo, .waiting (.conflicted released entry))
  | collided (released : Option String) (entry : CancellationReversalEntry) (err : ReversalError)
      (hins : ¬ repo.Insertable entry) :
      Ran deps e repo (.certified released entry) (repo, .done ⟨released, .error err⟩)
  | reread (released : Option String) (entry : CancellationReversalEntry) :
      Ran deps e repo (.conflicted released entry)
        (repo, .waiting (.reread released entry (repo.findByIdempotencyKey entry.idempotencyKey)))
  | answered (released : Option String) (entry : CancellationReversalEntry)
      (winner : Option CancellationReversalEntry) (answer : Except ReversalError Appended) :
      Ran deps e repo (.reread released entry winner) (repo, .done ⟨released, answer⟩)

theorem buildAndSum_ran (prevHash : String) (txId : Option String) :
    Ran deps e repo (.tipped input prevHash)
      (buildAndSum deps e none input prevHash txId repo) := by
  unfold buildAndSum
  split
  · exact .refused _ _ rfl
  next entry hentry => exact .built input prevHash txId entry hentry

/-- **What a segment does.** The branches of `appendEntry` are walked here
and nowhere else. -/
theorem resume_ran (deps : Deps) (e : Env) (pc : Pc) (repo : ReversalRepository) :
    Ran deps e repo pc (resume deps e pc repo) := by
  cases pc with
  | start input =>
    simp only [resume]
    split
    · exact .refused _ _ rfl
    · exact .unpaused input
  | currency input =>
    simp only [resume]
    split
    · exact .refused _ _ rfl
    · split
      · exact .refused _ _ rfl
      · exact .guarded input
  | searched input existing =>
    cases existing with
    | none => exact .tipped input
    | some existing => exact .refused _ _ rfl
  | tipped input prevHash =>
    simp only [resume]
    split
    next hreleased =>
      split
      · exact buildAndSum_ran prevHash _
      next hnone => exact .hooked input prevHash hreleased hnone
    · exact buildAndSum_ran prevHash none
  | releasing input prevHash =>
    simp only [resume]
    split
    · exact .refused _ _ rfl
    next txId htx =>
      unfold buildAndSum
      split
      next hentry => exact .undated input prevHash txId htx hentry
      next entry hentry => exact .released input prevHash txId htx entry hentry
  | summed released entry existingSum =>
    simp only [resume]
    split
    next hlookup => exact .unchecked released entry existingSum hlookup
    next net hlookup => exact .netted released entry existingSum net hlookup
  | netted released entry projectedSum netRefund =>
    simp only [resume]
    split
    next thrown hthrew => exact .threw released entry projectedSum netRefund thrown hthrew
    · split
      next err herr => exact .violated released entry projectedSum netRefund err herr
      next hok => exact .certified released entry projectedSum netRefund hok
  | certified released entry =>
    by_cases hins : repo.Insertable entry
    · simp only [resume, insert_of_insertable hins]
      exact .stored released entry hins
    · obtain ⟨err, herr⟩ := insert_of_not_insertable hins
      simp only [resume, herr]
      split
      next hok => cases hok
      · exact .conflicted released entry hins
      · exact .collided released entry _ hins
  | conflicted released entry => exact .reread released entry
  | reread released entry winner =>
    cases winner with
    | none => exact .answered released entry none _
    | some winner => exact .answered released entry (some winner) _

/-- **What a segment does to the ledger**: nothing, or it stores the entry
of an append that was certified before. -/
theorem resume_cases (deps : Deps) (e : Env) (pc : Pc) (repo : ReversalRepository) :
    (∃ released entry, pc = .certified released entry ∧ repo.Insertable entry ∧
      resume deps e pc repo
        = (repo.store entry, .done ⟨released, .ok (.persisted entry)⟩)) ∨
    ((∀ entry, inserting pc = some entry → ¬ repo.Insertable entry) ∧
      (resume deps e pc repo).1 = repo) := by
  have hran := resume_ran deps e pc repo
  generalize resume deps e pc repo = segment at hran
  cases hran with
  | stored released entry hins => exact .inl ⟨released, entry, rfl, hins, rfl⟩
  | refused pc answer hpc => exact .inr ⟨by simp [hpc], rfl⟩
  | conflicted released entry hins | collided released entry err hins =>
    exact .inr ⟨fun entry' hentry => by cases hentry; exact hins, rfl⟩
  | _ => exact .inr ⟨by simp [inserting], rfl⟩

/-- The entry a command inserts, if it inserts one. -/
def inserts (σ : State) (k : Cmd) : Option CancellationReversalEntry :=
  ((resumed σ k).bind fun segment => inserting segment.2).filter fun entry =>
    σ.shared.Insertable entry

/-- What a command does to the ledger. -/
theorem step_repo (deps : Deps) (σ : State) (k : Cmd) :
    (step (service deps) σ k).shared = match inserts σ k with
      | some entry => σ.shared.store entry
      | none => σ.shared := by
  rw [step_shared, inserts]
  cases hresumed : resumed σ k with
  | none => rfl
  | some segment =>
    obtain ⟨e, pc⟩ := segment
    obtain ⟨released, entry, rfl, hins, heq⟩ | ⟨hnot, heq⟩ := resume_cases deps e pc σ.shared
    · simp [service, heq, inserting, hins, Option.filter]
    · change (resume deps e pc σ.shared).1 = _
      rw [heq]
      cases hentry : inserting pc with
      | none => simp [hentry]
      | some entry => simp [hentry, hnot entry hentry, Option.filter]

/-- No id is drawn twice. -/
def FreshIds (σ : State) (k : Cmd) : Prop := ∀ entry ∈ inserts σ k, σ.shared.FreshId entry

instance : Decidable (FreshIds σ k) :=
  inferInstanceAs (Decidable (∀ entry ∈ inserts σ k, σ.shared.FreshId entry))

theorem indexed_step (hindexed : σ.shared.Indexed) (hfresh : FreshIds σ k) :
    (step (service deps) σ k).shared.Indexed := by
  rw [step_repo]
  cases hins : inserts σ k with
  | none => exact hindexed
  | some entry => exact hindexed.store (hfresh entry hins)

theorem inserts_eq_some (h : inserts σ k = some entry) :
    σ.shared.Insertable entry ∧
      ∃ e released, resumed σ k = some (e, .certified released entry) := by
  obtain ⟨hentry, hins⟩ := filter_eq_some_iff.mp h
  refine ⟨by simpa using hins, ?_⟩
  obtain ⟨⟨e, pc⟩, hresumed, hpc⟩ := bind_eq_some_iff.mp hentry
  refine ⟨e, ?_⟩
  cases pc with
  | certified released entry' =>
    cases hpc
    exact ⟨released, hresumed⟩
  | _ => cases hpc

/-! ## Balances and chains -/

section

variable {net : String → SupportedCurrency → Option ℚ}

/-- An entry carries its own hash; once it is certified, the net refund of
its booking is registered. -/
def Derived (deps : Deps) (net : String → SupportedCurrency → Option ℚ) : Pc → Prop
  | .summed _ entry _ => deriveReversalEntryHash deps entry = some entry.entryHash
  | .netted _ entry _ netRefund =>
    deriveReversalEntryHash deps entry = some entry.entryHash ∧
      netRefund = net entry.bookingIntentId entry.currency
  | .certified _ entry =>
    deriveReversalEntryHash deps entry = some entry.entryHash ∧
      (net entry.bookingIntentId entry.currency).isSome = true
  | _ => True

theorem buildEntry_hash {id prevHash : String} {createdAt : Int} {txId : Option String}
    (h : buildEntry deps id createdAt input prevHash txId = some entry) :
    deriveReversalEntryHash deps entry = some entry.entryHash := by
  obtain ⟨entryHash, hhash, rfl⟩ := map_eq_some_iff.mp h
  exact hhash

theorem derived_resume (hlookup : deps.netRefundLookup = some net) (hpc : Derived deps net pc)
    {pc' : Pc} (h : (resume deps e pc repo).2 = .waiting pc') : Derived deps net pc' := by
  have hran := resume_ran deps e pc repo
  generalize resume deps e pc repo = segment at hran h
  cases hran with
  | refused | undated | threw | violated | stored | collided | answered => cases h
  | unpaused | guarded | tipped | hooked | conflicted | reread =>
    cases h
    trivial
  | built input prevHash txId entry hentry | released input prevHash txId htx entry hentry =>
    cases h
    exact buildEntry_hash hentry
  | unchecked released entry existingSum hnone =>
    rw [hlookup] at hnone
    cases hnone
  | netted released entry existingSum net' hnet =>
    cases hlookup.symm.trans hnet
    cases h
    exact ⟨hpc, rfl⟩
  | certified released entry projectedSum netRefund hok =>
    obtain ⟨hhash, hnet⟩ := hpc
    cases h
    refine ⟨hhash, ?_⟩
    cases netRefund with
    | none => cases hok
    | some netRefund => simp [← hnet]

/-- Where there are entries, they add up to what the policy prescribes. -/
def Balanced (net : String → SupportedCurrency → Option ℚ) (repo : ReversalRepository) : Prop :=
  ∀ bookingIntentId currency, repo.booked bookingIntentId currency ≠ [] →
    ∃ netRefund, net bookingIntentId currency = some netRefund ∧
      repo.sumReversalCents bookingIntentId currency = -netRefund

/-- The verifier accepts the chain of every payment. -/
def ChainsValid (deps : Deps) (repo : ReversalRepository) : Prop :=
  ∀ paymentId, verifyChainForPayment deps repo paymentId
    = some { valid := true, entriesChecked := (repo.findByPaymentId paymentId).length }

structure LedgerSound (deps : Deps) (net : String → SupportedCurrency → Option ℚ)
    (σ : State) : Prop where
  balanced : Balanced net σ.shared
  chains : ChainsValid deps σ.shared

/-- What an insertion relies on is up to date: its link is the tip of the
chain, and its amount fits the sum, at the moment it is made. -/
def UpToDate (net : String → SupportedCurrency → Option ℚ) (σ : State) (k : Cmd) : Prop :=
  ∀ entry ∈ inserts σ k,
    entry.prevHash = tipOf (σ.shared.findByPaymentId entry.paymentId) ∧
    ∃ netRefund ∈ net entry.bookingIntentId entry.currency,
      σ.shared.sumReversalCents entry.bookingIntentId entry.currency + entry.amountCents
        = -netRefund

instance : Decidable (UpToDate net σ k) :=
  inferInstanceAs (Decidable (∀ entry ∈ inserts σ k, _ ∧ ∃ netRefund ∈ _, _ = _))

theorem verifyChain_iff {entries : List CancellationReversalEntry} :
    verifyChain deps entries = some { valid := true, entriesChecked := entries.length } ↔
      Linked (reversalChain deps) "" entries := by
  rw [show "" = (reversalChain deps).genesis from rfl, ← walk_eq_intact, verifyChain]
  cases HashChain.walk (reversalChain deps) entries <;> simp

theorem balanced_store_iff (h : repo.Indexed) (hfresh : repo.FreshId entry)
    (hbalanced : Balanced net repo) :
    Balanced net (repo.store entry) ↔
      ∃ netRefund, net entry.bookingIntentId entry.currency = some netRefund ∧
        repo.sumReversalCents entry.bookingIntentId entry.currency + entry.amountCents
          = -netRefund := by
  constructor
  · intro hnew
    have := hnew entry.bookingIntentId entry.currency (by simp [booked_store h hfresh])
    simpa [sumReversalCents_store h hfresh] using this
  · intro hfits bookingIntentId currency hsome
    rw [booked_store h hfresh] at hsome
    rw [sumReversalCents_store h hfresh]
    by_cases hsame : entry.bookingIntentId = bookingIntentId ∧ entry.currency = currency
    · obtain ⟨rfl, rfl⟩ := hsame
      simpa using hfits
    · rw [if_neg hsame, append_nil] at hsome
      rw [if_neg hsame, add_zero]
      exact hbalanced bookingIntentId currency hsome

theorem chainsValid_store_iff (h : repo.Indexed) (hfresh : repo.FreshId entry)
    (hhash : deriveReversalEntryHash deps entry = some entry.entryHash)
    (hchains : ChainsValid deps repo) :
    ChainsValid deps (repo.store entry) ↔
      entry.prevHash = tipOf (repo.findByPaymentId entry.paymentId) := by
  have hlinked : ∀ paymentId, Linked (reversalChain deps) "" (repo.findByPaymentId paymentId) :=
    fun paymentId => verifyChain_iff.mp (hchains paymentId)
  have htip : HashChain.tip (reversalChain deps) "" (repo.findByPaymentId entry.paymentId)
      = tipOf (repo.findByPaymentId entry.paymentId) := tip_eq_getLast? _
  have hnew : ChainsValid deps (repo.store entry) ↔ ∀ paymentId,
      Linked (reversalChain deps) "" (repo.findByPaymentId paymentId ++
        if entry.paymentId = paymentId then [entry] else []) := by
    simp only [ChainsValid, verifyChainForPayment, verifyChain_iff, findByPaymentId_store h hfresh]
  rw [hnew]
  constructor
  · intro hall
    have := hall entry.paymentId
    rw [if_pos rfl, linked_append, htip] at this
    exact this.2.1
  · intro hprev paymentId
    split
    next hid =>
      subst hid
      exact (hlinked _).concat (by rw [htip]; exact hprev) hhash
    · rw [append_nil]
      exact hlinked paymentId

/-- What every run of appends keeps, as long as ids are fresh. -/
structure Kept (deps : Deps) (net : String → SupportedCurrency → Option ℚ) (σ : State) :
    Prop where
  indexed : σ.shared.Indexed
  derived : Held (fun _ => Derived deps net) σ

theorem kept_opened : Kept deps net opened := ⟨indexed_empty, fun c hc => by cases hc⟩

theorem Kept.step (hlookup : deps.netRefundLookup = some net) (h : Kept deps net σ)
    (hfresh : FreshIds σ k) : Kept deps net (step (service deps) σ k) where
  indexed := indexed_step h.indexed hfresh
  derived := h.derived.step (fun _ => trivial)
    (fun _ _ _ _ hpc hnext => derived_resume hlookup hpc hnext) (fun _ _ _ _ _ => id)

theorem step_sound_iff (h : Kept deps net σ) (hfresh : FreshIds σ k)
    (hsound : LedgerSound deps net σ) :
    LedgerSound deps net (step (service deps) σ k) ↔ UpToDate net σ k := by
  have hrepo := step_repo deps σ k
  cases hins : inserts σ k with
  | none =>
    rw [hins] at hrepo
    refine iff_of_true ⟨by rw [hrepo]; exact hsound.balanced, by rw [hrepo]; exact hsound.chains⟩ ?_
    intro entry hentry
    rw [hins] at hentry
    cases hentry
  | some entry =>
    rw [hins] at hrepo
    obtain ⟨-, e, released, hresumed⟩ := inserts_eq_some hins
    have hid := hfresh entry hins
    have hhash := (h.derived.at_resumed hresumed).1
    have hbalanced := balanced_store_iff h.indexed hid hsound.balanced
    have hchains := chainsValid_store_iff h.indexed hid hhash hsound.chains
    constructor
    · intro hnew entry' hentry'
      rw [hins] at hentry'
      cases hentry'
      have hb := hnew.balanced
      have hc := hnew.chains
      rw [hrepo] at hb hc
      exact ⟨hchains.mp hc, hbalanced.mp hb⟩
    · intro hfits
      obtain ⟨hprev, hsum⟩ := hfits entry hins
      exact ⟨by rw [hrepo]; exact hbalanced.mpr hsum, by rw [hrepo]; exact hchains.mpr hprev⟩

theorem sound_opened : LedgerSound deps net opened where
  balanced _ _ h := absurd rfl h
  chains _ := rfl

/-- **The ledger is sound exactly if every insertion is up to date**, for
every interleaving of appends, as long as no id is drawn twice. -/
theorem ledger_sound_iff (deps : Deps) (net : String → SupportedCurrency → Option ℚ)
    (hlookup : deps.netRefundLookup = some net) (ks : List Cmd)
    (hfresh : Along (step (service deps)) FreshIds opened ks) :
    Always (step (service deps)) (LedgerSound deps net) opened ks ↔
      Along (step (service deps)) (UpToDate net) opened ks :=
  always_iff_along_within (I := Kept deps net) (Q := LedgerSound deps net)
    (C := FreshIds) (fun _ _ h hk => h.step hlookup hk)
    (fun _ _ h hk hsound => step_sound_iff h hk hsound) kept_opened sound_opened hfresh

end

/-! ### Two appends for one booking -/

/-- 100 cents are to be refunded for the booking. -/
def sampleNet (bookingIntentId : String) (currency : SupportedCurrency) : Option ℚ :=
  if bookingIntentId = "b-1" ∧ currency = .usd then some 100 else none

/-- SHA-256 on the texts of the appends below. -/
def sampleSha256 (text : String) : String :=
  if text = "b-1|p-1||-100|USD|0|0||prorated_cancellation|v1|ann|k-1||1970-01-01T00:00:00.000Z"
  then "39de004335c63725994fc79d9e272f8c6b528e8de83421da07fc70397e5b654b"
  else if text = "b-1|p-1||-100|USD|0|0||prorated_cancellation|v1|ann|k-2||1970-01-01T00:00:00.000Z"
  then "c603fa4c28af513543f3cfa61a74a3453f64d46a96224114c4ffee5e5f7374c4"
  else "#" ++ text

def sampleDeps : Deps where
  sha256 := sampleSha256
  number n := toString n.num
  netRefundLookup := some sampleNet

def sampleAppend (idempotencyKey : String) : InsertCancellationReversalInput :=
  { bookingIntentId := "b-1", paymentId := "p-1", amountCents := -100, currency := .usd,
    idempotencyKey, policyVersionId := "v1", actor := "ann" }

def sampleEnv (randomUUID : String) : Env := { currency := .ok (some .usd), randomUUID }

/-- The append of the whole refund, on its own: seven segments. -/
def appendOnce : List Cmd :=
  .call (sampleAppend "k-1") :: List.replicate 7 (.resume 0 (sampleEnv "id-1"))

theorem ledger_sound_appendOnce : Along (step (service sampleDeps)) FreshIds opened appendOnce ∧
    Always (step (service sampleDeps)) (LedgerSound sampleDeps sampleNet) opened
      appendOnce := by
  have hfresh : Along (step (service sampleDeps)) FreshIds opened appendOnce := by
    decide +kernel
  exact ⟨hfresh, (ledger_sound_iff sampleDeps sampleNet rfl appendOnce hfresh).mpr
    (by decide +kernel)⟩

/-- Two appends of the whole refund under different keys, in step. -/
def appendTwice : List Cmd := [.call (sampleAppend "k-1"), .call (sampleAppend "k-2")] ++
  (List.replicate 7 [.resume 0 (sampleEnv "id-1"), .resume 1 (sampleEnv "id-2")]).flatten

/-- **Both are stored**: the booking is reversed twice, and the second entry
does not link to the first. -/
theorem appendTwice_unsound : Along (step (service sampleDeps)) FreshIds opened appendTwice ∧
    ¬ Always (step (service sampleDeps)) (LedgerSound sampleDeps sampleNet) opened
      appendTwice := by
  refine ⟨by decide +kernel, fun h => ?_⟩
  have hsum : (Coop.run (service sampleDeps) opened appendTwice).shared.sumReversalCents "b-1"
      .usd = -200 := by
    decide +kernel
  have hsome : (Coop.run (service sampleDeps) opened appendTwice).shared.booked "b-1" .usd
      ≠ [] := by
    intro hnil
    rw [sumReversalCents, hnil] at hsum
    revert hsum
    decide +kernel
  obtain ⟨netRefund, hnet, hbalance⟩ := h.last.balanced "b-1" .usd hsome
  obtain rfl : (100 : ℚ) = netRefund := Option.some.inj hnet
  revert hbalance
  decide +kernel

/-- **No key and no hash is written twice**, however appends interleave. -/
theorem entries_distinct (deps : Deps) {ks : List Cmd}
    (hfresh : Along (step (service deps)) FreshIds opened ks) :
    Always (step (service deps)) (fun σ =>
      (σ.shared.byId.map CancellationReversalEntry.idempotencyKey).Nodup ∧
      (σ.shared.byId.map CancellationReversalEntry.entryHash).Nodup) opened ks := by
  refine always_of_along (fun σ k h hk => ?_) ⟨nodup_nil, nodup_nil⟩ hfresh
  rw [step_repo]
  cases hins : inserts σ k with
  | none => exact h
  | some entry =>
    have hnew := (inserts_eq_some hins).1
    rw [store_byId (hk entry hins)]
    exact ⟨nodup_map_concat h.1 fun e he => (hnew e he).1,
      nodup_map_concat h.2 fun e he => (hnew e he).2⟩

theorem entries_distinct_appendTwice :
    ((Coop.run (service sampleDeps) opened appendTwice).shared.byId.map
      CancellationReversalEntry.entryHash).Nodup :=
  (entries_distinct sampleDeps (by decide +kernel)).last.2

end CancellationReversal

end ChronoPay
