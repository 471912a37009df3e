import ChronoPay.SchedulingService
import Mathlib

/-!
# RefundLedger — what a run can do to the refund ledger

The ledger grows by one entry for each supplier cancellation that passes
the checks, and is otherwise only touched in the status and transaction
of an entry (`step_books`). Two consequences: an intent has at most one
refund exactly in the runs that never cancel a refunded intent again,
since the code itself does NOT look; and the hash chain stays intact, so
a change of one entry behind the service's back shows in the check.
-/

namespace ChronoPay

open Function HashChain IsoDate List Machine Option

namespace SchedulingService

variable {sha256 : String → String} {intents : BookingIntents} {call : SupplierCancel}
  {s s' : SchedulingState} {bundleId : String} {intent : BookingIntentRecord}

/-! ## Frames: reservations and releases leave the books alone -/

/-- The ledger and its index by intent are the same. -/
structure SameBooks (s s' : SchedulingState) : Prop where
  refundLedger : s'.refundLedger = s.refundLedger
  byIntentId : s'.refundLedgerByIntentId = s.refundLedgerByIntentId

theorem sameBooks_reserveSlot {switches : Switches} {slotId : String} {now : Int}
    {tenantId : Option String} : SameBooks s (reserveSlot switches slotId now tenantId s).1 := by
  unfold reserveSlot
  split <;> exact ⟨rfl, rfl⟩

theorem sameBooks_reserveBundle {switches : Switches} {now : Nat → Int} {slotIds : List String}
    {tenantId : Option String} :
    SameBooks s (reserveBundle switches now bundleId slotIds tenantId s).1 := by
  unfold reserveBundle
  split
  · exact ⟨rfl, rfl⟩
  · split
    · exact ⟨rfl, rfl⟩
    · dsimp only
      split
      · exact ⟨rfl, rfl⟩
      · split <;> exact ⟨rfl, rfl⟩

theorem sameBooks_releaseBundle : SameBooks s (releaseBundle bundleId s).1 := by
  unfold releaseBundle
  split
  · exact ⟨rfl, rfl⟩
  · split <;> exact ⟨rfl, rfl⟩

theorem sameBooks_releaseHolds : SameBooks s (releaseHolds intent s).1 := by
  unfold releaseHolds
  split
  · exact ⟨rfl, rfl⟩
  next slots _ =>
    split
    · exact ⟨rfl, rfl⟩
    next bundleId _ =>
      split
      · have hbooks : SameBooks { s with slots } (releaseBundle bundleId { s with slots }).1 :=
          sameBooks_releaseBundle
        exact ⟨hbooks.refundLedger, hbooks.byIntentId⟩
      · exact ⟨rfl, rfl⟩

/-! ## When a cancellation is refunded -/

/-- The cancellation passes its checks, releases everything it wants to,
and has a time to write. Nothing here asks for earlier refunds. -/
structure Refundable (intents : BookingIntents) (call : SupplierCancel) (s : SchedulingState)
    (intent : BookingIntentRecord) : Prop where
  found : intents.findById call.bookingIntentId = some intent
  early : call.cancelledAt < intent.startTime
  slotRows : RowsPresent s.slots (intent.slotIds.getD [])
  bundleRows : RowsPresent s.slots (bundleSlots intent s)
  datable : (toISOString call.cancelledAt).isSome = true

theorem releaseHolds_ok_iff : (releaseHolds intent s).2 = .ok () ↔
    RowsPresent s.slots (intent.slotIds.getD []) ∧ RowsPresent s.slots (bundleSlots intent s) := by
  have hrows : RowsPresent s.slots (intent.slotIds.getD []) ↔ _ := releaseEach_none_iff.symm
  rw [hrows, releaseHolds, bundleSlots]
  rcases hr : releaseEach (intent.slotIds.getD []) s.slots with ⟨slots, _ | err⟩
  · rw [releaseEach_eq (releaseEach_none_iff.mp (by rw [hr]))] at hr
    obtain rfl := (Prod.mk.inj hr).1
    cases bundleOf intent with
    | none => simp [RowsPresent]
    | some bundleId =>
      cases hbundle : s.reservedBundles bundleId with
      | none => simp [hbundle, RowsPresent]
      | some slotIds =>
        have hok : (releaseBundle bundleId
            { s with slots := s.slots.setMany (intent.slotIds.getD []) true }).2 = .ok () ↔ _ :=
          releaseBundle_ok_iff hbundle
        simp [hbundle, hok, rowsPresent_setMany]
  · simp

variable {ledger : List EscrowRefundLedgerEntry} {entry : EscrowRefundLedgerEntry}

/-- What a cancellation does to the books: one entry when it is
refundable, nothing when it throws. -/
theorem supplierCancel_books (call : SupplierCancel) (s : SchedulingState) :
    (∃ intent entry s', Refundable intents call s intent ∧
      refundEntry sha256 call intent s.refundLedger = some entry ∧ SameBooks s s' ∧
      (handleSupplierCancelBeforeSlotStart sha256 intents call s).1 = pushRefund entry s') ∨
    ((¬ ∃ intent, Refundable intents call s intent) ∧
      SameBooks s (handleSupplierCancelBeforeSlotStart sha256 intents call s).1) := by
  cases hcheck : cancellableIntent intents call with
  | error err =>
    simp only [handleSupplierCancelBeforeSlotStart, hcheck]
    refine .inr ⟨?_, rfl, rfl⟩
    rintro ⟨intent, hfound, hearly, -⟩
    rw [cancellableIntent_eq_ok.mpr ⟨hfound, hearly⟩] at hcheck
    cases hcheck
  | ok intent =>
    obtain ⟨hfound, hearly⟩ := cancellableIntent_eq_ok.mp hcheck
    have hunique : ∀ {intent'}, Refundable intents call s intent' → intent' = intent := by
      intro intent' h
      exact Option.some.inj (h.found.symm.trans hfound)
    have hbooks : SameBooks s (releaseHolds intent s).1 := sameBooks_releaseHolds
    have hok : (releaseHolds intent s).2 = .ok () ↔ _ := releaseHolds_ok_iff
    simp only [handleSupplierCancelBeforeSlotStart, hcheck]
    generalize releaseHolds intent s = released at hbooks hok ⊢
    obtain ⟨s', err | ⟨⟩⟩ := released
    · refine .inr ⟨?_, hbooks⟩
      rintro ⟨intent', h⟩
      obtain rfl := hunique h
      exact absurd (hok.mpr ⟨h.slotRows, h.bundleRows⟩) (by simp)
    · obtain ⟨hslots, hbundle⟩ := hok.mp rfl
      have hdate : (refundEntry sha256 call intent s.refundLedger).isSome
          = (toISOString call.cancelledAt).isSome := by simp [refundEntry]
      have hledger : s'.refundLedger = s.refundLedger := hbooks.refundLedger
      simp only [hledger]
      cases hentry : refundEntry sha256 call intent s.refundLedger with
      | none =>
        refine .inr ⟨?_, hbooks⟩
        rintro ⟨intent', h⟩
        exact absurd (h.datable.symm.trans hdate.symm) (by simp [hentry])
      | some entry =>
        refine .inl ⟨intent, entry, s', ⟨hfound, hearly, hslots, hbundle, ?_⟩, hentry, hbooks, rfl⟩
        rw [← hdate, hentry]
        rfl

/-! ## What one call does to the books -/

/-- The books differ at most in the status and transaction of an entry. -/
def Restatused (s s' : SchedulingState) : Prop :=
  SameBooks s s' ∨ ∃ i entry chainTxId status, s.refundLedger[i]? = some entry ∧
    s'.refundLedger = s.refundLedger.set i { entry with chainTxId, status } ∧
    s'.refundLedgerByIntentId = s.refundLedgerByIntentId

theorem restatused_updateRefund {refundRequestId : String}
    {f : EscrowRefundLedgerEntry → EscrowRefundLedgerEntry}
    (hf : ∀ entry, ∃ chainTxId status, f entry = { entry with chainTxId, status }) :
    Restatused s (updateRefund refundRequestId f s).1 := by
  unfold updateRefund
  split
  · exact .inl ⟨rfl, rfl⟩
  next position _ =>
    split
    · exact .inl ⟨rfl, rfl⟩
    next entry hentry =>
      obtain ⟨chainTxId, status, hfe⟩ := hf entry
      exact .inr ⟨position, entry, chainTxId, status, hentry, by rw [hfe], rfl⟩

/-- The call is a supplier cancellation that is refunded. -/
def Refunds (intents : BookingIntents) (s : SchedulingState) (k : Call)
    (bookingIntentId : String) : Prop :=
  ∃ call intent, k = .supplierCancel call ∧ call.bookingIntentId = bookingIntentId ∧
    Refundable intents call s intent

/-- **One call on the books**: a refunded cancellation pushes its entry,
every other call at most updates the status of one. -/
theorem step_books (s : SchedulingState) (k : Call) :
    (∃ call intent entry s', k = .supplierCancel call ∧ Refundable intents call s intent ∧
      refundEntry sha256 call intent s.refundLedger = some entry ∧ SameBooks s s' ∧
      step sha256 intents s k = pushRefund entry s') ∨
    ((∀ bookingIntentId, ¬ Refunds intents s k bookingIntentId) ∧
      Restatused s (step sha256 intents s k)) := by
  cases k with
  | supplierCancel call =>
    rcases supplierCancel_books call s with
      ⟨intent, entry, s', hok, hentry, hbooks, hpush⟩ | ⟨hnot, hbooks⟩
    · exact .inl ⟨call, intent, entry, s', rfl, hok, hentry, hbooks, hpush⟩
    · refine .inr ⟨?_, .inl hbooks⟩
      rintro _ ⟨call, intent, hk, rfl, hok⟩
      obtain rfl := Call.supplierCancel.inj hk
      exact hnot ⟨intent, hok⟩
  | reserveSlot switches slotId now tenantId =>
    exact .inr ⟨by simp [Refunds], .inl sameBooks_reserveSlot⟩
  | reserveBundle switches now bundleId slotIds tenantId =>
    exact .inr ⟨by simp [Refunds], .inl sameBooks_reserveBundle⟩
  | releaseBundle bundleId => exact .inr ⟨by simp [Refunds], .inl sameBooks_releaseBundle⟩
  | markRefundSettled | markRefundFailed =>
    exact .inr ⟨by simp [Refunds], restatused_updateRefund fun entry => ⟨_, _, rfl⟩⟩

/-- The intents the entries of the ledger are for, in order. -/
def refundedIntents (s : SchedulingState) : List String :=
  s.refundLedger.map EscrowRefundLedgerEntry.bookingIntentId

theorem Restatused.refundedIntents (h : Restatused s s') :
    refundedIntents s' = refundedIntents s := by
  unfold SchedulingService.refundedIntents
  obtain hbooks | ⟨i, entry, chainTxId, status, hentry, hledger, -⟩ := h
  · rw [hbooks.refundLedger]
  · obtain ⟨hlt, rfl⟩ := List.getElem?_eq_some_iff.mp hentry
    rw [hledger, map_set]
    exact (congrArg _ (getElem_map _).symm).trans (set_getElem_self (by simpa))

/-! ## At most one refund per intent -/

/-- No two entries of the ledger are for the same booking intent. -/
def OneRefundEach (s : SchedulingState) : Prop := (refundedIntents s).Nodup

instance (s : SchedulingState) : Decidable (OneRefundEach s) :=
  inferInstanceAs (Decidable (List.Nodup _))

/-- The call does not refund an intent the ledger has a refund of. -/
def RefundsAnew (intents : BookingIntents) (s : SchedulingState) (k : Call) : Prop :=
  ∀ bookingIntentId, Refunds intents s k bookingIntentId → bookingIntentId ∉ refundedIntents s

theorem step_oneRefundEach_iff (s : SchedulingState) (k : Call) (h : OneRefundEach s) :
    OneRefundEach (step sha256 intents s k) ↔ RefundsAnew intents s k := by
  rcases step_books s k with
    ⟨call, intent, entry, s', rfl, hok, hentry, hbooks, hpush⟩ | ⟨hnot, hsame⟩
  · -- the new entry's intent is the call's
    have hrefunded : refundedIntents (pushRefund entry s')
        = refundedIntents s ++ [call.bookingIntentId] := by
      obtain ⟨iso, -, rfl⟩ := map_eq_some_iff.mp hentry
      simp [refundedIntents, pushRefund, hbooks.refundLedger]
    rw [OneRefundEach, hpush, hrefunded, nodup_append]
    constructor
    · rintro ⟨-, -, hdisjoint⟩ _ ⟨call', intent', hk, rfl, -⟩ hmem
      obtain rfl := Call.supplierCancel.inj hk
      exact hdisjoint _ hmem _ (mem_singleton_self _) rfl
    · intro hnew
      refine ⟨h, nodup_singleton _, ?_⟩
      rintro id hid _ hmem rfl
      rw [mem_singleton.mp hmem] at hid
      exact hnew call.bookingIntentId ⟨call, intent, rfl, rfl, hok⟩ hid
  · rw [OneRefundEach, hsame.refundedIntents]
    exact iff_of_true h fun id hrefunds => absurd hrefunds (hnot id)

/-- **One refund per intent, exactly.** Over any run of a fresh service the
ledger never has two refunds of one intent if and only if no call refunds
an intent again; the code has no such check. -/
theorem oneRefundEach_always_iff (sha256 : String → String) (intents : BookingIntents)
    (slots : Slots) (ks : List Call) :
    Always (step sha256 intents) OneRefundEach { slots } ks ↔
      Along (step sha256 intents) (RefundsAnew intents) { slots } ks := by
  have hfresh : OneRefundEach { slots } := nodup_nil
  exact always_iff_along step_oneRefundEach_iff hfresh ks

/-- The supplier cancels the same intent twice, an hour apart. -/
def cancelTwice : List Call := [cancelAtMidnight, cancelAtOne]

theorem cancelTwice_refunds_twice :
    ¬ OneRefundEach
      (Machine.run (step sampleSha256 soldIntents) { slots := [soldSlot] } cancelTwice) := by
  decide +kernel

/-! ## The hash chain -/

/-- The ledger is a chain from the genesis hash. -/
def Chained (sha256 : String → String) (s : SchedulingState) : Prop :=
  Linked (refundChain sha256) (refundChain sha256).genesis s.refundLedger

theorem step_chained (s : SchedulingState) (k : Call) (h : Chained sha256 s) :
    Chained sha256 (step sha256 intents s k) := by
  unfold Chained at h ⊢
  rcases step_books s k with
    ⟨call, intent, entry, s', -, -, hentry, hbooks, hpush⟩ | ⟨-, hsame⟩
  · obtain ⟨createdAtIso, hiso, rfl⟩ := map_eq_some_iff.mp hentry
    rw [hpush, pushRefund, hbooks.refundLedger]
    refine h.concat ?_ (by simp only [refundChain, hiso, map_some])
    rw [tip_eq_getLast?]
    rfl
  · obtain hbooks | ⟨i, entry, chainTxId, status, hentry, hledger, -⟩ := hsame
    · rw [hbooks.refundLedger]
      exact h
    · -- neither the status nor the transaction is hashed
      rw [hledger]
      exact h.set hentry rfl rfl rfl

/-- A change of one entry behind the service's back, field by field. The
creation time counts as changed when it moves to another whole
millisecond that `Date` can represent. -/
inductive Tampered (entry : EscrowRefundLedgerEntry) : EscrowRefundLedgerEntry → Prop where
  | refundRequestId (v : String) (h : v ≠ entry.refundRequestId) :
      Tampered entry { entry with refundRequestId := v }
  | grossAmountCents (v : Int) (h : v ≠ entry.grossAmountCents) :
      Tampered entry { entry with grossAmountCents := v }
  | platformFeeReversedCents (v : Int) (h : v ≠ entry.platformFeeReversedCents) :
      Tampered entry { entry with platformFeeReversedCents := v }
  | prepaidTaxReversedCents (v : Int) (h : v ≠ entry.prepaidTaxReversedCents) :
      Tampered entry { entry with prepaidTaxReversedCents := v }
  | netRefundCents (v : Int) (h : v ≠ entry.netRefundCents) :
      Tampered entry { entry with netRefundCents := v }
  | createdAt (v : ℚ) (hdate : (timeClip v).isSome = true)
      (h : timeClip v ≠ timeClip entry.createdAt) :
      Tampered entry { entry with createdAt := v }
  | prevLedgerHash (v : String) (h : v ≠ entry.prevLedgerHash) :
      Tampered entry { entry with prevLedgerHash := v }
  | ledgerHash (v : String) (h : v ≠ entry.ledgerHash) :
      Tampered entry { entry with ledgerHash := v }

/-- An entry with a changed part hashes to something else: the text that
is hashed determines each of its parts, the others given. -/
theorem Tampered.digest_ne (hsha : Injective sha256) {entry' : EscrowRefundLedgerEntry}
    (h : Tampered entry entry') (hprev : entry'.prevLedgerHash = entry.prevLedgerHash)
    (hhash : entry'.ledgerHash = entry.ledgerHash)
    (hdigest : (refundChain sha256).digest entry = some entry.ledgerHash) :
    ∃ hash, (refundChain sha256).digest entry' = some hash ∧ hash ≠ entry'.ledgerHash := by
  have htext : ∀ text : String, toString text = text := fun _ => rfl
  obtain ⟨iso, hiso, hsha256⟩ := map_eq_some_iff.mp hdigest
  rw [hhash, ← hsha256]
  cases h
  case prevLedgerHash v hv => exact absurd hprev hv
  case ledgerHash v hv => exact absurd hhash hv
  case createdAt v hdate hv =>
    obtain ⟨t, ht⟩ := isSome_iff_exists.mp hdate
    have hiso' : toISOString v = some (isoText t) := by
      rw [toISOString, ht, map_some]
    have hne : isoText t ≠ iso := by
      rintro rfl
      exact hv ((toISOString_eq_some_iff hiso).mp hiso')
    refine ⟨_, congrArg (Option.map _) hiso', ?_⟩
    simp [deriveRefundLedgerHash, hsha.eq_iff, String.append_assoc, htext, hne]
  case refundRequestId v hv | grossAmountCents v hv | platformFeeReversedCents v hv |
      prepaidTaxReversedCents v hv | netRefundCents v hv =>
    refine ⟨_, congrArg (Option.map _) hiso, ?_⟩
    simp [deriveRefundLedgerHash, hsha.eq_iff, String.append_assoc, htext, hv]

/-- In a chained ledger a tampered entry breaks the walk at its position. -/
theorem Tampered.brokenAt (hsha : Injective sha256) (hchained : Chained sha256 s) {i : Nat}
    {entry' : EscrowRefundLedgerEntry} (hentry : s.refundLedger[i]? = some entry)
    (h : Tampered entry entry') :
    verifyFrom (refundChain sha256) (refundChain sha256).genesis 0
      (s.refundLedger.set i entry') = .brokenAt i := by
  rw [verifyFrom_exchange hchained hentry, Nat.zero_add]
  by_cases hprev : entry'.prevLedgerHash = entry.prevLedgerHash
  · have hdigest := Linked.digest hchained (mem_of_getElem? hentry)
    by_cases hhash : entry'.ledgerHash = entry.ledgerHash
    · obtain ⟨hash, hdigest', hne⟩ := h.digest_ne hsha hprev hhash hdigest
      exact verifyFrom_of_digest_ne hprev hdigest' hne
    · -- only the stored hash was changed, so the digest is the old one
      have hdigest' : (refundChain sha256).digest entry' = some entry.ledgerHash := by
        cases h <;> first | exact absurd rfl hhash | exact hdigest
      exact verifyFrom_of_digest_ne hprev hdigest' (Ne.symm hhash)
  · exact verifyFrom_of_prev_ne hprev

/-- The refund ledger of a fresh service after the calls `ks`. -/
def ledgerAfter (sha256 : String → String) (intents : BookingIntents) (slots : Slots)
    (ks : List Call) : List EscrowRefundLedgerEntry :=
  (Machine.run (step sha256 intents) { slots } ks).refundLedger

/-- **The refund ledger is tamper evident.** With a collision-free SHA-256,
the check passes after every run of a fresh service, and reports position
`i` once an entry `i` has been tampered with. -/
theorem refundLedger_tamper_evident (hsha : Injective sha256) (slots : Slots)
    (ks : List Call) :
    verifyRefundLedgerChain sha256 (ledgerAfter sha256 intents slots ks)
      = some ⟨true, -1, (ledgerAfter sha256 intents slots ks).length⟩ ∧
    ∀ i entry entry', (ledgerAfter sha256 intents slots ks)[i]? = some entry →
      Tampered entry entry' →
      verifyRefundLedgerChain sha256 ((ledgerAfter sha256 intents slots ks).set i entry')
        = some ⟨false, i, i + 1⟩ := by
  have hfresh : Chained sha256 { slots } := trivial
  have hstep : ∀ s k, Chained sha256 s → Chained sha256 (step sha256 intents s k) := step_chained
  have hchained := run_inv hstep hfresh ks
  refine ⟨?_, fun i entry entry' hentry htampered => ?_⟩
  · simp only [verifyRefundLedgerChain, ledgerAfter, verifyFrom_eq_intact.mpr hchained]
  · simp only [verifyRefundLedgerChain, ledgerAfter, htampered.brokenAt hsha hchained hentry]

def twiceRefunded : List EscrowRefundLedgerEntry :=
  ledgerAfter sampleSha256 soldIntents [soldSlot] cancelTwice

/-- A cent more on the second of two refunds. -/
theorem refundLedger_tamper_evident_cancelTwice :
    ∃ entry, twiceRefunded[1]? = some entry ∧
      verifyRefundLedgerChain sampleSha256 twiceRefunded = some ⟨true, -1, twiceRefunded.length⟩ ∧
      verifyRefundLedgerChain sampleSha256 (twiceRefunded.set 1
        { entry with netRefundCents := entry.netRefundCents + 1 }) = some ⟨false, 1, 2⟩ := by
  obtain ⟨entry, hentry⟩ : ∃ entry, twiceRefunded[1]? = some entry :=
    isSome_iff_exists.mp (by decide +kernel)
  obtain ⟨hvalid, htamper⟩ :=
    @refundLedger_tamper_evident sampleSha256 soldIntents sampleSha256_injective [soldSlot]
      cancelTwice
  exact ⟨entry, hentry, hvalid, htamper 1 entry _ hentry (.netRefundCents _ (by omega))⟩

/-- The chain does not see a creation time within its millisecond, and
the check throws on one that is not a `Date`. -/
theorem createdAt_change_undetected : twiceRefunded.length = 2 ∧
    verifyRefundLedgerChain sampleSha256 (twiceRefunded.modify 0
      fun entry => { entry with createdAt := entry.createdAt + 1 / 2 }) = some ⟨true, -1, 2⟩ ∧
    verifyRefundLedgerChain sampleSha256 (twiceRefunded.modify 0
      fun entry => { entry with createdAt := 10 ^ 16 }) = none := by
  decide +kernel

end SchedulingService

end ChronoPay
