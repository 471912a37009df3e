import Mathlib.Data.List.Pairwise
import Mathlib.Data.List.Sort
import ChronoPay.Pricing

/-!
# CancellationPolicy — versioned cancellation terms and hold fees

`cancellationPolicy.ts` and `holdFeePolicy.ts` up to the snapshots a
booking stores at creation: the terms in force for the supplier (its own
override first, the registry's current version else) and the supplier's
non-refundable hold fee. Refund arithmetic on the captured terms is
`computeRefundWithTerms`; it is over exact rationals, so a flat fee or a
bound with a fraction of a cent is kept as it is.

`tiers_apart_iff` says when valid tiers do not overlap.
-/

namespace ChronoPay

open List Result

structure CancellationTier where
  minHoursUntilStart : ℚ
  maxHoursUntilStart : Option ℚ := none
  refundRatio : ℚ
  flatFee : Option ℚ := none
  percentageFee : Option ℚ := none
  taxReversalRatio : Option ℚ := none
  deriving DecidableEq, Repr

structure ProratedCancellationTerms where
  tiers : List CancellationTier
  minRefundAmount : Option ℚ := none
  maxRefundAmount : Option ℚ := none
  deriving DecidableEq, Repr

/-- The errors of the policy layer; tiers are numbered in sorted order. -/
inductive PolicyError where
  /-- "ProratedCancellationTerms must have at least one tier" -/
  | noTier
  /-- "Tier …: minHoursUntilStart must be a finite non-negative number" -/
  | badMinHours (tier : Nat)
  /-- "Tier …: maxHoursUntilStart must be > minHoursUntilStart" -/
  | badMaxHours (tier : Nat)
  /-- "Tier …: refundRatio must be in [0, 1]" -/
  | badRefundRatio (tier : Nat)
  /-- "Tier …: flatFee must be a finite non-negative number" -/
  | badFlatFee (tier : Nat)
  /-- "Tier …: percentageFee must be in [0, 1]" -/
  | badPercentageFee (tier : Nat)
  /-- "Tier …: overlaps with previous tier (gap or overlap detected at …h)" -/
  | overlap (tier : Nat) (hours : ℚ)
  /-- "minRefundAmount must be a finite non-negative number" -/
  | badMinRefund
  /-- "maxRefundAmount must be a finite non-negative number" -/
  | badMaxRefund
  /-- "maxRefundAmount must be >= minRefundAmount" -/
  | refundBounds
  /-- "Current policy version … is not in registry" -/
  | unknownVersion (versionId : String)
  /-- "price must be non-negative" -/
  | negativePrice
  deriving DecidableEq, Repr

/-- An optional field is absent or passes the check. -/
def optional (p : ℚ → Prop) (x : Option ℚ) : Prop := ∀ v ∈ x, p v

instance (p : ℚ → Prop) [DecidablePred p] (x : Option ℚ) : Decidable (optional p x) :=
  inferInstanceAs (Decidable (∀ v ∈ x, p v))

/-- The loop over the sorted tiers, at tier `i` after one that ends at `prevMax`. -/
def validateTiers : Nat → Option ℚ → List CancellationTier → Except PolicyError Unit
  | _, _, [] => .ok ()
  | i, prevMax, tier :: rest => do
    require (0 ≤ tier.minHoursUntilStart) (PolicyError.badMinHours i)
    require (optional (tier.minHoursUntilStart < ·) tier.maxHoursUntilStart)
      (PolicyError.badMaxHours i)
    require (0 ≤ tier.refundRatio ∧ tier.refundRatio ≤ 1) (PolicyError.badRefundRatio i)
    require (optional (0 ≤ ·) tier.flatFee) (PolicyError.badFlatFee i)
    require (optional (fun fee => 0 ≤ fee ∧ fee ≤ 1) tier.percentageFee)
      (PolicyError.badPercentageFee i)
    require (optional (· ≤ tier.minHoursUntilStart) prevMax)
      (PolicyError.overlap i tier.minHoursUntilStart)
    validateTiers (i + 1) tier.maxHoursUntilStart rest

def validateProratedCancellationTerms (terms : ProratedCancellationTerms) :
    Except PolicyError Unit := do
  require (terms.tiers ≠ []) PolicyError.noTier
  validateTiers 0 none (terms.tiers.insertionSort (·.minHoursUntilStart ≤ ·.minHoursUntilStart))
  require (optional (0 ≤ ·) terms.minRefundAmount) PolicyError.badMinRefund
  require (optional (0 ≤ ·) terms.maxRefundAmount) PolicyError.badMaxRefund
  require (optional (fun lo => optional (lo ≤ ·) terms.maxRefundAmount) terms.minRefundAmount)
    PolicyError.refundBounds

def selectTierForCancellation (terms : ProratedCancellationTerms) (hoursUntilStart : ℚ) :
    Option CancellationTier :=
  (terms.tiers.insertionSort (·.minHoursUntilStart ≥ ·.minHoursUntilStart)).find? fun tier =>
    decide (tier.minHoursUntilStart ≤ hoursUntilStart) &&
      decide (optional (hoursUntilStart < ·) tier.maxHoursUntilStart)

structure TierApplied where
  minHoursUntilStart : ℚ
  maxHoursUntilStart : Option ℚ
  refundRatio : ℚ
  deriving DecidableEq, Repr

structure RefundBreakdown where
  fee : ℚ
  taxReversal : ℚ
  netRefund : ℚ
  policyVersion : String
  tierApplied : Option TierApplied
  hoursUntilStart : ℚ
  basePrice : ℚ
  holdFee : ℚ
  deriving DecidableEq, Repr

/-- `ratio ? Math.round(base * ratio) : 0`. -/
def roundedShare (base : ℚ) : Option ℚ → ℚ
  | some ratio => if ratio = 0 then 0 else mathRound (base * ratio)
  | none => 0

def computeRefundWithTerms (terms : ProratedCancellationTerms) (price hoursUntilStart : ℚ)
    (policyVersionId : String) : Except PolicyError RefundBreakdown := do
  require (0 ≤ price) PolicyError.negativePrice
  match selectTierForCancellation terms hoursUntilStart with
  | none =>
    return { fee := 0, taxReversal := 0, netRefund := 0, policyVersion := policyVersionId,
             tierApplied := none, hoursUntilStart, basePrice := price, holdFee := 0 }
  | some tier =>
    let baseRefund : ℚ := max 0 (mathRound (price * tier.refundRatio))
    let fee := roundedShare baseRefund tier.percentageFee + tier.flatFee.getD 0
    let taxReversal := roundedShare baseRefund tier.taxReversalRatio
    let net := baseRefund + taxReversal - fee
    let net := match terms.minRefundAmount with
      | some lo => max lo net
      | none => net
    let net := match terms.maxRefundAmount with
      | some hi => min hi net
      | none => net
    return { fee, taxReversal, netRefund := max 0 net, policyVersion := policyVersionId,
             tierApplied := some ⟨tier.minHoursUntilStart, tier.maxHoursUntilStart,
               tier.refundRatio⟩,
             hoursUntilStart, basePrice := price, holdFee := 0 }

def applyHoldFeeToRefund (breakdown : RefundBreakdown) (holdFeeCents : ℚ) : RefundBreakdown :=
  let validatedFee : ℚ := max 0 (mathRound holdFeeCents)
  { breakdown with
    holdFee := validatedFee
    netRefund := max 0 (breakdown.netRefund - validatedFee) }

/-! ## Snapshots -/

structure VersionedPolicyRegistryEntry where
  versionId : String
  terms : ProratedCancellationTerms
  deriving DecidableEq, Repr

structure VersionedPolicyRegistry where
  entries : List (String × VersionedPolicyRegistryEntry)
  currentVersionId : String
  deriving DecidableEq, Repr

structure CancellationPolicySnapshot where
  policyVersionId : String
  policyTerms : ProratedCancellationTerms
  capturedAtMs : Int
  deriving DecidableEq, Repr

def legacyV1VersionId : String := "v1-timezone-tier"

def legacyV1Terms : ProratedCancellationTerms where
  tiers := [
    { minHoursUntilStart := 24, refundRatio := 1, percentageFee := some (5 / 100),
      taxReversalRatio := some (1 / 10) },
    { minHoursUntilStart := 12, maxHoursUntilStart := some 24, refundRatio := 1 / 2,
      percentageFee := some (5 / 100), taxReversalRatio := some (1 / 10) },
    { minHoursUntilStart := 0, maxHoursUntilStart := some 12, refundRatio := 0,
      percentageFee := some (5 / 100), taxReversalRatio := some (1 / 10) }]
  minRefundAmount := some 0

def proratedV2VersionId : String := "v2-prorated"

def proratedV2Terms : ProratedCancellationTerms where
  tiers := [
    { minHoursUntilStart := 168, refundRatio := 1, flatFee := some 0,
      taxReversalRatio := some (1 / 10) },
    { minHoursUntilStart := 72, maxHoursUntilStart := some 168, refundRatio := 85 / 100,
      flatFee := some 0, taxReversalRatio := some (1 / 10) },
    { minHoursUntilStart := 24, maxHoursUntilStart := some 72, refundRatio := 6 / 10,
      flatFee := some 50, taxReversalRatio := some (1 / 10) },
    { minHoursUntilStart := 12, maxHoursUntilStart := some 24, refundRatio := 3 / 10,
      flatFee := some 100, taxReversalRatio := some (1 / 10) },
    { minHoursUntilStart := 0, maxHoursUntilStart := some 12, refundRatio := 0,
      flatFee := some 0, taxReversalRatio := some (1 / 10) }]
  minRefundAmount := some 0

def createDefaultRegistry : VersionedPolicyRegistry where
  currentVersionId := proratedV2VersionId
  entries := [
    (legacyV1VersionId, ⟨legacyV1VersionId, legacyV1Terms⟩),
    (proratedV2VersionId, ⟨proratedV2VersionId, proratedV2Terms⟩)]

/-- `supplierOverrideStore.getOverride(id)?.terms`. -/
abbrev SupplierOverrides := String → Option ProratedCancellationTerms

def resolveTermsForSupplier (overrides : SupplierOverrides) (supplierId : String) :
    Option (String × ProratedCancellationTerms) :=
  (overrides supplierId).map fun terms => (s!"supplier-override:{supplierId}", terms)

/-- `snapshotCurrentPolicy(undefined, supplierId)`; an empty supplier id
is falsy and skips the override. -/
def snapshotCurrentPolicy (registry : VersionedPolicyRegistry) (overrides : SupplierOverrides)
    (supplierId : String) (nowMs : Int) : Except PolicyError CancellationPolicySnapshot :=
  match if supplierId = "" then none else resolveTermsForSupplier overrides supplierId with
  | some (policyVersionId, terms) => do
    validateProratedCancellationTerms terms
    return { policyVersionId, policyTerms := terms, capturedAtMs := nowMs }
  | none =>
    match registry.entries.lookup registry.currentVersionId with
    | none => .error (.unknownVersion registry.currentVersionId)
    | some entry => do
      validateProratedCancellationTerms entry.terms
      return { policyVersionId := entry.versionId, policyTerms := entry.terms,
               capturedAtMs := nowMs }

structure HoldFeePolicySnapshot where
  supplierId : String
  holdFeeCents : ℚ
  capturedAtMs : Int
  deriving DecidableEq, Repr

/-- The configured hold fees by supplier id. -/
abbrev HoldFeePolicyRegistry := String → Option ℚ

def resolveHoldFeeCents (registry : HoldFeePolicyRegistry) (supplierId : String) : ℚ :=
  match registry supplierId with
  | some fee => max 0 fee
  | none => 0

def snapshotForSupplier (registry : HoldFeePolicyRegistry) (supplierId : String) (nowMs : Int) :
    HoldFeePolicySnapshot :=
  { supplierId, holdFeeCents := resolveHoldFeeCents registry supplierId, capturedAtMs := nowMs }

def computeRetention (snapshot : HoldFeePolicySnapshot) : ℚ := max 0 snapshot.holdFeeCents

/-- A captured snapshot always carries terms that passed validation, so
refunds under it never fail on the terms. -/
theorem snapshotCurrentPolicy_valid {registry : VersionedPolicyRegistry}
    {overrides : SupplierOverrides} {supplierId : String} {nowMs : Int}
    {snapshot : CancellationPolicySnapshot}
    (h : snapshotCurrentPolicy registry overrides supplierId nowMs = .ok snapshot) :
    validateProratedCancellationTerms snapshot.policyTerms = .ok () := by
  unfold snapshotCurrentPolicy at h
  split at h
  · obtain ⟨_, hvalid, hret⟩ := bind_eq_ok.mp h
    cases hret
    exact hvalid
  · split at h
    · cases h
    · obtain ⟨_, hvalid, hret⟩ := bind_eq_ok.mp h
      cases hret
      exact hvalid

/-- Both built-in versions pass the validation every snapshot runs. -/
theorem createDefaultRegistry_valid :
    ∀ entry ∈ createDefaultRegistry.entries,
      validateProratedCancellationTerms entry.2.terms = .ok () := by
  decide +kernel

/-! ## Tiers that do not overlap -/

def CancellationTier.Covers (hours : ℚ) (tier : CancellationTier) : Prop :=
  tier.minHoursUntilStart ≤ hours ∧ optional (hours < ·) tier.maxHoursUntilStart

instance (hours : ℚ) : DecidablePred (CancellationTier.Covers hours) :=
  fun _ => inferInstanceAs (Decidable (_ ∧ _))

/-- No hours are covered twice. -/
def Apart (tiers : List CancellationTier) : Prop :=
  ∀ hours, tiers.Pairwise fun a b => ¬ (a.Covers hours ∧ b.Covers hours)

/-- The tiers in the order of the validation. -/
def ascending (tiers : List CancellationTier) : List CancellationTier :=
  tiers.insertionSort (·.minHoursUntilStart ≤ ·.minHoursUntilStart)

variable {terms : ProratedCancellationTerms} {tiers tiers' : List CancellationTier}

theorem Apart.perm (h : Apart tiers) (hperm : tiers.Perm tiers') : Apart tiers' := fun hours =>
  (hperm.pairwise_iff fun hab hba => hab hba.symm).mp (h hours)

theorem apart_iff_of_validateTiers {i : Nat} {prevMax : Option ℚ}
    (hvalid : validateTiers i prevMax tiers = .ok ())
    (hsorted : tiers.Pairwise (·.minHoursUntilStart ≤ ·.minHoursUntilStart)) :
    Apart tiers ↔ ∀ tier ∈ tiers.dropLast, tier.maxHoursUntilStart ≠ none := by
  induction tiers generalizing i prevMax with
  | nil => exact ⟨fun _ => forall_mem_nil _, fun _ _ => .nil⟩
  | cons a tiers ih =>
    simp only [validateTiers, bind_eq_ok, require_eq_ok] at hvalid
    obtain ⟨-, -, -, -, -, -, -, -, -, -, -, -, hrest⟩ := hvalid
    obtain ⟨hfirst, hlater⟩ := pairwise_cons.mp hsorted
    have hrec := ih hrest hlater
    cases tiers with
    | nil => exact ⟨fun _ => forall_mem_nil _, fun _ _ => pairwise_singleton ..⟩
    | cons b rest =>
      simp only [validateTiers, bind_eq_ok, require_eq_ok] at hrest
      obtain ⟨-, -, -, hb, -, -, -, -, -, -, -, hstart, -⟩ := hrest
      have hhead : (∀ hours, ∀ t ∈ b :: rest, ¬ (a.Covers hours ∧ t.Covers hours)) ↔
          a.maxHoursUntilStart ≠ none := by
        constructor
        · intro h hopen
          refine h b.minHoursUntilStart b mem_cons_self ⟨⟨hfirst b mem_cons_self, ?_⟩,
            le_refl _, hb⟩
          intro m hm
          cases hopen.symm.trans hm
        · rintro hmax hours t ht ⟨ha, hcovers⟩
          obtain ⟨m, hm⟩ := Option.ne_none_iff_exists'.mp hmax
          -- `a` ends before the next tier begins, and `t` begins not before that
          have hle : b.minHoursUntilStart ≤ t.minHoursUntilStart := by
            rcases mem_cons.mp ht with rfl | ht
            · exact le_refl _
            · exact (pairwise_cons.mp hlater).1 t ht
          exact absurd (ha.2 m hm) (not_lt.mpr ((hstart m hm).trans (hle.trans hcovers.1)))
      rw [dropLast_cons_cons, forall_mem_cons, ← hhead, ← hrec]
      exact ⟨fun h => ⟨fun hours => (pairwise_cons.mp (h hours)).1,
        fun hours => (pairwise_cons.mp (h hours)).2⟩,
        fun h hours => pairwise_cons.mpr ⟨h.1 hours, h.2 hours⟩⟩

theorem selectTierForCancellation_eq_some (h : Apart terms.tiers) {hours : ℚ}
    {tier : CancellationTier} :
    selectTierForCancellation terms hours = some tier ↔ tier ∈ terms.tiers ∧ tier.Covers hours := by
  have hperm := perm_insertionSort
    (fun a b : CancellationTier => a.minHoursUntilStart ≥ b.minHoursUntilStart) terms.tiers
  have hselect : selectTierForCancellation terms hours = (terms.tiers.insertionSort
      (·.minHoursUntilStart ≥ ·.minHoursUntilStart)).find? fun t => t.Covers hours := by
    unfold selectTierForCancellation
    congr
    funext t
    exact (Bool.decide_and ..).symm
  rw [hselect]
  constructor
  · intro hfind
    have htier := find?_some hfind
    exact ⟨hperm.mem_iff.mp (mem_of_find?_eq_some hfind), of_decide_eq_true htier⟩
  · rintro ⟨hmem, htier⟩
    cases hfind : (terms.tiers.insertionSort
        (·.minHoursUntilStart ≥ ·.minHoursUntilStart)).find? fun t => t.Covers hours with
    | none =>
      rw [find?_eq_none] at hfind
      exact absurd (decide_eq_true htier) (hfind tier (hperm.mem_iff.mpr hmem))
    | some t =>
      have ht := find?_some hfind
      have hmem' := hperm.mem_iff.mp (mem_of_find?_eq_some hfind)
      have : Std.Symm fun a b : CancellationTier => ¬ (a.Covers hours ∧ b.Covers hours) :=
        ⟨fun _ _ hab hba => hab hba.symm⟩
      by_contra hne
      have hother : tier ≠ t := fun heq => hne (congrArg some heq.symm)
      exact (h hours).forall hmem hmem' hother ⟨htier, of_decide_eq_true ht⟩

/-- **Which valid terms have no hours that two tiers cover**: those in
which no tier but the last is open-ended. The tier that is selected does
then not depend on the order they are listed in. -/
theorem tiers_apart_iff (hvalid : validateProratedCancellationTerms terms = .ok ()) :
    (Apart terms.tiers ↔
      ∀ tier ∈ (ascending terms.tiers).dropLast, tier.maxHoursUntilStart ≠ none) ∧
    (Apart terms.tiers → ∀ tiers, terms.tiers.Perm tiers → ∀ hours,
      selectTierForCancellation { terms with tiers } hours
        = selectTierForCancellation terms hours) := by
  have hperm := perm_insertionSort
    (fun a b : CancellationTier => a.minHoursUntilStart ≤ b.minHoursUntilStart) terms.tiers
  simp only [validateProratedCancellationTerms, bind_eq_ok] at hvalid
  obtain ⟨-, -, _, htiers, -⟩ := hvalid
  refine ⟨?_, fun h tiers hsame hours => ?_⟩
  · rw [ascending, ← apart_iff_of_validateTiers htiers (pairwise_insertionSort ..)]
    exact ⟨fun h => h.perm hperm.symm, fun h => h.perm hperm⟩
  · refine Option.ext fun tier => ?_
    rw [selectTierForCancellation_eq_some h, selectTierForCancellation_eq_some (h.perm hsame),
      hsame.mem_iff]

theorem proratedV2_apart : Apart proratedV2Terms.tiers :=
  (tiers_apart_iff (show validateProratedCancellationTerms proratedV2Terms = .ok () by
    decide +kernel)).1.mpr (by decide +kernel)

/-- Two open-ended tiers from the same hour on. -/
def openTwice (first second : ℚ) : ProratedCancellationTerms where
  tiers := [{ minHoursUntilStart := 0, refundRatio := first },
    { minHoursUntilStart := 0, refundRatio := second }]

/-- They are accepted, and the one that is listed first is selected. -/
theorem openTwice_selected : validateProratedCancellationTerms (openTwice 1 0) = .ok () ∧
    (openTwice 1 0).tiers.Perm (openTwice 0 1).tiers ∧
    (selectTierForCancellation (openTwice 1 0) 5).map (·.refundRatio) = some 1 ∧
    (selectTierForCancellation (openTwice 0 1) 5).map (·.refundRatio) = some 0 := by
  decide +kernel

end ChronoPay
