import ChronoPay.BookingIntents

/-!
# RefundPolicy — refund amounts for a booking intent

Before the session starts the refund follows the terms captured on the
intent (`calculateRefund`); once it has started it is the linear share
of the remaining time (`calculateDurationBasedRefund`).
-/

namespace ChronoPay

open Result

inductive RefundError where
  /-- 409 "Already cancelled" -/
  | alreadyCancelled
  | policy (err : PolicyError)
  /-- "Refund amount must be a non-negative finite number." -/
  | invalidRefundAmount
  deriving DecidableEq, Repr

def BookingIntentRecord.resolveIntentPrice (intent : BookingIntentRecord) : Int :=
  match intent.pricingSnapshot with
  | some snapshot => snapshot.resolvedPrice
  | none => 0

/-- The terms a refund is computed under: the captured ones, or for an
intent from before snapshots the supplier's override, then version 1. -/
def refundTerms (registry : VersionedPolicyRegistry) (overrides : SupplierOverrides)
    (intent : BookingIntentRecord) : String × ProratedCancellationTerms :=
  match intent.cancellationPolicySnapshot with
  | some snapshot => (snapshot.policyVersionId, snapshot.policyTerms)
  | none =>
    match if intent.professional = "" then none
      else resolveTermsForSupplier overrides intent.professional with
    | some (policyVersionId, terms) => (policyVersionId, terms)
    | none =>
      (legacyV1VersionId,
        ((registry.entries.lookup legacyV1VersionId).map (·.terms)).getD legacyV1Terms)

/-- `(to - from) / (1000 * 60 * 60)`. -/
def hoursBetween (fromMs toMs : ℚ) : ℚ := (toMs - fromMs) / 3600000

def calculateRefund (registry : VersionedPolicyRegistry) (overrides : SupplierOverrides)
    (nowMs : Int) (intent : BookingIntentRecord) : Except RefundError RefundBreakdown := do
  require (intent.status ≠ .cancelled) RefundError.alreadyCancelled
  let (policyVersionId, terms) := refundTerms registry overrides intent
  (validateProratedCancellationTerms terms).mapError .policy
  let breakdown ← (computeRefundWithTerms terms intent.resolveIntentPrice
    (hoursBetween nowMs intent.startTime) policyVersionId).mapError .policy
  match intent.holdFeePolicySnapshot with
  | some snapshot => return applyHoldFeeToRefund breakdown (computeRetention snapshot)
  | none => return breakdown

structure DurationRefund where
  refundAmountCents : Int
  consumedRatio : ℚ
  remainingRatio : ℚ
  deriving DecidableEq, Repr

def calculateDurationBasedRefund (amountCents startTimeMs endTimeMs : Int) (nowMs : ℚ) :
    Except RefundError DurationRefund := do
  require (0 ≤ amountCents) RefundError.invalidRefundAmount
  if endTimeMs ≤ startTimeMs then
    return { refundAmountCents := 0, consumedRatio := 1, remainingRatio := 0 }
  else
    let totalMs : ℚ := endTimeMs - startTimeMs
    let consumedMs := min (max (nowMs - startTimeMs) 0) totalMs
    let consumedRatio := consumedMs / totalMs
    let remainingRatio := max 0 (min 1 (1 - consumedRatio))
    return { refundAmountCents := mathRound (amountCents * remainingRatio), consumedRatio,
             remainingRatio }

end ChronoPay
