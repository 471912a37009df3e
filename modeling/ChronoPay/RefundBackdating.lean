import ChronoPay.IntentSafety

/-!
# RefundBackdating — the admin's `cancelledAtMs`

The override decides whether the refund follows the captured terms or
the remaining time. Only the remaining time is then counted from it: the
terms are read off the hours that the SERVICE's clock leaves, so before
the session a backdated refund is today's.
-/

namespace ChronoPay

open Result

variable {cfg : ServiceConfig} {e : Env} {intent : BookingIntentRecord}

/-- The service while its clock stands. -/
def Env.clockAt (e : Env) (t : Int) : Env := { e with nowMs := fun _ => t }

/-- A breakdown under the terms carries the hours the clock left. -/
theorem calculateRefund_hours {registry : VersionedPolicyRegistry} {overrides : SupplierOverrides}
    {nowMs : Int} {breakdown : RefundBreakdown}
    (h : calculateRefund registry overrides nowMs intent = .ok breakdown) :
    breakdown.hoursUntilStart = hoursBetween nowMs intent.startTime := by
  obtain ⟨_, -, h⟩ := bind_eq_ok.mp h
  obtain ⟨_, -, h⟩ := bind_eq_ok.mp h
  obtain ⟨computed, hcomputed, h⟩ := bind_eq_ok.mp h
  have hhours : computed.hoursUntilStart = hoursBetween nowMs intent.startTime := by
    obtain ⟨_, -, hresult⟩ := bind_eq_ok.mp (mapError_eq_ok.mp hcomputed)
    split at hresult <;> cases hresult <;> rfl
  split at h <;> cases h <;> exact hhours

theorem refundAmounts_hours {c : ℚ} {amounts : RefundAmounts} (hbefore : c < intent.startTime)
    (h : refundAmounts cfg e intent c = .ok amounts) :
    amounts.breakdown.hoursUntilStart = hoursBetween (e.nowMs .refundTerms) intent.startTime := by
  rw [refundAmounts, if_pos hbefore] at h
  obtain ⟨breakdown, hbreakdown, h⟩ := bind_eq_ok.mp h
  cases h
  exact calculateRefund_hours (mapError_eq_ok.mp hbreakdown)

/-- **When the override really backdates**: an accepted call computes what
the service would have computed at that time exactly when nothing is
backdated, or the session had started by then. -/
theorem refund_backdated_iff {actor : AuthContext} {reason : Option String} {now c : Int}
    {found : Option BookingIntentRecord} {amounts : RefundAmounts} (hadmin : actor.role = "admin")
    (haccepted : refundChecks cfg (e.clockAt now) actor
      { reason, cancelledAtMs := some (some (c : ℚ)) } found = .ok (intent, amounts)) :
    (∃ amounts', refundChecks cfg (e.clockAt c) actor { reason } found = .ok (intent, amounts') ∧
      amounts'.refundAmountCents = amounts.refundAmountCents ∧
      amounts'.breakdown = amounts.breakdown) ↔
    c = now ∨ intent.startTime ≤ c := by
  obtain ⟨checked, hchecked, h⟩ := bind_eq_ok.mp haccepted
  obtain ⟨cancelledAt, hcancelledAt, h⟩ := bind_eq_ok.mp h
  obtain ⟨computed, hamounts, h⟩ := bind_eq_ok.mp h
  cases h
  have hoverride : cancelledAt = c := by
    rw [effectiveCancelledAtMs, if_pos hadmin] at hcancelledAt
    obtain ⟨_, -, h⟩ := bind_eq_ok.mp hcancelledAt
    cases h
    rfl
  subst hoverride
  have hplain : ∀ amounts', refundChecks cfg (e.clockAt c) actor { reason } found
      = .ok (intent, amounts') ↔ refundAmounts cfg (e.clockAt c) intent c = .ok amounts' := by
    have hnow : effectiveCancelledAtMs (e.clockAt c) actor { reason } = .ok (c : ℚ) := by
      rw [effectiveCancelledAtMs, if_pos hadmin]
      rfl
    simp [refundChecks, bind_eq_ok, hchecked, hnow, pure, Except.pure]
  simp only [hplain]
  by_cases hstarted : intent.startTime ≤ c
  · have hstarted' : (intent.startTime : ℚ) ≤ c := by exact_mod_cast hstarted
    refine iff_of_true ⟨amounts, ?_, rfl, rfl⟩ (.inr hstarted)
    -- once the session has started the clock does not matter
    rw [refundAmounts, if_neg (not_lt.mpr hstarted')] at hamounts ⊢
    exact hamounts
  · have hbefore : (c : ℚ) < intent.startTime := by exact_mod_cast not_le.mp hstarted
    rw [or_iff_left hstarted]
    constructor
    · rintro ⟨amounts', hcomputed, -, hbreakdown⟩
      have hours := refundAmounts_hours hbefore hcomputed
      rw [hbreakdown, refundAmounts_hours hbefore hamounts, hoursBetween, hoursBetween,
        div_left_inj' (by norm_num), sub_right_inj] at hours
      exact_mod_cast hours.symm
    · rintro rfl
      exact ⟨amounts, hamounts, rfl, rfl⟩

/-- A session in two days for 10.00, under the legacy terms. -/
def sampleBooked : BookingIntentRecord :=
  { samplePending with
    startTime := 48 * 3600000
    endTime := 49 * 3600000
    pricingSnapshot := some
      { strategyId := .fixed, resolvedPrice := 1000, basePrice := 1000,
        slotStartMs := 48 * 3600000, nowMs := 0, activeBookings := 0, capacity := 1,
        config := .fixed }
    cancellationPolicySnapshot := some ⟨legacyV1VersionId, legacyV1Terms, 0⟩ }

def root : AuthContext := ⟨"root", "admin"⟩

/-- The refund of the sample at a time, with a cancellation time given. -/
def sampleRefund (now : Int) (cancelledAtMs : Option JsNumber) :
    Except ServiceError (BookingIntentRecord × RefundAmounts) :=
  refundChecks {} (sampleEnv.clockAt now) root { cancelledAtMs } (some sampleBooked)

/-- Half of the session is left. -/
def halfRefund : RefundAmounts where
  refundAmountCents := 500
  refundRatio := 1 / 2
  consumedRatio := 1 / 2
  breakdown :=
    { fee := 0, taxReversal := 0, netRefund := 500, policyVersion := legacyV1VersionId,
      tierApplied := none, hoursUntilStart := -1 / 2, basePrice := 1000, holdFee := 0 }

theorem refund_backdated_halfway :
    ∃ amounts', sampleRefund 174600000 none = .ok (sampleBooked, amounts') ∧
      amounts'.refundAmountCents = halfRefund.refundAmountCents ∧
      amounts'.breakdown = halfRefund.breakdown := by
  have haccepted : sampleRefund (49 * 3600000) (some (some ((174600000 : Int) : ℚ)))
      = .ok (sampleBooked, halfRefund) := by decide +kernel
  exact (refund_backdated_iff rfl haccepted).mpr (.inr (by decide))

/-- Cancelled two days ahead, on the record: the full price. Recorded by
an admin twelve hours ahead, for the same time: half of it. -/
theorem refund_backdated_late :
    (sampleRefund 0 none).toOption.map (·.2.refundAmountCents) = some 1050 ∧
      (sampleRefund (36 * 3600000) (some (some 0))).toOption.map (·.2.refundAmountCents)
        = some 525 := by
  decide +kernel

end ChronoPay
