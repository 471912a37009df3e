import ChronoPay.Lib.Machine
import ChronoPay.PayoutRetryPolicy

/-!
# SettlementReconciler — settlements on their way to finality

`SettlementReconciler.reconcile`: one pass over the settlements that are
pending or ready for payout, each polled at most once. Passes do not
overlap, so a pass is a function of the settlements and of what it gets
from outside: the ledger number, and for each transaction the clock, the
random source and the answer of Horizon.

Two places can throw. The backoff gate stands OUTSIDE the `try`, so a
configuration that does not validate ends the whole pass there; behind
the answer it is caught, and the settlement keeps its attempts.

Metrics, the log, the quarantine of failed payouts and the alert are left
out; of a settlement, what no pass reads.
-/

namespace ChronoPay

open List Machine

structure ChainFinalityStatus where
  found : Bool
  successful : Option Bool := none
  ledger : Option ℚ := none
  confirmations : ℚ := 0
  deriving DecidableEq, Repr

inductive SettlementStatus where
  | pendingFinality
  | payoutReady
  | finalized
  | failed
  | reorgFlagged
  deriving DecidableEq, Repr

structure Settlement where
  transactionId : String
  status : SettlementStatus
  ledgerNumber : Option ℚ := none
  confirmations : ℚ := 0
  attempts : Nat := 0
  lastPolledAt : Option ℚ := none
  forkAlertTriggered : Bool := false
  providerId : Option String := none
  deriving DecidableEq, Repr

namespace SettlementReconciler

/-- What a reconciler is built with. -/
structure Settings where
  minConfirmations : ℚ := 3
  stabilityConfirmations : ℚ := 3
  defaultRetryConfig : Option ProviderRetryConfig := none
  providerRetryRegistry : String → Option ProviderRetryConfig := fun _ => none

def resolveRetryConfig (settings : Settings) (settlement : Settlement) : ProviderRetryConfig :=
  let id := settlement.providerId.getD "default"
  match settings.defaultRetryConfig with
  | some config =>
    if id = "default" then { config with providerId := id }
    else getProviderRetryConfig settings.providerRetryRegistry id
  | none => getProviderRetryConfig settings.providerRetryRegistry id

/-- What a pass gets from outside for one settlement. -/
structure Poll where
  gateRandom : ℚ := 0
  gateNow : ℚ := 0
  now : ℚ := 0
  retryRandom : ℚ := 0
  answer : Except String ChainFinalityStatus := .error ""

/-- Whether the settlement is still within its backoff window. -/
def backoffGate (settings : Settings) (poll : Poll) (settlement : Settlement) :
    Except RetryConfigError Bool :=
  match settlement.status, settlement.lastPolledAt with
  | .pendingFinality, some lastPolledAt => do
    let backoff ← calculatePayoutBackoffDelay settlement.attempts
      (resolveRetryConfig settings settlement) poll.gateRandom
    return poll.gateNow - lastPolledAt < backoff.delayMs
  | _, _ => .ok false

/-- Horizon has no record of the transaction. -/
def recordMissing (settings : Settings) (poll : Poll) (settlement : Settlement) : Settlement :=
  if settlement.status = .payoutReady then
    { settlement with status := .reorgFlagged, forkAlertTriggered := true }
  else
    let retryCfg := resolveRetryConfig settings settlement
    let nextAttempt := settlement.attempts + 1
    let exhausted := !isRetryable nextAttempt retryCfg
    match calculatePayoutBackoffDelay nextAttempt retryCfg poll.retryRandom with
    | .error _ => settlement
    | .ok _ =>
      if exhausted then { settlement with attempts := nextAttempt, status := .failed }
      else { settlement with attempts := nextAttempt }

/-- The transaction is on the chain and was accepted. -/
def recordFound (settings : Settings) (status : ChainFinalityStatus) (settlement : Settlement) :
    Settlement :=
  let seen := { settlement with
    ledgerNumber := status.ledger, confirmations := status.confirmations }
  let finalizedThreshold := settings.minConfirmations + settings.stabilityConfirmations
  if seen.status = .payoutReady ∧ finalizedThreshold ≤ seen.confirmations then
    { seen with status := .finalized }
  else if settings.minConfirmations ≤ seen.confirmations then { seen with status := .payoutReady }
  else seen

def applyAnswer (settings : Settings) (poll : Poll) (settlement : Settlement) : Settlement :=
  match poll.answer with
  | .error _ => settlement
  | .ok status =>
    if status.found = false then recordMissing settings poll settlement
    else if status.successful ≠ some true then { settlement with status := .failed }
    else recordFound settings status settlement

/-- One round of the loop. -/
def pollSettlement (settings : Settings) (poll : Poll) (settlement : Settlement) :
    Except RetryConfigError Settlement :=
  match backoffGate settings poll settlement with
  | .error err => .error err
  | .ok true => .ok settlement
  | .ok false => .ok (applyAnswer settings poll { settlement with lastPolledAt := some poll.now })

/-- The settlements a pass polls. -/
def Active (settlement : Settlement) : Prop :=
  settlement.status = .pendingFinality ∨ settlement.status = .payoutReady

instance (settlement : Settlement) : Decidable (Active settlement) :=
  inferInstanceAs (Decidable (_ ∨ _))

/-- The loop over the active settlements; a throw ends it. A round writes
its own settlement only, so what is active when its turn comes is what was
active when the pass began. -/
def reconcileEach (settings : Settings) (poll : String → Poll) :
    List Settlement → List Settlement × Except RetryConfigError Unit
  | [] => ([], .ok ())
  | settlement :: rest =>
    if Active settlement then
      match pollSettlement settings (poll settlement.transactionId) settlement with
      | .error err => (settlement :: rest, .error err)
      | .ok polled =>
        (polled :: (reconcileEach settings poll rest).1, (reconcileEach settings poll rest).2)
    else (settlement :: (reconcileEach settings poll rest).1, (reconcileEach settings poll rest).2)

/-- What a pass gets from outside. -/
structure Pass where
  latestLedger : Except String ℚ := .ok 0
  poll : String → Poll

def reconcile (settings : Settings) (pass : Pass) (settlements : List Settlement) :
    List Settlement × Except RetryConfigError Unit :=
  if settlements.all fun settlement => ¬ Active settlement then (settlements, .ok ())
  else
    match pass.latestLedger with
    | .error _ => (settlements, .ok ())
    | .ok _ => reconcileEach settings pass.poll settlements

/-- A settlement arrives by a webhook, completed or failed as its provider
says, or the reconciler makes a pass. -/
inductive Cmd where
  | received (transactionId : String) (providerId : Option String) (completed : Bool)
  | reconcile (pass : Pass)

def received (transactionId : String) (providerId : Option String) (completed : Bool) :
    Settlement :=
  { transactionId, providerId
    status := if completed then .pendingFinality else .failed }

def step (settings : Settings) (settlements : List Settlement) : Cmd → List Settlement
  | .received transactionId providerId completed =>
    if settlements.any fun settlement => settlement.transactionId = transactionId then settlements
    else settlements ++ [received transactionId providerId completed]
  | .reconcile pass => (reconcile settings pass settlements).1

/-! ## One round -/

variable {settings : Settings} {poll : Poll} {settlement polled : Settlement}
  {settlements : List Settlement}

/-- What a round makes of a settlement: nothing, or one of four records of
an answer behind the time of the poll. -/
theorem pollSettlement_rule {motive : Settlement → Prop}
    (h : pollSettlement settings poll settlement = .ok polled) (skipped : motive settlement)
    (unanswered : motive { settlement with lastPolledAt := some poll.now })
    (missing : motive (recordMissing settings poll
      { settlement with lastPolledAt := some poll.now }))
    (rejected : motive { settlement with lastPolledAt := some poll.now, status := .failed })
    (found : ∀ status, poll.answer = .ok status → status.found = true →
      status.successful = some true →
      motive (recordFound settings status { settlement with lastPolledAt := some poll.now })) :
    motive polled := by
  unfold pollSettlement at h
  split at h
  · cases h
  · cases h
    exact skipped
  · cases h
    unfold applyAnswer
    split
    · exact unanswered
    next status hanswer =>
      split_ifs with hmissing hrejected
      · exact missing
      · exact rejected
      · exact found status hanswer (by simpa using hmissing) (by simpa using hrejected)

/-- The moves of a settlement, each with what the answer says. -/
inductive Move (settings : Settings) (answer : Except String ChainFinalityStatus) :
    SettlementStatus → SettlementStatus → Prop
  | stay (status : SettlementStatus) : Move settings answer status status
  | ready (status : ChainFinalityStatus) (hanswer : answer = .ok status)
      (hfound : status.found = true) (hsuccessful : status.successful = some true)
      (hconfirmed : settings.minConfirmations ≤ status.confirmations) :
      Move settings answer .pendingFinality .payoutReady
  | finalize (status : ChainFinalityStatus) (hanswer : answer = .ok status)
      (hfound : status.found = true) (hsuccessful : status.successful = some true)
      (hconfirmed : settings.minConfirmations + settings.stabilityConfirmations
        ≤ status.confirmations) :
      Move settings answer .payoutReady .finalized
  | failPending : Move settings answer .pendingFinality .failed
  | failReady : Move settings answer .payoutReady .failed
  | reorg : Move settings answer .payoutReady .reorgFlagged

theorem recordMissing_move (hactive : Active settlement) :
    Move settings poll.answer settlement.status (recordMissing settings poll settlement).status := by
  unfold recordMissing
  rcases hactive with hstatus | hstatus
  · rw [if_neg (by rw [hstatus]; exact nofun)]
    dsimp only
    split
    · exact .stay _
    · split
      · rw [hstatus]
        exact .failPending
      · exact .stay _
  · rw [if_pos hstatus, hstatus]
    exact .reorg

theorem recordFound_move {status : ChainFinalityStatus} (hanswer : poll.answer = .ok status)
    (hfound : status.found = true) (hsuccessful : status.successful = some true)
    (hactive : Active settlement) :
    Move settings poll.answer settlement.status
      (recordFound settings status settlement).status := by
  unfold recordFound
  dsimp only
  rcases hactive with hstatus | hstatus
  · rw [if_neg (by rw [hstatus]; exact nofun)]
    split
    next hconfirmed =>
      rw [hstatus]
      exact .ready status hanswer hfound hsuccessful hconfirmed
    · exact .stay _
  · split
    next hfinal =>
      rw [hstatus]
      exact .finalize status hanswer hfound hsuccessful hfinal.2
    · split
      · rw [hstatus]
        exact .stay _
      · exact .stay _

/-- **A round moves a settlement along a legal edge.** -/
theorem pollSettlement_move (hactive : Active settlement)
    (h : pollSettlement settings poll settlement = .ok polled) :
    Move settings poll.answer settlement.status polled.status := by
  have hactive' : Active { settlement with lastPolledAt := some poll.now } := hactive
  refine pollSettlement_rule
    (motive := fun polled => Move settings poll.answer settlement.status polled.status) h
    (.stay _) (.stay _) (recordMissing_move hactive') ?_ ?_
  · rcases hactive with hstatus | hstatus
    · rw [hstatus]
      exact .failPending
    · rw [hstatus]
      exact .failReady
  · intro status hanswer hfound hsuccessful
    exact recordFound_move hanswer hfound hsuccessful hactive'

theorem recordMissing_transactionId :
    (recordMissing settings poll settlement).transactionId = settlement.transactionId := by
  unfold recordMissing
  split
  · rfl
  · dsimp only
    split
    · rfl
    · split <;> rfl

theorem pollSettlement_transactionId (h : pollSettlement settings poll settlement = .ok polled) :
    polled.transactionId = settlement.transactionId := by
  refine pollSettlement_rule
    (motive := fun polled => polled.transactionId = settlement.transactionId) h rfl rfl
    recordMissing_transactionId rfl ?_
  intro status _ _ _
  unfold recordFound
  dsimp only
  split_ifs <;> rfl

/-- The attempts of a settlement against the limit of its provider: while it
is pending there is one left. A provider that allows no retry at all still
gets its first attempt counted, so the limit binds from one on. -/
structure WithinRetries (settings : Settings) (settlement : Settlement) : Prop where
  attempts_le : 1 ≤ (resolveRetryConfig settings settlement).maxRetries →
    (settlement.attempts : ℚ) ≤ (resolveRetryConfig settings settlement).maxRetries
  retryable : 1 ≤ (resolveRetryConfig settings settlement).maxRetries →
    settlement.status = .pendingFinality →
    isRetryable settlement.attempts (resolveRetryConfig settings settlement) = true

theorem recordMissing_withinRetries (hactive : Active settlement)
    (h : WithinRetries settings settlement) :
    WithinRetries settings (recordMissing settings poll settlement) := by
  unfold recordMissing
  rcases hactive with hstatus | hstatus
  · rw [if_neg (by rw [hstatus]; exact nofun)]
    dsimp only
    split
    · exact h
    next hdelay =>
      obtain ⟨maxRetries, hmax⟩ := calculatePayoutBackoffDelay_ok hdelay
      split
      · exact ⟨fun hlimit => succ_le_maxRetries hmax (h.retryable hlimit hstatus), nofun⟩
      next hleft =>
        rw [Bool.not_eq_true', Bool.not_eq_false] at hleft
        exact ⟨fun hlimit => succ_le_maxRetries hmax (h.retryable hlimit hstatus), fun _ _ => hleft⟩
  · rw [if_pos hstatus]
    exact ⟨h.attempts_le, nofun⟩

/-- **A round keeps the attempts within the limit.** -/
theorem pollSettlement_withinRetries (hactive : Active settlement)
    (h : pollSettlement settings poll settlement = .ok polled)
    (hwithin : WithinRetries settings settlement) : WithinRetries settings polled := by
  have hactive' : Active { settlement with lastPolledAt := some poll.now } := hactive
  have hwithin' : WithinRetries settings { settlement with lastPolledAt := some poll.now } :=
    ⟨hwithin.attempts_le, hwithin.retryable⟩
  refine pollSettlement_rule h hwithin hwithin' (recordMissing_withinRetries hactive' hwithin')
    ⟨hwithin.attempts_le, nofun⟩ ?_
  intro status _ _ _
  unfold recordFound
  dsimp only
  split_ifs
  · exact ⟨hwithin.attempts_le, nofun⟩
  · exact ⟨hwithin.attempts_le, nofun⟩
  · exact ⟨hwithin.attempts_le, hwithin.retryable⟩

/-! ## One pass -/

/-- What a pass may do to one settlement: poll it, if it is active. -/
def Passed (settings : Settings) (pass : Pass) (settlement settlement' : Settlement) : Prop :=
  settlement' = settlement ∨ Active settlement ∧
    pollSettlement settings (pass.poll settlement.transactionId) settlement = .ok settlement'

theorem passed_refl (settings : Settings) (pass : Pass) (settlements : List Settlement) :
    List.Forall₂ (Passed settings pass) settlements settlements :=
  forall₂_same.mpr fun _ _ => .inl rfl

/-- The loop, by induction on the settlements: a throw leaves the rest. -/
theorem reconcileEach_passed (pass : Pass) :
    List.Forall₂ (Passed settings pass) settlements
      (reconcileEach settings pass.poll settlements).1 := by
  induction settlements with
  | nil => exact .nil
  | cons settlement rest ih =>
    unfold reconcileEach
    split
    next hactive =>
      split
      · exact passed_refl settings pass _
      next polled hpolled => exact .cons (.inr ⟨hactive, hpolled⟩) ih
    · exact .cons (.inl rfl) ih

/-- **What a pass does**: it polls some of the active settlements, once. -/
theorem reconcile_passed (pass : Pass) :
    List.Forall₂ (Passed settings pass) settlements (reconcile settings pass settlements).1 := by
  unfold reconcile
  split
  · exact passed_refl settings pass _
  · split
    · exact passed_refl settings pass _
    · exact reconcileEach_passed pass

theorem Passed.move {pass : Pass} {settlement' : Settlement}
    (h : Passed settings pass settlement settlement') :
    settlement'.transactionId = settlement.transactionId ∧
      Move settings (pass.poll settlement.transactionId).answer settlement.status
        settlement'.status := by
  rcases h with rfl | ⟨hactive, hpolled⟩
  · exact ⟨rfl, .stay _⟩
  · exact ⟨pollSettlement_transactionId hpolled, pollSettlement_move hactive hpolled⟩

/-! ## Any sequence of passes -/

theorem received_withinRetries {transactionId : String} {providerId : Option String}
    {completed : Bool} :
    WithinRetries settings (received transactionId providerId completed) := by
  constructor
  · intro hlimit
    have hzero : ((0 : Nat) : ℚ) ≤ 1 := by norm_num
    exact hzero.trans hlimit
  · intro hlimit _
    have hzero : ((0 : Nat) : ℚ) < 1 := by norm_num
    exact decide_eq_true (hzero.trans_le hlimit)

theorem passed_withinRetries {pass : Pass} {settlements' : List Settlement}
    (h : List.Forall₂ (Passed settings pass) settlements settlements')
    (hwithin : ∀ settlement ∈ settlements, WithinRetries settings settlement) :
    ∀ settlement ∈ settlements', WithinRetries settings settlement := by
  induction h with
  | nil => exact hwithin
  | cons hpassed _ ih =>
    rw [forall_mem_cons] at hwithin ⊢
    refine ⟨?_, ih hwithin.2⟩
    rcases hpassed with rfl | ⟨hactive, hpolled⟩
    · exact hwithin.1
    · exact pollSettlement_withinRetries hactive hpolled hwithin.1

theorem step_withinRetries (cmd : Cmd)
    (h : ∀ settlement ∈ settlements, WithinRetries settings settlement) :
    ∀ settlement ∈ step settings settlements cmd, WithinRetries settings settlement := by
  cases cmd with
  | received transactionId providerId completed =>
    simp only [step]
    split
    · exact h
    · intro settlement hmem
      rcases mem_append.mp hmem with hmem | hmem
      · exact h settlement hmem
      · obtain rfl := mem_singleton.mp hmem
        exact received_withinRetries
  | reconcile pass => exact passed_withinRetries (reconcile_passed pass) h

/-- One command changes the settlements legally: a pass moves each along an
edge that the answer to its own poll allows, a webhook leaves those it finds
as they are. -/
def Legal (settings : Settings) (settlements : List Settlement) (cmd : Cmd) : Prop :=
  match cmd with
  | .received .. => settlements <+: step settings settlements cmd
  | .reconcile pass =>
    List.Forall₂ (fun settlement settlement' =>
      settlement'.transactionId = settlement.transactionId ∧
        Move settings (pass.poll settlement.transactionId).answer settlement.status
          settlement'.status)
      settlements (step settings settlements cmd)

theorem step_legal (settings : Settings) (settlements : List Settlement) (cmd : Cmd) :
    Legal settings settlements cmd := by
  cases cmd with
  | received transactionId providerId completed =>
    simp only [Legal, step]
    split
    · exact prefix_rfl
    · exact prefix_append _ _
  | reconcile pass => exact (reconcile_passed pass).imp fun _ _ h => h.move

/-- **Settlements only move forward, and within their retries**, whatever
Horizon answers and whatever the clock and the jitter are. -/
theorem settlements_legal (settings : Settings) (cmds : List Cmd) :
    Along (step settings) (Legal settings) [] cmds ∧
      Always (step settings) (fun settlements => ∀ settlement ∈ settlements,
        1 ≤ (resolveRetryConfig settings settlement).maxRetries →
        (settlement.attempts : ℚ) ≤ (resolveRetryConfig settings settlement).maxRetries)
        [] cmds := by
  constructor
  · exact along_of_forall (step_legal settings) [] cmds
  · have hwithin := always_of_inv
      (I := fun settlements => ∀ settlement ∈ settlements, WithinRetries settings settlement)
      (fun _ cmd h => step_withinRetries cmd h) (s := []) (by simp) cmds
    exact hwithin.mono fun _ h settlement hmem => (h settlement hmem).attempts_le

end SettlementReconciler

end ChronoPay
