import Mathlib.Data.Rat.Floor
import ChronoPay.Lib.Result

/-!
# PayoutRetryPolicy — full-jitter backoff with a ceiling per provider

The delay before a retry is drawn uniformly below a cap that grows with
the attempts up to the provider's ceiling. Every calculation validates
the configuration first, so a delay that was computed certifies it
(`calculatePayoutBackoffDelay_ok`).
-/

namespace ChronoPay

structure ProviderRetryConfig where
  providerId : String
  baseDelayMs : ℚ
  multiplier : ℚ
  maxDelayCeilingMs : ℚ
  maxRetries : ℚ
  deriving DecidableEq, Repr

structure BackoffDelayResult where
  capMs : ℚ
  delayMs : Int
  attempt : Nat
  providerId : String
  deriving DecidableEq, Repr

/-- The field of a configuration that is not valid, with its value. -/
inductive RetryConfigError where
  | providerId
  | baseDelayMs (providerId : String) (got : ℚ)
  | multiplier (providerId : String) (got : ℚ)
  | maxDelayCeilingMs (providerId : String) (got : ℚ)
  | maxRetries (providerId : String) (got : ℚ)
  deriving DecidableEq, Repr

/-- The texts, by the text of a number. -/
def RetryConfigError.message (number : ℚ → String) : RetryConfigError → String
  | providerId => "ProviderRetryConfig: providerId must be a non-empty string"
  | baseDelayMs provider got =>
    s!"ProviderRetryConfig [{provider}]: baseDelayMs must be a positive integer, got " ++ number got
  | multiplier provider got =>
    s!"ProviderRetryConfig [{provider}]: multiplier must be >= 1, got " ++ number got
  | maxDelayCeilingMs provider got =>
    s!"ProviderRetryConfig [{provider}]: maxDelayCeilingMs must be a positive integer, got " ++
      number got
  | maxRetries provider got =>
    s!"ProviderRetryConfig [{provider}]: maxRetries must be a non-negative integer, got " ++
      number got

def defaultProviderRetryConfig (providerId : String) : ProviderRetryConfig :=
  { providerId, baseDelayMs := 1000, multiplier := 2, maxDelayCeilingMs := 30000, maxRetries := 5 }

def getProviderRetryConfig (providerRetryRegistry : String → Option ProviderRetryConfig)
    (providerId : String) : ProviderRetryConfig :=
  (providerRetryRegistry providerId).getD (defaultProviderRetryConfig providerId)

open Result in
def validateProviderRetryConfig (cfg : ProviderRetryConfig) : Except RetryConfigError Unit := do
  require (cfg.providerId ≠ "") .providerId
  require (cfg.baseDelayMs.isInt = true ∧ 0 < cfg.baseDelayMs)
    (.baseDelayMs cfg.providerId cfg.baseDelayMs)
  require (1 ≤ cfg.multiplier) (.multiplier cfg.providerId cfg.multiplier)
  require (cfg.maxDelayCeilingMs.isInt = true ∧ 0 < cfg.maxDelayCeilingMs)
    (.maxDelayCeilingMs cfg.providerId cfg.maxDelayCeilingMs)
  require (cfg.maxRetries.isInt = true ∧ 0 ≤ cfg.maxRetries)
    (.maxRetries cfg.providerId cfg.maxRetries)

/-- `calculatePayoutBackoffDelay`, where `random` is what the random source
returns. Attempts are counted, so they are never negative. -/
def calculatePayoutBackoffDelay (attempt : Nat) (config : ProviderRetryConfig) (random : ℚ) :
    Except RetryConfigError BackoffDelayResult := do
  validateProviderRetryConfig config
  let exponentialCap := config.baseDelayMs * config.multiplier ^ attempt
  let capMs := min config.maxDelayCeilingMs exponentialCap
  return { capMs, delayMs := ⌊random * (capMs + 1)⌋, attempt, providerId := config.providerId }

def isRetryable (attempt : Nat) (config : ProviderRetryConfig) : Bool :=
  (attempt : ℚ) < config.maxRetries

variable {attempt : Nat} {config : ProviderRetryConfig} {random : ℚ} {backoff : BackoffDelayResult}

/-- The defaults are valid, whatever the provider is called. -/
theorem validate_defaultProviderRetryConfig {providerId : String} (h : providerId ≠ "") :
    validateProviderRetryConfig (defaultProviderRetryConfig providerId) = .ok () := by
  have hbase : (1000 : ℚ).isInt = true := rfl
  have hceiling : (30000 : ℚ).isInt = true := rfl
  have hretries : (5 : ℚ).isInt = true := rfl
  simp only [validateProviderRetryConfig, Result.bind_eq_ok, defaultProviderRetryConfig]
  refine ⟨(), Result.require_eq_ok.mpr h, (), Result.require_eq_ok.mpr ⟨hbase, by norm_num⟩,
    (), Result.require_eq_ok.mpr (by norm_num), (), Result.require_eq_ok.mpr ⟨hceiling, by norm_num⟩,
    Result.require_eq_ok.mpr ⟨hretries, by norm_num⟩⟩

/-- A delay is only computed for a whole number of retries. -/
theorem calculatePayoutBackoffDelay_ok
    (h : calculatePayoutBackoffDelay attempt config random = .ok backoff) :
    ∃ maxRetries : Nat, config.maxRetries = maxRetries := by
  obtain ⟨_, hvalid, -⟩ := Result.bind_eq_ok.mp h
  simp only [validateProviderRetryConfig, Result.bind_eq_ok, Result.require_eq_ok] at hvalid
  obtain ⟨_, -, _, -, _, -, _, -, hint, hpos⟩ := hvalid
  refine ⟨config.maxRetries.num.toNat, ?_⟩
  have hden : config.maxRetries.den = 1 := by simpa [Rat.isInt] using hint
  have hnum : 0 ≤ config.maxRetries.num := Rat.num_nonneg.mpr hpos
  have hcast : (config.maxRetries.num : ℚ) = config.maxRetries := Rat.den_eq_one_iff _ |>.mp hden
  rw [← Int.cast_natCast, Int.toNat_of_nonneg hnum, hcast]

/-- With attempts left, one more is within the limit. -/
theorem succ_le_maxRetries {maxRetries : Nat} (hmax : config.maxRetries = maxRetries)
    (h : isRetryable attempt config = true) : ((attempt + 1 : Nat) : ℚ) ≤ config.maxRetries := by
  simp only [isRetryable, hmax, decide_eq_true_eq, Nat.cast_lt] at h
  rw [hmax]
  exact_mod_cast h

end ChronoPay
