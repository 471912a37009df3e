import Mathlib.Data.Rat.Floor
import ChronoPay.Lib.Result

/-!
# Pricing — the strategies of `pricingStrategy.ts`

Prices, ratios and windows are exact rationals here; what a strategy
returns went through `Math.round` and is an integer. A strategy reads
its configuration through an unchecked cast, so a configuration of the
wrong shape reads as missing fields, which the finiteness checks reject.
-/

namespace ChronoPay

open Result

/-- `Math.round`: the nearest integer, ties upwards. -/
def mathRound (x : ℚ) : Int := ⌊x + 1 / 2⌋

theorem mathRound_nonneg {x : ℚ} (h : 0 ≤ x) : 0 ≤ mathRound x := Int.floor_nonneg.mpr (by linarith)

inductive StrategyId where
  | fixed
  | timeDecay
  | demandBased
  | flatRate
  deriving DecidableEq, Repr

inductive StrategyConfig where
  | fixed
  | timeDecay (windowMs minMultiplier : ℚ)
  | demandBased (maxMultiplier : ℚ)
  deriving DecidableEq, Repr

namespace StrategyConfig

/-- `(config as TimeDecayConfig).windowMs`. -/
def windowMs : StrategyConfig → Option ℚ
  | timeDecay w _ => some w
  | _ => none

/-- `(config as TimeDecayConfig).minMultiplier`. -/
def minMultiplier : StrategyConfig → Option ℚ
  | timeDecay _ m => some m
  | _ => none

/-- `(config as DemandBasedConfig).maxMultiplier`. -/
def maxMultiplier : StrategyConfig → Option ℚ
  | demandBased m => some m
  | _ => none

end StrategyConfig

structure PricingInput where
  basePrice : ℚ
  slotStartMs : Int
  nowMs : Int
  activeBookings : Nat
  capacity : ℚ
  config : StrategyConfig
  deriving DecidableEq, Repr

structure PricingResult where
  price : Int
  strategyId : StrategyId
  deriving DecidableEq, Repr

/-- The errors of the strategies, each with the value its text reports. -/
inductive PricingError where
  /-- "… must be a finite non-negative number, got …" -/
  | notNonNegative (name : String) (got : ℚ)
  /-- "capacity must be an integer ≥ 1, got …" -/
  | badCapacity (got : ℚ)
  /-- "time_decay.windowMs must be a positive finite number, got …" -/
  | badWindow (got : Option ℚ)
  /-- "time_decay.minMultiplier must be in [0, 1], got …" -/
  | badMinMultiplier (got : Option ℚ)
  /-- "demand_based.maxMultiplier must be a finite number ≥ 1, got …" -/
  | badMaxMultiplier (got : Option ℚ)
  deriving DecidableEq, Repr

def assertPositiveFinite (value : ℚ) (name : String) : Except PricingError Unit :=
  require (0 ≤ value) (.notNonNegative name value)

def assertCapacity (capacity : ℚ) : Except PricingError Unit :=
  require (capacity.isInt = true ∧ 1 ≤ capacity) (.badCapacity capacity)

/-- `if (!Number.isFinite(value) || !p) throw …` on a field of the cast
configuration; a missing field is not finite. -/
def assertConfig (p : ℚ → Prop) [DecidablePred p] (err : Option ℚ → PricingError) :
    Option ℚ → Except PricingError ℚ
  | some value => if p value then .ok value else .error (err (some value))
  | none => .error (err none)

def fixedStrategy (input : PricingInput) : Except PricingError PricingResult := do
  assertPositiveFinite input.basePrice "basePrice"
  return { price := mathRound input.basePrice, strategyId := .fixed }

/-- The multiplier falls linearly from 1 at the start of the window to
`minMultiplier` at the start of the slot. -/
def decayMultiplier (msUntilStart windowMs minMultiplier : ℚ) : ℚ :=
  if windowMs ≤ msUntilStart then 1
  else if msUntilStart ≤ 0 then minMultiplier
  else 1 - (1 - msUntilStart / windowMs) * (1 - minMultiplier)

def timeDecayStrategy (input : PricingInput) : Except PricingError PricingResult := do
  assertPositiveFinite input.basePrice "basePrice"
  let windowMs ← assertConfig (fun w => 0 < w) .badWindow input.config.windowMs
  let minMultiplier ← assertConfig (fun m => 0 ≤ m ∧ m ≤ 1) .badMinMultiplier
    input.config.minMultiplier
  let multiplier := decayMultiplier (input.slotStartMs - input.nowMs) windowMs minMultiplier
  return { price := max 0 (mathRound (input.basePrice * multiplier)), strategyId := .timeDecay }

def demandBasedStrategy (input : PricingInput) : Except PricingError PricingResult := do
  assertPositiveFinite input.basePrice "basePrice"
  assertCapacity input.capacity
  let maxMultiplier ← assertConfig (fun m => 1 ≤ m) .badMaxMultiplier input.config.maxMultiplier
  let clampedBookings := min (max 0 (input.activeBookings : ℚ)) input.capacity
  let multiplier := 1 + clampedBookings / input.capacity * (maxMultiplier - 1)
  return { price := max 0 (mathRound (input.basePrice * multiplier)), strategyId := .demandBased }

/-- The strategy registry. The old name `flat-rate` is the fixed strategy. -/
def resolvePrice : StrategyId → PricingInput → Except PricingError PricingResult
  | .fixed => fixedStrategy
  | .flatRate => fixedStrategy
  | .timeDecay => timeDecayStrategy
  | .demandBased => demandBasedStrategy

end ChronoPay
