import Mathlib.Algebra.BigOperators.Ring.Finset
import Mathlib.Data.Int.ConditionallyCompleteOrder
import Mathlib.Tactic.Positivity
import ChronoPay.Lib.IsoDate
import ChronoPay.Lib.Result

/-!
# TaxRefund — `TaxRefundCalculator` of `taxRefundCalculator.ts`

A partial refund returns, for every tax line, the floor of its share in
the refunded subtotal, and where the jurisdiction prorates, the floor of
that share times a coefficient. Amounts are exact rationals here; the
checks for integers are those of the source. How `new Date` reads a text
is a parameter `parse`, with `none` for an invalid date.

A calculator carries the proof that its rules passed `validateRule`. The
headline, `partial_refunds_within`, splits one refund into any number of
parts: every line stays within its amount, and the parts together return
no more tax than the refund in one piece.
-/

namespace ChronoPay.TaxRefund

open List Option Result

structure TaxRefundCalculatorError where
  message : String
  code : String
  deriving DecidableEq, Repr

inductive TaxRefundStrategy where
  | fullProportional
  | prorated
  /-- A text outside the declared type, which only `validateRule` rejects. -/
  | other (text : String)
  deriving DecidableEq, Repr

def TaxRefundStrategy.text : TaxRefundStrategy → String
  | fullProportional => "full_proportional"
  | prorated => "prorated"
  | other text => text

structure JurisdictionTaxRule where
  jurisdictionCode : String
  strategy : TaxRefundStrategy
  prorateCoefficient : Option ℚ := none
  effectiveFrom : String
  effectiveTo : Option String := none
  deriving DecidableEq, Repr

structure TaxLine where
  label : String
  amountCents : ℚ
  jurisdictionCode : String
  deriving DecidableEq, Repr

structure TaxRefundInput where
  capturedAmountCents : ℚ
  subtotalCents : ℚ
  taxLines : List TaxLine
  refundSubtotalCents : ℚ
  asOf : Option String := none
  deriving DecidableEq, Repr

structure TaxLineRefund where
  label : String
  jurisdictionCode : String
  proportionalTaxCents : Int
  refundableTaxCents : Int
  strategyApplied : TaxRefundStrategy
  prorateCoefficient : Option ℚ
  appliedRule : JurisdictionTaxRule
  deriving DecidableEq, Repr

structure TaxAdjustedRefundRecord where
  refundSubtotalCents : ℚ
  taxLineRefunds : List TaxLineRefund
  totalTaxRefundCents : Int
  totalRefundCents : ℚ
  calculatedAt : String
  deriving DecidableEq, Repr

section

variable (parse : String → Option Int)

/-! ## Rules -/

/-- `a < b` between dates, false if one of them is invalid. -/
def before : Option Int → Option Int → Bool
  | some a, some b => decide (a < b)
  | _, _ => false

/-- `from <= asOfMs && asOfMs < to`; an absent or empty end is open. -/
def JurisdictionTaxRule.activeAt (asOfMs : Option Int) (r : JurisdictionTaxRule) : Bool :=
  (match parse r.effectiveFrom, asOfMs with
    | some start, some now => decide (start ≤ now)
    | _, _ => false) &&
  (match r.effectiveTo with
    | none => asOfMs.isSome
    | some stop => if stop = "" then asOfMs.isSome else before asOfMs (parse stop))

/-- `new Date(r.effectiveFrom) > new Date(best.effectiveFrom) ? r : best`. -/
def laterRule (best r : JurisdictionTaxRule) : JurisdictionTaxRule :=
  if before (parse best.effectiveFrom) (parse r.effectiveFrom) then r else best

def resolveRule (rules : List JurisdictionTaxRule) (jurisdictionCode : String)
    (asOfMs : Option Int) : Option JurisdictionTaxRule :=
  let active := rules.filter (·.activeAt parse asOfMs)
  let exactMatches := active.filter (·.jurisdictionCode = jurisdictionCode)
  let prefixMatches := active.filter fun r =>
    r.jurisdictionCode ≠ jurisdictionCode ∧
      (r.jurisdictionCode ++ "-").toList.isPrefixOf jurisdictionCode.toList
  match if exactMatches ≠ [] then exactMatches else prefixMatches with
  | [] => none
  | first :: rest => some (rest.foldl (laterRule parse) first)

def invalidRule (message : String) : TaxRefundCalculatorError := ⟨message, "INVALID_RULE"⟩

def validateRule (rule : JurisdictionTaxRule) : Except TaxRefundCalculatorError Unit := do
  require (rule.jurisdictionCode ≠ "") (invalidRule "jurisdictionCode must be a non-empty string")
  require (rule.strategy = .fullProportional ∨ rule.strategy = .prorated)
    (invalidRule ("Unknown strategy: " ++ rule.strategy.text))
  require (rule.strategy = .prorated → ∃ c ∈ rule.prorateCoefficient, 0 ≤ c ∧ c ≤ 1)
    (invalidRule "prorateCoefficient must be a number in [0, 1] for prorated strategy")
  require (rule.effectiveFrom ≠ "" ∧ (parse rule.effectiveFrom).isSome)
    (invalidRule "effectiveFrom must be a valid ISO 8601 date-time")
  require (∀ stop ∈ rule.effectiveTo, (parse stop).isSome)
    (invalidRule "effectiveTo must be a valid ISO 8601 date-time")
  require (∀ stop ∈ rule.effectiveTo, stop ≠ "" → before (parse rule.effectiveFrom) (parse stop))
    (invalidRule "effectiveTo must be after effectiveFrom")

/-- A calculator: its rules have passed `validateRule`. -/
structure TaxRefundCalculator where
  rules : List JurisdictionTaxRule
  valid : ∀ rule ∈ rules, validateRule parse rule = .ok ()

variable {parse}

def TaxRefundCalculator.addRule (calculator : TaxRefundCalculator parse)
    (rule : JurisdictionTaxRule) :
    Except TaxRefundCalculatorError (TaxRefundCalculator parse) :=
  match hrule : validateRule parse rule with
  | .error err => .error err
  | .ok () => .ok
    { rules := calculator.rules ++ [rule]
      valid := by
        intro r hr
        rcases mem_append.mp hr with hr | hr
        · exact calculator.valid r hr
        · rw [mem_singleton.mp hr, hrule] }

variable (parse)

/-- The constructor: the rules are checked in order. -/
def TaxRefundCalculator.new (rules : List JurisdictionTaxRule) :
    Except TaxRefundCalculatorError (TaxRefundCalculator parse) :=
  rules.foldlM (fun calculator rule => calculator.addRule rule) { rules := [], valid := nofun }

/-! ## One refund -/

/-- `Number.isInteger(x) && x >= 0`. -/
def IsAmount (x : ℚ) : Prop := x.den = 1 ∧ 0 ≤ x

instance (x : ℚ) : Decidable (IsAmount x) := inferInstanceAs (Decidable (_ ∧ _))

def invalidInput (message : String) : TaxRefundCalculatorError := ⟨message, "INVALID_INPUT"⟩

/-- The loop over the tax lines in `validateInput`. -/
def validateLines : List TaxLine → Except TaxRefundCalculatorError Unit
  | [] => .ok ()
  | line :: rest => do
    require (IsAmount line.amountCents) (invalidInput
      ("taxLine \"" ++ line.label ++ "\" amountCents must be a non-negative integer"))
    validateLines rest

def validateInput (input : TaxRefundInput) : Except TaxRefundCalculatorError Unit := do
  require (IsAmount input.capturedAmountCents)
    (invalidInput "capturedAmountCents must be a non-negative integer")
  require (IsAmount input.subtotalCents)
    (invalidInput "subtotalCents must be a non-negative integer")
  require (IsAmount input.refundSubtotalCents)
    (invalidInput "refundSubtotalCents must be a non-negative integer")
  require (input.refundSubtotalCents ≤ input.subtotalCents)
    (invalidInput "refundSubtotalCents cannot exceed subtotalCents")
  validateLines input.taxLines
  require (∀ text ∈ input.asOf, (parse text).isSome)
    (invalidInput "asOf must be a valid ISO 8601 date-time")

/-- The two readings of the clock a calculation makes. -/
structure Clock where
  /-- `new Date()` in place of an absent `asOf`. -/
  asOf : Int
  /-- `new Date()` of `calculatedAt`. -/
  finished : Int

/-- `input.asOf ? new Date(input.asOf) : new Date()`. -/
def asOfMs (clock : Clock) (input : TaxRefundInput) : Option Int :=
  match input.asOf with
  | none => some clock.asOf
  | some text => if text = "" then some clock.asOf else parse text

/-- The share of a tax amount in the refunded part of the subtotal. -/
def proportionalTax (subtotalCents refundSubtotalCents amountCents : ℚ) : Int :=
  if subtotalCents = 0 then 0 else ⌊amountCents * refundSubtotalCents / subtotalCents⌋

/-- What of the share a rule refunds. -/
def JurisdictionTaxRule.refundableTax (rule : JurisdictionTaxRule) (proportionalTaxCents : Int) :
    Int :=
  if rule.strategy = .fullProportional then proportionalTaxCents
  else ⌊proportionalTaxCents * rule.prorateCoefficient.getD 0⌋

variable {parse}

def TaxRefundCalculator.refundLine (calculator : TaxRefundCalculator parse) (asOf : Option Int)
    (input : TaxRefundInput) (line : TaxLine) : Except TaxRefundCalculatorError TaxLineRefund :=
  match resolveRule parse calculator.rules line.jurisdictionCode asOf with
  | none => .error
      ⟨"No active tax rule found for jurisdiction: " ++ line.jurisdictionCode, "NO_RULE_FOUND"⟩
  | some rule =>
    let proportionalTaxCents :=
      proportionalTax input.subtotalCents input.refundSubtotalCents line.amountCents
    .ok { label := line.label
          jurisdictionCode := line.jurisdictionCode
          proportionalTaxCents
          refundableTaxCents := rule.refundableTax proportionalTaxCents
          strategyApplied := rule.strategy
          prorateCoefficient :=
            if rule.strategy = .prorated then rule.prorateCoefficient else none
          appliedRule := rule }

/-- The loop of `calculate`: the records of the lines and their sum. -/
def TaxRefundCalculator.refundLines (calculator : TaxRefundCalculator parse) (asOf : Option Int)
    (input : TaxRefundInput) :
    List TaxLine → Except TaxRefundCalculatorError (List TaxLineRefund × Int)
  | [] => .ok ([], 0)
  | line :: rest => do
    let refund ← calculator.refundLine asOf input line
    let (refunds, total) ← refundLines calculator asOf input rest
    .ok (refund :: refunds, refund.refundableTaxCents + total)

def TaxRefundCalculator.calculate (calculator : TaxRefundCalculator parse) (clock : Clock)
    (input : TaxRefundInput) : Except TaxRefundCalculatorError TaxAdjustedRefundRecord := do
  validateInput parse input
  let (taxLineRefunds, totalTaxRefundCents) ←
    calculator.refundLines (asOfMs parse clock input) input input.taxLines
  .ok { refundSubtotalCents := input.refundSubtotalCents
        taxLineRefunds
        totalTaxRefundCents
        totalRefundCents := input.refundSubtotalCents + totalTaxRefundCents
        calculatedAt := IsoDate.isoText clock.finished }

end

/-! ## What passed the checks -/

variable {parse : String → Option Int}

variable {lines : List TaxLine} {input : TaxRefundInput} {asOf : Option Int} {clock : Clock}
  {record : TaxAdjustedRefundRecord}

theorem validateLines_eq_ok :
    validateLines lines = .ok () ↔ ∀ line ∈ lines, IsAmount line.amountCents := by
  induction lines with
  | nil => simp [validateLines]
  | cons line rest ih => simp [validateLines, bind_eq_ok, ih]

/-- What a valid input says apart from the amount to refund. -/
structure ValidSale (parse : String → Option Int) (input : TaxRefundInput) : Prop where
  captured : IsAmount input.capturedAmountCents
  subtotal : IsAmount input.subtotalCents
  lines : ∀ line ∈ input.taxLines, IsAmount line.amountCents
  asOf : ∀ text ∈ input.asOf, (parse text).isSome

theorem validateInput_eq_ok :
    validateInput parse input = .ok () ↔ ValidSale parse input ∧
      IsAmount input.refundSubtotalCents ∧ input.refundSubtotalCents ≤ input.subtotalCents := by
  simp only [validateInput, bind_eq_ok, require_eq_ok]
  constructor
  · rintro ⟨-, hcaptured, -, hsubtotal, -, hrefund, -, hle, _, hlines, hasOf⟩
    exact ⟨⟨hcaptured, hsubtotal, validateLines_eq_ok.mp hlines, hasOf⟩, hrefund, hle⟩
  · rintro ⟨⟨hcaptured, hsubtotal, hlines, hasOf⟩, hrefund, hle⟩
    exact ⟨(), hcaptured, (), hsubtotal, (), hrefund, (), hle, (),
      validateLines_eq_ok.mpr hlines, hasOf⟩

/-! ## The rule that governs a line -/

/-- An active rule whose code is the jurisdiction's, or begins it together
with a dash. -/
structure Candidate (parse : String → Option Int) (rules : List JurisdictionTaxRule)
    (code : String) (asOf : Option Int) (r : JurisdictionTaxRule) : Prop where
  mem : r ∈ rules
  active : r.activeAt parse asOf = true
  applies : r.jurisdictionCode = code ∨ (r.jurisdictionCode ++ "-").toList <+: code.toList

variable {rules : List JurisdictionTaxRule} {code : String} {rule : JurisdictionTaxRule}

theorem Candidate.isSome (h : Candidate parse rules code asOf rule) :
    (parse rule.effectiveFrom).isSome := by
  have hactive := h.active
  unfold JurisdictionTaxRule.activeAt at hactive
  cases hparse : parse rule.effectiveFrom with
  | none => simp [hparse] at hactive
  | some start => rfl

/-- The reduction keeps the latest rule, the first one of several. -/
theorem foldl_laterRule {first : JurisdictionTaxRule} {rest : List JurisdictionTaxRule}
    (h : ∀ r ∈ first :: rest, (parse r.effectiveFrom).isSome) :
    some (rest.foldl (laterRule parse) first)
      = (first :: rest).argmax fun r => (parse r.effectiveFrom).getD 0 := by
  change _ = rest.foldl _ (some first)
  induction rest generalizing first with
  | nil => rfl
  | cons second rest ih =>
    simp only [forall_mem_cons] at h ih
    obtain ⟨hfirst, hsecond, hrest⟩ := h
    obtain ⟨a, ha⟩ := isSome_iff_exists.mp hfirst
    obtain ⟨b, hb⟩ := isSome_iff_exists.mp hsecond
    rw [foldl_cons, foldl_cons]
    by_cases hlater : a < b
    · rw [laterRule, if_pos (by simp [before, ha, hb, hlater]), ih ⟨hsecond, hrest⟩]
      simp [List.argAux, ha, hb, hlater]
    · rw [laterRule, if_neg (by simpa [before, ha, hb] using hlater), ih ⟨hfirst, hrest⟩]
      simp [List.argAux, ha, hb, hlater]

/-- What is reduced: the candidates with the code itself, or all of them
if there are none. -/
theorem resolveRule_eq_argmax (parse : String → Option Int) (rules : List JurisdictionTaxRule)
    (code : String) (asOf : Option Int) :
    ∃ reduced : List JurisdictionTaxRule,
      resolveRule parse rules code asOf
        = reduced.argmax (fun r => (parse r.effectiveFrom).getD 0) ∧
      ∀ r, r ∈ reduced ↔ Candidate parse rules code asOf r ∧
        ((∃ e, Candidate parse rules code asOf e ∧ e.jurisdictionCode = code) →
          r.jurisdictionCode = code) := by
  simp only [resolveRule]
  generalize hexact : (rules.filter (·.activeAt parse asOf)).filter
    (·.jurisdictionCode = code) = exactMatches
  generalize hprefix : (rules.filter (·.activeAt parse asOf)).filter (fun r =>
    r.jurisdictionCode ≠ code ∧ (r.jurisdictionCode ++ "-").toList.isPrefixOf code.toList) =
      prefixMatches
  have hmemExact : ∀ r, r ∈ exactMatches ↔
      Candidate parse rules code asOf r ∧ r.jurisdictionCode = code := by
    intro r
    rw [← hexact]
    simp only [mem_filter, decide_eq_true_eq]
    exact ⟨fun ⟨⟨hr, hactive⟩, heq⟩ => ⟨⟨hr, hactive, .inl heq⟩, heq⟩,
      fun ⟨h, heq⟩ => ⟨⟨h.mem, h.active⟩, heq⟩⟩
  have hmemPrefix : ∀ r, r ∈ prefixMatches ↔
      Candidate parse rules code asOf r ∧ r.jurisdictionCode ≠ code := by
    intro r
    rw [← hprefix]
    simp only [mem_filter, decide_eq_true_eq, isPrefixOf_iff_prefix]
    exact ⟨fun ⟨⟨hr, hactive⟩, hne, hpre⟩ => ⟨⟨hr, hactive, .inr hpre⟩, hne⟩,
      fun ⟨h, hne⟩ => ⟨⟨h.mem, h.active⟩, hne, h.applies.resolve_left hne⟩⟩
  clear hexact hprefix
  cases exactMatches with
  | cons first rest =>
    have hfirst := (hmemExact first).mp mem_cons_self
    refine ⟨_, foldl_laterRule fun q hq => ((hmemExact q).mp hq).1.isSome, fun r => ?_⟩
    rw [hmemExact]
    exact and_congr_right fun _ => ⟨fun heq _ => heq, fun h => h ⟨first, hfirst⟩⟩
  | nil =>
    have hno : ¬ ∃ e, Candidate parse rules code asOf e ∧ e.jurisdictionCode = code :=
      fun ⟨e, he⟩ => not_mem_nil ((hmemExact e).mpr he)
    refine ⟨prefixMatches, ?_, fun r => ?_⟩
    · cases prefixMatches with
      | nil => rfl
      | cons first rest => exact foldl_laterRule fun q hq => ((hmemPrefix q).mp hq).1.isSome
    · rw [hmemPrefix]
      exact and_congr_right fun hr => ⟨fun _ h => absurd h hno, fun _ heq => hno ⟨r, hr, heq⟩⟩

theorem Candidate.length_le (h : Candidate parse rules code asOf rule) :
    rule.jurisdictionCode.length ≤ code.length ∧
      (rule.jurisdictionCode.length = code.length → rule.jurisdictionCode = code) := by
  rcases h.applies with heq | hpre
  · exact ⟨heq ▸ le_rfl, fun _ => heq⟩
  · have hlength := hpre.length_le
    simp only [String.toList_append, length_append, String.length_toList] at hlength
    exact ⟨Nat.le_of_succ_le hlength, fun heq => absurd heq (Nat.ne_of_lt hlength)⟩

def countryRule : JurisdictionTaxRule :=
  { jurisdictionCode := "US", strategy := .fullProportional
    effectiveFrom := "2025-01-01T00:00:00Z" }

def regionRule : JurisdictionTaxRule :=
  { jurisdictionCode := "US-CA", strategy := .fullProportional
    effectiveFrom := "2024-01-01T00:00:00Z" }

/-- What a function may lose when its argument is split into parts. -/
theorem sum_map_le_of_superadditive {ι : Type} {f : ℚ → Int} (h0 : 0 ≤ f 0)
    (hadd : ∀ x y, f x + f y ≤ f (x + y)) (g : ι → ℚ) (l : List ι) :
    (l.map fun i => f (g i)).sum ≤ f (l.map g).sum := by
  induction l with
  | nil => simpa using h0
  | cons i l ih =>
    simp only [map_cons, sum_cons]
    have := hadd (g i) (l.map g).sum
    omega

theorem proportionalTax_add (s x y a : ℚ) :
    proportionalTax s x a + proportionalTax s y a ≤ proportionalTax s (x + y) a := by
  unfold proportionalTax
  split
  · simp
  · rw [mul_add, add_div]
    exact Int.le_floor_add _ _

theorem proportionalTax_le {s x a : ℚ} (hs : 0 ≤ s) (hx : x ≤ s) (ha : 0 ≤ a) :
    (proportionalTax s x a : ℚ) ≤ a := by
  unfold proportionalTax
  split
  · exact_mod_cast ha
  next hne =>
    calc (⌊a * x / s⌋ : ℚ) ≤ a * x / s := Int.floor_le _
      _ ≤ a * s / s := by gcongr
      _ = a := mul_div_cancel_right₀ a hne

/-! ## The whole refund -/

variable {calculator : TaxRefundCalculator parse}

/-- The tax a line refunds under the rule in force. -/
def TaxRefundCalculator.lineTax (calculator : TaxRefundCalculator parse) (asOf : Option Int)
    (subtotal refunded : ℚ) (line : TaxLine) : Int :=
  match resolveRule parse calculator.rules line.jurisdictionCode asOf with
  | none => 0
  | some rule => rule.refundableTax (proportionalTax subtotal refunded line.amountCents)

/-- The rule in force, if there is one, refunds a share of the line's
proportional tax. -/
theorem lineTax_eq_floor (calculator : TaxRefundCalculator parse) (asOf : Option Int)
    (line : TaxLine) :
    ∃ c : ℚ, 0 ≤ c ∧ c ≤ 1 ∧ ∀ s x, calculator.lineTax asOf s x line
      = ⌊(proportionalTax s x line.amountCents : ℚ) * c⌋ := by
  unfold TaxRefundCalculator.lineTax
  cases hresolve : resolveRule parse calculator.rules line.jurisdictionCode asOf with
  | none => exact ⟨0, le_rfl, zero_le_one, by simp⟩
  | some rule =>
    obtain ⟨reduced, hargmax, hmem⟩ :=
      resolveRule_eq_argmax parse calculator.rules line.jurisdictionCode asOf
    have hvalid := calculator.valid rule
      ((hmem rule).mp (argmax_mem (hargmax.symm.trans hresolve))).1.mem
    simp only [validateRule, bind_eq_ok, require_eq_ok] at hvalid
    obtain ⟨-, -, -, hstrategy, -, hcoefficient, -⟩ := hvalid
    rcases hstrategy with hfull | hprorated
    · exact ⟨1, zero_le_one, le_rfl, by simp [JurisdictionTaxRule.refundableTax, hfull]⟩
    · obtain ⟨c, hc, h0, h1⟩ := hcoefficient hprorated
      refine ⟨c, h0, h1, ?_⟩
      simp [JurisdictionTaxRule.refundableTax, hprorated, Option.mem_def.mp hc]

/-- Both floors together: splitting the refund never gains. -/
theorem lineTax_superadditive (asOf : Option Int) (s : ℚ) (line : TaxLine) (x y : ℚ) :
    calculator.lineTax asOf s x line + calculator.lineTax asOf s y line
      ≤ calculator.lineTax asOf s (x + y) line := by
  obtain ⟨c, h0, -, heq⟩ := lineTax_eq_floor calculator asOf line
  rw [heq, heq, heq]
  refine (Int.le_floor_add _ _).trans (Int.floor_mono ?_)
  rw [← add_mul]
  exact mul_le_mul_of_nonneg_right (mod_cast proportionalTax_add s x y _) h0

theorem lineTax_bounds (asOf : Option Int) {s x : ℚ} (hx : 0 ≤ x) (hxs : x ≤ s)
    {line : TaxLine} (hline : 0 ≤ line.amountCents) :
    0 ≤ calculator.lineTax asOf s x line ∧
      (calculator.lineTax asOf s x line : ℚ) ≤ line.amountCents := by
  have hs : 0 ≤ s := hx.trans hxs
  have hshare : (0 : ℚ) ≤ proportionalTax s x line.amountCents := by
    unfold proportionalTax
    split
    · exact le_rfl
    · exact mod_cast Int.floor_nonneg.mpr (by positivity)
  obtain ⟨c, h0, h1, heq⟩ := lineTax_eq_floor calculator asOf line
  rw [heq]
  exact ⟨Int.floor_nonneg.mpr (mul_nonneg hshare h0), (Int.floor_le _).trans
    ((mul_le_of_le_one_right hshare h1).trans (proportionalTax_le hs hxs hline))⟩

/-- The tax on refunding `x` cents of the subtotal, over all lines. -/
def TaxRefundCalculator.taxOn (calculator : TaxRefundCalculator parse) (asOf : Option Int)
    (input : TaxRefundInput) (x : ℚ) : Int :=
  (input.taxLines.map (calculator.lineTax asOf input.subtotalCents x)).sum

/-- The loop returns one record per line, with that line's tax. -/
theorem refundLines_eq_ok {refunds : List TaxLineRefund} {total : Int}
    (h : calculator.refundLines asOf input lines = .ok (refunds, total)) :
    List.Forall₂
        (fun line refund => refund.refundableTaxCents
          = calculator.lineTax asOf input.subtotalCents input.refundSubtotalCents line)
        lines refunds ∧
      total = (lines.map
        (calculator.lineTax asOf input.subtotalCents input.refundSubtotalCents)).sum := by
  induction lines generalizing refunds total with
  | nil =>
    cases h
    exact ⟨.nil, rfl⟩
  | cons line rest ih =>
    simp only [TaxRefundCalculator.refundLines, bind_eq_ok] at h
    obtain ⟨refund, hrefund, ⟨refunds', total'⟩, hrest, heq⟩ := h
    cases heq
    obtain ⟨hlines, htotal⟩ := ih hrest
    have htax : refund.refundableTaxCents
        = calculator.lineTax asOf input.subtotalCents input.refundSubtotalCents line := by
      unfold TaxRefundCalculator.refundLine at hrefund
      unfold TaxRefundCalculator.lineTax
      split at hrefund
      · cases hrefund
      · cases hrefund
        rfl
    exact ⟨.cons htax hlines, by rw [map_cons, sum_cons, htax, htotal]⟩

theorem ok_refundLine (input : TaxRefundInput) {line : TaxLine} :
    Ok (calculator.refundLine asOf input line) ↔
      (resolveRule parse calculator.rules line.jurisdictionCode asOf).isSome := by
  unfold TaxRefundCalculator.refundLine
  split
  · simp [*]
  · simp [*]

theorem ok_refundLines :
    Ok (calculator.refundLines asOf input lines) ↔ ∀ line ∈ lines,
      (resolveRule parse calculator.rules line.jurisdictionCode asOf).isSome := by
  induction lines with
  | nil => simp [Ok, TaxRefundCalculator.refundLines]
  | cons line rest ih =>
    rw [forall_mem_cons, ← ih, ← ok_refundLine input]
    simp only [Ok, TaxRefundCalculator.refundLines, bind_eq_ok]
    constructor
    · rintro ⟨_, refund, hrefund, p, hrest, -⟩
      exact ⟨⟨refund, hrefund⟩, p, hrest⟩
    · rintro ⟨⟨refund, hrefund⟩, p, hrest⟩
      exact ⟨_, refund, hrefund, p, hrest, rfl⟩

section

variable (h : calculator.calculate clock input = .ok record)
include h

/-- What a successful calculation is made of. -/
theorem calculate_eq_ok :
    validateInput parse input = .ok () ∧
      calculator.refundLines (asOfMs parse clock input) input input.taxLines
        = .ok (record.taxLineRefunds, record.totalTaxRefundCents) := by
  simp only [TaxRefundCalculator.calculate, bind_eq_ok] at h
  obtain ⟨_, hvalid, ⟨refunds, total⟩, hlines, heq⟩ := h
  cases heq
  exact ⟨hvalid, hlines⟩

/-- The tax of a successful calculation, as a sum over the lines. -/
theorem total_eq_sum :
    record.totalTaxRefundCents
      = calculator.taxOn (asOfMs parse clock input) input input.refundSubtotalCents :=
  (refundLines_eq_ok (calculate_eq_ok h).2).2

/-- Every tax line has its refund, between zero and the line's amount. -/
def LinesWithin (lines : List TaxLine) (record : TaxAdjustedRefundRecord) : Prop :=
  List.Forall₂ (fun line refund => 0 ≤ refund.refundableTaxCents ∧
    (refund.refundableTaxCents : ℚ) ≤ line.amountCents) lines record.taxLineRefunds

theorem lines_within : LinesWithin input.taxLines record := by
  obtain ⟨hvalid, hloop⟩ := calculate_eq_ok h
  obtain ⟨hsale, hrefund, hle⟩ := validateInput_eq_ok.mp hvalid
  have hlines := (forall₂_and_left _ _).mpr ⟨hsale.lines, (refundLines_eq_ok hloop).1⟩
  refine hlines.imp ?_
  rintro line refund ⟨hline, heq⟩
  rw [heq]
  exact lineTax_bounds _ hrefund.2 hle hline.2

/-- The refund of `part` cents of the subtotal of the same sale. -/
def TaxRefundInput.refunding (input : TaxRefundInput) (part : ℚ) : TaxRefundInput :=
  { input with refundSubtotalCents := part }

/-- A part of a refund that can be calculated can be calculated. -/
theorem calculate_refunding {clock' : Clock} {part : ℚ} (hpart : IsAmount part)
    (hle : part ≤ input.refundSubtotalCents)
    (hasOf : asOfMs parse clock' input = asOfMs parse clock input) :
    Ok (calculator.calculate clock' (input.refunding part)) := by
  obtain ⟨hvalid, hloop⟩ := calculate_eq_ok h
  obtain ⟨⟨refunds, total⟩, hlines⟩ : Ok (calculator.refundLines (asOfMs parse clock input)
      (input.refunding part) input.taxLines) := ok_refundLines.mpr (ok_refundLines.mp ⟨_, hloop⟩)
  have hlines' : calculator.refundLines (asOfMs parse clock' (input.refunding part))
      (input.refunding part) (input.refunding part).taxLines = .ok (refunds, total) := by
    rw [← hlines, ← hasOf]
    rfl
  obtain ⟨⟨hcaptured, hsubtotal, hsale, hdate⟩, -, hrefund⟩ := validateInput_eq_ok.mp hvalid
  have hvalid' : validateInput parse (input.refunding part) = .ok () :=
    validateInput_eq_ok.mpr ⟨⟨hcaptured, hsubtotal, hsale, hdate⟩, hpart, hle.trans hrefund⟩
  simp only [TaxRefundCalculator.calculate, hvalid', hlines']
  exact ⟨_, rfl⟩

end

theorem taxOn_zero (asOf : Option Int) (input : TaxRefundInput) :
    0 ≤ calculator.taxOn asOf input 0 := by
  refine sum_nonneg ?_
  intro tax htax
  obtain ⟨line, -, rfl⟩ := List.mem_map.mp htax
  obtain ⟨c, -, -, heq⟩ := lineTax_eq_floor calculator asOf line
  simp [heq, proportionalTax]

theorem taxOn_superadditive (asOf : Option Int) (input : TaxRefundInput) (x y : ℚ) :
    calculator.taxOn asOf input x + calculator.taxOn asOf input y
      ≤ calculator.taxOn asOf input (x + y) := by
  unfold TaxRefundCalculator.taxOn
  rw [← sum_map_add]
  exact sum_le_sum fun line _ => lineTax_superadditive asOf _ line x y

/-- The calculations of the parts, one after the other. -/
theorem exists_records (h : calculator.calculate clock input = .ok record)
    {parts : List (Clock × ℚ)}
    (hparts : ∀ part ∈ parts, IsAmount part.2 ∧ part.2 ≤ input.refundSubtotalCents ∧
      asOfMs parse part.1 input = asOfMs parse clock input) :
    ∃ records : List TaxAdjustedRefundRecord,
      List.Forall₂ (fun part r => calculator.calculate part.1 (input.refunding part.2) = .ok r)
        parts records ∧
      (∀ r ∈ records, LinesWithin input.taxLines r) ∧
      records.map TaxAdjustedRefundRecord.totalTaxRefundCents
        = parts.map fun part => calculator.taxOn (asOfMs parse clock input) input part.2 := by
  induction parts with
  | nil => exact ⟨[], .nil, nofun, rfl⟩
  | cons part parts ih =>
    obtain ⟨⟨hpart, hle, hasOf⟩, hparts⟩ := forall_mem_cons.mp hparts
    obtain ⟨r, hr⟩ := calculate_refunding h hpart hle hasOf
    obtain ⟨records, hrecords, hlines, htotals⟩ := ih hparts
    have htotal : r.totalTaxRefundCents
        = calculator.taxOn (asOfMs parse clock input) input part.2 := by
      rw [total_eq_sum hr, ← hasOf]
      rfl
    have hwithin : LinesWithin (input.refunding part.2).taxLines r := lines_within hr
    refine ⟨r :: records, .cons hr hrecords, forall_mem_cons.mpr ⟨hwithin, hlines⟩, ?_⟩
    rw [map_cons, map_cons, htotal, htotals]

/-- **Splitting a refund.** However the refunded subtotal is split into
parts that are evaluated at the same instant, each line of each part
stays within its amount and the parts return no more tax than the one
refund, which returns no more than was captured. -/
theorem partial_refunds_within (calculator : TaxRefundCalculator parse) {clock : Clock}
    {input : TaxRefundInput} {record : TaxAdjustedRefundRecord}
    (h : calculator.calculate clock input = .ok record) (parts : List (Clock × ℚ))
    (hparts : ∀ part ∈ parts, IsAmount part.2)
    (hasOf : ∀ part ∈ parts, asOfMs parse part.1 input = asOfMs parse clock input)
    (hsum : (parts.map Prod.snd).sum = input.refundSubtotalCents) :
    ∃ records : List TaxAdjustedRefundRecord,
      List.Forall₂ (fun part r => calculator.calculate part.1 (input.refunding part.2) = .ok r)
        parts records ∧
      (∀ r ∈ record :: records, LinesWithin input.taxLines r) ∧
      (records.map TaxAdjustedRefundRecord.totalTaxRefundCents).sum
        ≤ record.totalTaxRefundCents ∧
      (record.totalTaxRefundCents : ℚ) ≤ (input.taxLines.map TaxLine.amountCents).sum := by
  have hpart : ∀ part ∈ parts, part.2 ≤ input.refundSubtotalCents := by
    intro part hmem
    rw [← hsum]
    refine single_le_sum ?_ _ (List.mem_map_of_mem hmem)
    intro x hx
    obtain ⟨part', hmem', rfl⟩ := List.mem_map.mp hx
    exact (hparts part' hmem').2
  obtain ⟨records, hrecords, hlines, htotals⟩ := exists_records h fun part hmem =>
    ⟨hparts part hmem, hpart part hmem, hasOf part hmem⟩
  refine ⟨records, hrecords, forall_mem_cons.mpr ⟨lines_within h, hlines⟩, ?_, ?_⟩
  · rw [htotals, total_eq_sum h, ← hsum]
    exact sum_map_le_of_superadditive (taxOn_zero _ input) (taxOn_superadditive _ input) _ parts
  · obtain ⟨hsale, hrefund, hle⟩ := validateInput_eq_ok.mp (calculate_eq_ok h).1
    rw [total_eq_sum h, TaxRefundCalculator.taxOn, Int.cast_list_sum, List.map_map]
    refine sum_le_sum fun line hline => ?_
    exact (lineTax_bounds _ hrefund.2 hle (hsale.lines line hline).2).2

/-- A sale with one tax line of 1000 cents, refunded by half. -/
def sampleSale : TaxRefundInput :=
  { capturedAmountCents := 11000, subtotalCents := 10000,
    taxLines := [⟨"Sales Tax", 1000, "US-CA"⟩], refundSubtotalCents := 5000 }

/-- A rule for the country that refunds three quarters. -/
def sampleRule : JurisdictionTaxRule :=
  { jurisdictionCode := "US", strategy := .prorated, prorateCoefficient := some (3 / 4),
    effectiveFrom := "2024" }

def sampleCalculator : TaxRefundCalculator (fun _ => some 0) :=
  { rules := [sampleRule]
    valid := by
      intro rule hrule
      rw [mem_singleton.mp hrule]
      decide +kernel }

theorem partial_refunds_of_sample :
    ∃ record, sampleCalculator.calculate ⟨0, 0⟩ sampleSale = .ok record ∧
      ∃ records : List TaxAdjustedRefundRecord,
        (records.map TaxAdjustedRefundRecord.totalTaxRefundCents).sum
          ≤ record.totalTaxRefundCents := by
  obtain ⟨record, h⟩ : Ok (sampleCalculator.calculate ⟨0, 0⟩ sampleSale) := by decide +kernel
  obtain ⟨records, -, -, hle, -⟩ := partial_refunds_within sampleCalculator h
    [(⟨0, 0⟩, 1999), (⟨0, 1⟩, 3001)] (by decide +kernel) (by decide +kernel) (by decide +kernel)
  exact ⟨record, h, records, hle⟩

end ChronoPay.TaxRefund
