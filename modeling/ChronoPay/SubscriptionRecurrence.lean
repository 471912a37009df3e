import Mathlib.Data.List.Chain
import ChronoPay.Subscriptions

/-!
# SubscriptionRecurrence — minted slots against the rule's occurrences

`pushes` is the loop of `expandRecurrence` without a horizon: the starts
pushed in its first `n` rounds. With a period an expansion is the list of
the rounds before its horizon (`expand_eq_pushes`), so "a prefix of the
occurrences" is a prefix of some `pushes` (`firstOccurrences_iff_expand`).
Without one the loop ends only if it counts, or has nothing to do
(`expandRecurrence_returns_iff`).

A weekly rule steps whole weeks, so of the weekdays it names it finds the
start's only (`weekly_expansion`).

The generator does not follow it. It looks for the next occurrence from
the END of a slot, on the grid of that instant, and in a window of two
durations. `Meets` is what a start has to satisfy for the result to be
the rule's next occurrence all the same: the duration is `m` periods, no
occurrence is passed over inside the slot, and one follows within three
durations. Without `BYDAY` that is `m = 1`.

The last part carries this through the service: whatever calls are made,
the starts minted for a subscription without conflicts are a chain of the
generator's own steps.
-/

namespace ChronoPay.Subscriptions

open Function KeyedList List Option

namespace Recurrence

variable {r : Recurrence} {d H : Int}

theorem period_nonneg (r : Recurrence) : 0 ≤ r.period := by
  unfold period dayMs
  split <;> positivity

theorem grid_succ (r : Recurrence) (a : Int) (k : Nat) :
    a + (k + 1 : Nat) * r.period = a + r.period + k * r.period := by
  push_cast
  ring

theorem le_grid (r : Recurrence) (a : Int) (k : Nat) : a ≤ a + k * r.period := by
  have : 0 ≤ (k : Int) * r.period := mul_nonneg (by omega) r.period_nonneg
  omega

/-! ## The loop without a horizon -/

/-- The starts pushed in the first rounds of the loop. -/
def pushes (r : Recurrence) : Nat → Int → Nat → List Int
  | 0, _, _ => []
  | n + 1, current, count =>
    if r.below count then
      if r.occursAt current then current :: pushes r n (current + r.period) (count + 1)
      else pushes r n (current + r.period) count
    else []

variable {count n fuel : Nat} {current : Int}

/-- With a period the loop ends, and returns what is pushed in the rounds
before the horizon. -/
theorem expandLoop_eq_pushes (hrounds : ∀ k : Nat, k < n ↔ current + k * r.period < H)
    (hfuel : n ≤ fuel) : expandLoop r d H fuel current count =
      some ((r.pushes n current count).map fun start => ⟨start, start + d⟩) := by
  induction n generalizing fuel current count with
  | zero =>
    have hpast : ¬ current < H := by simpa using hrounds 0
    cases fuel <;> simp [expandLoop, pushes, hpast]
  | succ n ih =>
    have hlt : current < H := by simpa using hrounds 0
    have hnext : ∀ k : Nat, k < n ↔ current + r.period + k * r.period < H := by
      intro k
      rw [← grid_succ, ← hrounds (k + 1), Nat.succ_lt_succ_iff]
    obtain ⟨fuel, rfl⟩ : ∃ f, fuel = f + 1 := ⟨fuel - 1, by omega⟩
    simp only [expandLoop, pushes, hlt, true_and]
    split
    · rw [ih hnext (by omega), ih hnext (by omega)]
      split <;> rfl
    · rfl

/-- The rounds before a horizon. -/
theorem exists_rounds (hperiod : 0 < r.period) (current H : Int) :
    ∃ n : Nat, ∀ k : Nat, k < n ↔ current + k * r.period < H := by
  refine ⟨(-((current - H) / r.period)).toNat, fun k => ?_⟩
  have hdiv := Int.ediv_lt_iff_lt_mul (a := current - H) (b := -k) hperiod
  rw [neg_mul] at hdiv
  omega

/-- A loop that neither advances nor counts does not end. -/
theorem expandLoop_eq_none (hperiod : r.period = 0) (hlt : current < H)
    (hbelow : r.below count = true) (hstuck : r.occursAt current = false ∨ r.maxCount = none)
    (fuel : Nat) : expandLoop r d H fuel current count = none := by
  induction fuel generalizing count with
  | zero => simp [expandLoop, hlt, hbelow]
  | succ fuel ih =>
    simp only [expandLoop, hlt, hbelow, and_self, if_true, hperiod, add_zero]
    split
    next hocc =>
      have hmax : r.maxCount = none := by
        rcases hstuck with h | h
        · simp [hocc] at h
        · exact h
      rw [ih (by simp [below, hmax])]
      rfl
    · exact ih hbelow

/-- A loop that only counts ends with the count. -/
theorem expandLoop_isSome {m : Nat} (hperiod : r.period = 0) (hocc : r.occursAt current = true)
    (hmax : r.maxCount = some m) (hfuel : m ≤ count + fuel) :
    (expandLoop r d H fuel current count).isSome := by
  induction fuel generalizing count with
  | zero =>
    have hfull : r.below count = false := by simpa [below, hmax] using hfuel
    simp [expandLoop, hfull]
  | succ fuel ih =>
    simp only [expandLoop, hocc, if_true, hperiod, add_zero]
    split
    · simpa using ih (by omega)
    · rfl

end Recurrence

/-- The starts are, in order, the first occurrences of the rule from
`first` on, over an unbounded horizon. -/
def FirstOccurrences (r : Recurrence) (first : Int) (starts : List Int) : Prop :=
  ∃ n, starts <+: r.pushes n first 0

namespace Recurrence

variable {r : Recurrence} {d first h : Int}

theorem expand_eq_pushes (hperiod : 0 < r.period) {n : Nat}
    (hrounds : ∀ k : Nat, k < n ↔ first + k * r.period < first + h) :
    expandLoop r d (first + h) (expandFuel r h) first 0 =
      some ((r.pushes n first 0).map fun start => ⟨start, start + d⟩) := by
  refine expandLoop_eq_pushes hrounds ?_
  -- every round is a millisecond or more
  by_contra hlt
  have hround := (hrounds h.toNat).mp (by unfold expandFuel at hlt; omega)
  have hle := le_mul_of_one_le_right (Int.natCast_nonneg h.toNat) (Int.add_one_le_of_lt hperiod)
  omega

/-- There is nothing to do, the cursor moves, or the start counts towards
a `COUNT`. -/
def Ends (r : Recurrence) (first h : Int) : Prop :=
  (h ≤ 0 ∨ r.maxCount = some 0) ∨ r.intervalDays ≠ 0 ∨ (r.occursAt first = true ∧ r.maxCount ≠ none)

theorem ends_or_stuck (r : Recurrence) (first d h : Int) :
    r.Ends first h ∧ (expandLoop r d (first + h) (expandFuel r h) first 0).isSome ∨
      ¬ r.Ends first h ∧ ∀ fuel, expandLoop r d (first + h) fuel first 0 = none := by
  have hperiod : r.period = 0 ↔ r.intervalDays = 0 := by
    unfold period
    split <;> simp [dayMs]
  have hidle : h ≤ 0 ∨ r.maxCount = some 0 ↔ ¬ (first < first + h ∧ r.below 0 = true) := by
    unfold below
    cases r.maxCount <;> simp [or_iff_not_imp_left, Nat.pos_iff_ne_zero]
  by_cases hguard : first < first + h ∧ r.below 0 = true
  · by_cases hzero : r.period = 0
    · by_cases hcounts : r.occursAt first = true ∧ r.maxCount ≠ none
      · obtain ⟨m, hm⟩ := ne_none_iff_exists'.mp hcounts.2
        refine .inl ⟨.inr (.inr hcounts), expandLoop_isSome hzero hcounts.1 hm ?_⟩
        simp [expandFuel, hm]
      · refine .inr ⟨?_, expandLoop_eq_none hzero hguard.1 hguard.2 ?_⟩
        · rintro (hidle' | hmoves | hcounts')
          · exact hidle.mp hidle' hguard
          · exact hmoves (hperiod.mp hzero)
          · exact hcounts hcounts'
        · simpa [or_iff_not_imp_left] using hcounts
    · have hpos := lt_of_le_of_ne r.period_nonneg (Ne.symm hzero)
      obtain ⟨n, hn⟩ := exists_rounds hpos first (first + h)
      exact .inl ⟨.inr (.inl (mt hperiod.mpr hzero)), isSome_of_eq_some (expand_eq_pushes hpos hn)⟩
  · have hstop : ∀ fuel, expandLoop r d (first + h) fuel first 0 = some [] := by
      intro fuel
      cases fuel <;> exact if_neg hguard
    exact .inl ⟨.inl (hidle.mpr hguard), isSome_of_eq_some (hstop _)⟩

end Recurrence

/-- The first occurrences are what the expansions begin with. -/
theorem firstOccurrences_iff_expand {rule : String} {first : Int} {starts : List Int}
    (hperiod : 0 < (parseRecurrence rule).period) (d : Int) :
    FirstOccurrences (parseRecurrence rule) first starts ↔
      ∃ horizon slots, expandRecurrence rule first d horizon = some slots ∧
        starts <+: slots.map Occurrence.startMs := by
  constructor
  · rintro ⟨n, hn⟩
    have hrounds : ∀ k : Nat, k < n ↔ first + k * (parseRecurrence rule).period
        < first + n * (parseRecurrence rule).period := by
      intro k
      rw [add_lt_add_iff_left, mul_lt_mul_iff_left₀ hperiod, Nat.cast_lt]
    refine ⟨_, _, Recurrence.expand_eq_pushes hperiod hrounds, ?_⟩
    simpa [comp_def] using hn
  · rintro ⟨horizon, slots, hexpand, hstarts⟩
    obtain ⟨n, hn⟩ := Recurrence.exists_rounds hperiod first (first + horizon)
    obtain rfl := Option.some.inj ((Recurrence.expand_eq_pushes hperiod hn).symm.trans hexpand)
    exact ⟨n, by simpa [comp_def] using hstarts⟩

namespace Recurrence

variable {r : Recurrence}

/-- An instant at the start's time of day on a listed weekday, in one of
the weeks the interval reaches. -/
structure Due (r : Recurrence) (first h t : Int) : Prop where
  start : first ≤ t
  horizon : t < first + h
  timeOfDay : dayMs ∣ t - first
  week : (t - first) / (7 * dayMs) % r.intervalDays = 0
  day : ∃ name, dayName t = some name ∧ name ∈ r.byDays

/-- What is left of a list at a `COUNT`. -/
def cut (r : Recurrence) (count : Nat) (l : List Int) : List Int :=
  match r.maxCount with
  | some m => l.take (m - count)
  | none => l

theorem pushes_eq_cut (n : Nat) (current : Int) (count : Nat) :
    r.pushes n current count =
      r.cut count (((List.range n).map fun k : Nat => current + k * r.period).filter r.occursAt) := by
  induction n generalizing current count with
  | zero => cases hmax : r.maxCount <;> simp [pushes, cut, hmax]
  | succ n ih =>
    have hgrid : (fun k : Nat => current + k * r.period) ∘ Nat.succ =
        fun k : Nat => current + r.period + k * r.period := funext fun k => grid_succ r current k
    rw [range_succ_eq_map, map_cons, List.map_map, hgrid, filter_cons, pushes, ih,
      ih, Nat.cast_zero, zero_mul, add_zero]
    unfold below cut
    cases r.maxCount with
    | none => by_cases hocc : r.occursAt current = true <;> simp [hocc]
    | some m =>
      obtain hle | ⟨j, rfl⟩ : m ≤ count ∨ ∃ j, m = count + 1 + j := by
        by_cases hle : m ≤ count
        · exact .inl hle
        · exact .inr ⟨m - (count + 1), by omega⟩
      · simp [hle]
      · have hlt : count < count + 1 + j := by omega
        have hleft : count + 1 + j - count = j + 1 := by omega
        by_cases hocc : r.occursAt current = true <;> simp [hocc, hlt, hleft]

theorem dayName_add {first q : Int} {name : String} (h : dayName first = some name)
    (h' : dayName (first + q * dayMs) = some name) : q % 7 = 0 := by
  have hinj : ∀ i < 7, ∀ j < 7, dayNames[i]? = dayNames[j]? → i = j := by decide
  unfold dayName at h h'
  split at h
  · split at h'
    · have := hinj _ (by omega) _ (by omega) (h.trans h'.symm)
      unfold dayMs at this
      omega
    · cases h'
  · cases h

theorem occursAt_iff {t : Int} (hfreq : r.freq = .weekly) (hdays : r.byDays ≠ []) :
    r.occursAt t = true ↔ ∃ name, dayName t = some name ∧ name ∈ r.byDays := by
  unfold occursAt
  cases dayName t <;> simp [hfreq, hdays]

end Recurrence

namespace Recurrence

variable {r : Recurrence} {d H a b first : Int} {count : Nat} {l : List Int}

/-- `b` is the first occurrence on the grid of `a` that is not before
it. -/
def FirstFrom (r : Recurrence) (a b : Int) : Prop :=
  ∃ k : Nat, b = a + k * r.period ∧ r.occursAt b = true ∧
    ∀ j < k, r.occursAt (a + j * r.period) = false

/-- What is on the grid from the next point on. -/
theorem firstFrom_succ (a b : Int) (k : Nat) :
    (b = a + (k + 1 : Nat) * r.period ∧ r.occursAt b = true ∧
        ∀ j < k + 1, r.occursAt (a + j * r.period) = false) ↔
      r.occursAt a = false ∧ b = a + r.period + k * r.period ∧ r.occursAt b = true ∧
        ∀ j < k, r.occursAt (a + r.period + j * r.period) = false := by
  simp only [Nat.forall_lt_succ_left, grid_succ, Nat.cast_zero, zero_mul, add_zero]
  tauto

theorem firstFrom_self (h : r.occursAt a = true) : r.FirstFrom a a := ⟨0, by simp, h, nofun⟩

theorem FirstFrom.of_next (h : r.occursAt a = false) :
    r.FirstFrom (a + r.period) b → r.FirstFrom a b := by
  rintro ⟨k, hk⟩
  exact ⟨k + 1, (firstFrom_succ a b k).mpr ⟨h, hk⟩⟩

/-- One more occurrence in the list is the first one from the cursor. -/
theorem firstOccurrences_cons : (∃ n, b :: l <+: r.pushes n a count) ↔
      r.below count = true ∧ r.FirstFrom a b ∧
        ∃ n, l <+: r.pushes n (b + r.period) (count + 1) := by
  constructor
  · rintro ⟨n, hn⟩
    induction n generalizing a with
    | zero => simp [pushes] at hn
    | succ n ih =>
      simp only [pushes] at hn
      split at hn
      next hbelow =>
        split at hn
        next hocc =>
          obtain ⟨rfl, hl⟩ := cons_prefix_cons.mp hn
          exact ⟨hbelow, firstFrom_self hocc, n, hl⟩
        next hocc =>
          obtain ⟨-, hfirst, hl⟩ := ih hn
          exact ⟨hbelow, hfirst.of_next (by simpa using hocc), hl⟩
      · simp at hn
  · rintro ⟨hbelow, ⟨k, hk⟩, n, hn⟩
    induction k generalizing a with
    | zero =>
      obtain ⟨rfl, hocc, -⟩ := hk
      refine ⟨n + 1, ?_⟩
      simp only [pushes, hbelow, if_true, Nat.cast_zero, zero_mul, add_zero] at hocc hn ⊢
      rw [if_pos hocc]
      exact (prefix_cons_inj _).mpr hn
    | succ k ih =>
      obtain ⟨ha, hk⟩ := (firstFrom_succ a b k).mp hk
      obtain ⟨n', hn'⟩ := ih hk
      exact ⟨n' + 1, by simpa [pushes, hbelow, ha] using hn'⟩

/-- What the head of an expansion is. -/
theorem head_expandLoop {fuel : Nat} {current : Int} {slots : List Occurrence}
    (h : expandLoop r d H fuel current count = some slots) (hbelow : r.below count = true) :
    (slots = [] ∧ ∀ k : Nat, current + k * r.period < H →
        r.occursAt (current + k * r.period) = false) ∨
      ∃ first rest, slots = first :: rest ∧ first.startMs < H ∧
        r.FirstFrom current first.startMs := by
  induction fuel generalizing current slots with
  | zero =>
    simp only [expandLoop, hbelow, and_true] at h
    split at h
    · cases h
    next hpast =>
      cases h
      exact .inl ⟨rfl, fun k hk => absurd ((le_grid r current k).trans_lt hk) hpast⟩
  | succ fuel ih =>
    simp only [expandLoop, hbelow, and_true] at h
    split at h
    next hlt =>
      split at h
      next hocc =>
        obtain ⟨rest, -, rfl⟩ := map_eq_some_iff.mp h
        exact .inr ⟨_, rest, rfl, hlt, firstFrom_self hocc⟩
      next hocc =>
        have hocc : r.occursAt current = false := by simpa using hocc
        rcases ih h with ⟨rfl, hnone⟩ | ⟨first, rest, rfl, hfirst, hfrom⟩
        · refine .inl ⟨rfl, ?_⟩
          intro k hk
          cases k with
          | zero => simpa using hocc
          | succ k =>
            rw [grid_succ] at hk ⊢
            exact hnone k hk
        · exact .inr ⟨first, rest, rfl, hfirst, hfrom.of_next hocc⟩
    next hpast =>
      cases h
      exact .inl ⟨rfl, fun k hk => absurd ((le_grid r current k).trans_lt hk) hpast⟩

/-- The duration is `m` periods, nothing occurs inside a slot that starts
at `a`, and the next occurrence comes within three durations. -/
def Meets (r : Recurrence) (d a : Int) : Prop :=
  ∃ m : Nat, 1 ≤ m ∧ d = m * r.period ∧
    (∀ j, 1 ≤ j → j < m → r.occursAt (a + j * r.period) = false) ∧
    ∃ k, m ≤ k ∧ k < 3 * m ∧ r.occursAt (a + k * r.period) = true

/-- `c` is the first occurrence after `a` in the window `[a + d, a + 3d)`
of the grid of `a + d`, and `a + d` itself if there is none. -/
def Step (r : Recurrence) (d a c : Int) : Prop :=
  (c < a + 3 * d ∧ r.FirstFrom (a + d) c) ∨
    (c = a + d ∧ ∀ k : Nat, a + d + k * r.period < a + 3 * d →
      r.occursAt (a + d + k * r.period) = false)

/-- The generator's step is the rule's next occurrence exactly where the
start meets the condition. -/
theorem firstFrom_step_iff (hd : 0 < d) {a c : Int} (hstep : r.Step d a c) :
    r.FirstFrom (a + r.period) c ↔ r.Meets d a := by
  constructor
  · rintro ⟨k, rfl, hocc, hbefore⟩
    rw [← grid_succ] at hstep hocc
    have hperiod : r.period ≠ 0 := by
      intro hzero
      rcases hstep with ⟨-, j, hj, -⟩ | ⟨hj, -⟩ <;> simp [hzero] at hj <;> omega
    have hpos : 0 < r.period := lt_of_le_of_ne r.period_nonneg (Ne.symm hperiod)
    rcases hstep with ⟨hlt, j, hj, -, -⟩ | ⟨hj, hnone⟩
    · -- the window's grid is the rule's, `k + 1 - j` periods on
      have hdj : d = ((k + 1 : Nat) - j : Int) * r.period := by
        linarith
      have hjk : (j : Int) < (k + 1 : Nat) := by
        by_contra hle
        have := mul_nonpos_of_nonpos_of_nonneg (sub_nonpos.mpr (not_lt.mp hle)) hpos.le
        omega
      refine ⟨k + 1 - j, by omega, ?_, ?_, k + 1, by omega, ?_, hocc⟩
      · rw [hdj, Nat.cast_sub (by omega)]
      · intro i hi him
        obtain ⟨i, rfl⟩ : ∃ i', i = i' + 1 := ⟨i - 1, by omega⟩
        rw [grid_succ]
        exact hbefore i (by omega)
      · have h3 : ((k + 1 : Nat) : Int) * r.period
            < (3 * ((k + 1 : Nat) - j : Int)) * r.period := by
          rw [mul_assoc, ← hdj]
          omega
        have := lt_of_mul_lt_mul_right h3 hpos.le
        omega
    · have := hnone 0 (by simp; omega)
      rw [hj] at hocc
      simp [hocc] at this
  · rintro ⟨m, hm, rfl, hinside, hlater⟩
    have hpos : 0 < r.period := by
      by_contra hle
      have hzero : r.period = 0 := le_antisymm (not_lt.mp hle) r.period_nonneg
      simp [hzero] at hd
    have hgrid : ∀ j : Nat, a + m * r.period + j * r.period = a + (m + j : Nat) * r.period := by
      intro j
      push_cast
      ring
    -- the first occurrence from `m` periods on is the first at all
    have hstart : ∀ c, r.FirstFrom (a + m * r.period) c → r.FirstFrom (a + r.period) c := by
      rintro c ⟨j, rfl, hocc, hbefore⟩
      obtain ⟨m, rfl⟩ : ∃ m', m = m' + 1 := ⟨m - 1, by omega⟩
      refine ⟨m + j, ?_, hocc, ?_⟩
      · rw [← grid_succ, hgrid]
        congr 3
        omega
      · intro i hi
        rw [← grid_succ]
        by_cases him : i < m
        · exact hinside (i + 1) (by omega) (by omega)
        · have := hbefore (i - m) (by omega)
          rw [hgrid] at this
          rw [← this]
          congr 4
          omega
    rcases hstep with ⟨-, hfirst⟩ | ⟨rfl, hnone⟩
    · exact hstart _ hfirst
    · obtain ⟨k, hmk, hk3, hocc⟩ := hlater
      have hwindow : a + m * r.period + (k - m : Nat) * r.period < a + 3 * (m * r.period) := by
        rw [hgrid]
        have : ((m + (k - m) : Nat) : Int) < 3 * m := by omega
        have := mul_lt_mul_of_pos_right this hpos
        linarith
      have hfalse := hnone (k - m) hwindow
      rw [hgrid, show m + (k - m) = k by omega, hocc] at hfalse
      cases hfalse

/-- There is room for one more. -/
theorem below_iff : r.below count = true ↔ ∀ m ∈ r.maxCount, count + 1 ≤ m := by
  rw [below]
  cases r.maxCount with
  | none => exact iff_of_true rfl fun m hm => absurd hm (not_mem_none m)
  | some m =>
    rw [decide_eq_true_eq]
    exact ⟨fun hlt m' hm' => mem_some_iff.mp hm' ▸ hlt, fun hle => hle m rfl⟩

/-- The starts of a chain of the generator's steps are the rule's
occurrences from `a` on exactly where the first is the first of them, all
but the last meet the condition and the count is not used up. -/
theorem occurrences_iff (hd : 0 < d) (hchain : (b :: l).IsChain (r.Step d)) :
    (∃ n, b :: l <+: r.pushes n a count) ↔
      r.FirstFrom a b ∧ (∀ m ∈ r.maxCount, count + (b :: l).length ≤ m) ∧
        ∀ s ∈ (b :: l).dropLast, r.Meets d s := by
  induction l generalizing a b count with
  | nil =>
    rw [firstOccurrences_cons, below_iff]
    simp [and_comm]
  | cons c l ih =>
    obtain ⟨hstep, hrest⟩ := isChain_cons_cons.mp hchain
    rw [firstOccurrences_cons, ih hrest, firstFrom_step_iff hd hstep, below_iff,
      dropLast_cons_cons, forall_mem_cons]
    simp only [length_cons]
    constructor
    · rintro ⟨-, hfirst, hmeets, hlen, htail⟩
      exact ⟨hfirst, fun m hm => by have := hlen m hm; omega, hmeets, htail⟩
    · rintro ⟨hfirst, hlen, hmeets, htail⟩
      exact ⟨fun m hm => by have := hlen m hm; omega, hfirst, hmeets,
        fun m hm => by have := hlen m hm; omega, htail⟩

/-- The same from the first start on. -/
theorem firstOccurrences_iff (hd : 0 < d) (hchain : (first :: l).IsChain (r.Step d)) :
    FirstOccurrences r first (first :: l) ↔
      r.occursAt first = true ∧ (∀ m ∈ r.maxCount, (first :: l).length ≤ m) ∧
        ∀ s ∈ (first :: l).dropLast, r.Meets d s := by
  have hself : r.FirstFrom first first ↔ r.occursAt first = true :=
    ⟨fun ⟨_, _, hocc, _⟩ => hocc, firstFrom_self⟩
  rw [FirstOccurrences, occurrences_iff hd hchain, hself]
  simp only [zero_add]

end Recurrence

/-! ## What the service mints -/

/-- The starts minted for a subscription, in order. -/
def startsOf (minted : List MintResult) (subId : String) : List Int :=
  (minted.filter (·.subscriptionId = subId)).map MintResult.startTime

theorem startsOf_concat (minted : List MintResult) (m : MintResult) (subId : String) :
    startsOf (minted ++ [m]) subId
      = startsOf minted subId ++ if m.subscriptionId = subId then [m.startTime] else [] := by
  by_cases h : m.subscriptionId = subId <;> simp [startsOf, h]

/-- The starts and the cursor are a chain of the generator's steps. -/
def SubscriptionProductRecord.Follows (product : SubscriptionProductRecord) (starts : List Int)
    (cursor : Int) : Prop :=
  (starts ++ [cursor]).IsChain fun a b => product.nextSlotStart a = some b

/-- Every subscription without a conflict follows its product. -/
structure Tracked (s : Service) (minted : List MintResult) (conflicts : List String) : Prop where
  indexed : s.Indexed
  known : ∀ m ∈ minted, m.subscriptionId ∈ s.subs.map SubscriptionRecord.id
  durations : ∀ product ∈ s.products, 0 < product.slotDurationMs
  follows : ∀ sub ∈ s.subs, sub.id ∉ conflicts → ∀ product ∈ s.findProduct sub.productId,
    product.Follows (startsOf minted sub.id) sub.nextSlotStartMs

namespace Tracked

variable {s : Service} {minted : List MintResult} {conflicts conflicts' : List String}
  {sub : SubscriptionRecord} {product : SubscriptionProductRecord}
  {f : SubscriptionRecord → SubscriptionRecord}

theorem empty : Tracked {} [] [] where
  indexed := .empty
  known := forall_mem_nil _
  durations := forall_mem_nil _
  follows := forall_mem_nil _

/-- An update of one subscription; its cursor may only move on a
conflict. -/
theorem update (h : Tracked s minted conflicts) (subId : String)
    (hid : ∀ sub, (f sub).id = sub.id) (hproduct : ∀ sub, (f sub).productId = sub.productId)
    (hsub : conflicts ⊆ conflicts')
    (hcursor : subId ∈ conflicts' ∨ ∀ sub, (f sub).nextSlotStartMs = sub.nextSlotStartMs) :
    Tracked (s.updateSub subId f) minted conflicts' where
  indexed := h.indexed.updateSub subId hid hproduct
  known := by
    rw [Service.updateSub, map_key_modify hid]
    exact h.known
  durations := h.durations
  follows sub hmem hnot product hp := by
    rcases mem_modify h.indexed.subs.nodup hmem with ⟨hold, -⟩ | ⟨b, hb, hbid, rfl⟩
    · exact h.follows sub hold (fun hc => hnot (hsub hc)) product hp
    · rw [hid] at hnot ⊢
      rw [hproduct] at hp
      rcases hcursor with hc | hc
      · exact absurd (hbid ▸ hc) hnot
      · rw [hc]
        exact h.follows b hb (fun hc => hnot (hsub hc)) product hp

/-- A mint appends the cursor to the starts and moves it one step. -/
theorem mint (h : Tracked s minted conflicts) (hsub : sub ∈ s.subs)
    (hproduct : s.findProduct sub.productId = some product)
    {m : MintResult} (hid : m.subscriptionId = sub.id) (hstart : m.startTime = sub.nextSlotStartMs)
    (hnext : product.nextSlotStart sub.nextSlotStartMs = some m.nextSlotStartMs) (n : Nat) :
    Tracked (s.updateSub sub.id fun c =>
      { c with nextSlotStartMs := m.nextSlotStartMs, slotsMinted := n })
      (minted ++ [m]) conflicts where
  indexed := h.indexed.updateSub sub.id (fun _ => rfl) fun _ => rfl
  known := by
    rw [Service.updateSub, map_key_modify (by exact fun _ => rfl)]
    exact forall_mem_concat h.known (hid ▸ List.mem_map_of_mem hsub)
  durations := h.durations
  follows c hmem hnot p hp := by
    rw [startsOf_concat, hid]
    rcases mem_modify h.indexed.subs.nodup hmem with ⟨hold, hne⟩ | ⟨b, hb, hbid, rfl⟩
    · rw [if_neg (Ne.symm hne), append_nil]
      exact h.follows c hold hnot p hp
    · have hread := get_key_of_mem h.indexed.subs.nodup hb
      rw [hbid, get_key_of_mem h.indexed.subs.nodup hsub] at hread
      cases hread
      obtain rfl : product = p := Option.some.inj (hproduct.symm.trans hp)
      rw [if_pos rfl, hstart]
      have hchain := h.follows sub hb hnot product hp
      rw [SubscriptionProductRecord.Follows, append_assoc, singleton_append]
      exact isChain_append_cons_cons.mpr ⟨hchain, hnext, isChain_singleton _⟩

theorem addProduct (h : Tracked s minted conflicts)
    (hpos : 0 < product.slotDurationMs) : Tracked (s.addProduct product) minted conflicts where
  indexed := h.indexed.addProduct product
  known := h.known
  durations := forall_mem_concat h.durations hpos
  follows sub hsub hnot p hp := by
    obtain ⟨old, hold⟩ := isSome_iff_exists.mp (h.indexed.found sub hsub)
    have hnew : (s.addProduct product).findProduct sub.productId = some old := by
      rw [Service.findProduct] at hold
      rw [Service.findProduct, Service.addProduct, get_append, hold, some_or]
    obtain rfl : old = p := Option.some.inj (hnew.symm.trans hp)
    exact h.follows sub hsub hnot old hold

theorem deactivate (h : Tracked s minted conflicts) (productId : String) :
    Tracked (s.updateProduct productId fun p => { p with active := false }) minted
      conflicts where
  indexed := h.indexed.updateProduct productId fun _ => rfl
  known := h.known
  durations := forall_mem_modify (fun _ hp => hp) h.durations
  follows sub hsub hnot p hp := by
    rw [Service.findProduct, Service.updateProduct, get_modify (by exact fun _ => rfl)] at hp
    split at hp
    · obtain ⟨old, hold, rfl⟩ := map_eq_some_iff.mp hp
      -- the rule and the duration are those of the active product
      exact h.follows sub hsub hnot old hold
    · exact h.follows sub hsub hnot p hp

/-- A new subscription has no starts yet. -/
theorem addSub (h : Tracked s minted conflicts) (hproduct : (s.findProduct sub.productId).isSome) :
    Tracked (s.addSub sub) minted conflicts where
  indexed := h.indexed.addSub hproduct
  known m hm := by
    rw [Service.addSub, map_append]
    exact mem_append_left _ (h.known m hm)
  durations := h.durations
  follows := by
    refine forall_mem_concat h.follows fun hnot p hp => ?_
    have hnone : startsOf minted ("sub-" ++ toString s.subSequence) = [] := by
      rw [startsOf, map_eq_nil_iff, filter_eq_nil_iff]
      intro m hm heq
      obtain ⟨c, hc, hid⟩ := List.mem_map.mp (h.known m hm)
      exact h.indexed.subs.fresh (label_injective _) hc
        (hid.trans (of_decide_eq_true heq))
    rw [hnone]
    exact isChain_singleton _

end Tracked

variable {s : Service} {sub : SubscriptionRecord} {product : SubscriptionProductRecord}

theorem mintSlot_eq_ok {slots : Slots} {m : MintResult} (h : s.mintSlot slots sub = some (.ok m)) :
    ∃ product, s.findProduct sub.productId = some product ∧ m.subscriptionId = sub.id ∧
      m.startTime = sub.nextSlotStartMs ∧
      product.nextSlotStart sub.nextSlotStartMs = some m.nextSlotStartMs := by
  unfold Service.mintSlot at h
  split at h
  · cases h
  next product hproduct =>
    dsimp only at h
    split at h
    · cases h
    · obtain ⟨next, hnext, heq⟩ := map_eq_some_iff.mp h
      cases heq
      exact ⟨product, hproduct, rfl, rfl, hnext⟩

/-- The due subscriptions are read before the loop; each is still as it
was read when its turn comes. -/
theorem mem_updateSub_of_nodup {rest : List SubscriptionRecord}
    (f : SubscriptionRecord → SubscriptionRecord) (hrest : ∀ b ∈ sub :: rest, b ∈ s.subs)
    (hids : ((sub :: rest).map SubscriptionRecord.id).Nodup) :
    ∀ b ∈ rest, b ∈ (s.updateSub sub.id f).subs := by
  intro b hb
  refine mem_modify_of_ne (hrest b (mem_cons_of_mem _ hb)) ?_
  intro heq
  exact (nodup_cons.mp hids).1 (heq ▸ List.mem_map_of_mem hb)

/-- The loop of a tick keeps the tracking. -/
theorem mintEach_tracked {slots : Slots} {minted₀ : List MintResult} {conflicts₀ : List String}
    {rest : List SubscriptionRecord} {s' : Service} {result result' : GenerateSlotsResult}
    (h : Service.mintEach slots rest s result = some (s', result'))
    (hs : Tracked s (minted₀ ++ result.minted) (conflicts₀ ++ result.conflicts))
    (hrest : ∀ sub ∈ rest, sub ∈ s.subs) (hids : (rest.map SubscriptionRecord.id).Nodup) :
    Tracked s' (minted₀ ++ result'.minted) (conflicts₀ ++ result'.conflicts) := by
  induction rest generalizing s result with
  | nil =>
    cases h
    exact hs
  | cons sub rest ih =>
    have hids' := (nodup_cons.mp hids).2
    unfold Service.mintEach at h
    split at h
    · cases h
    next m hm =>
      obtain ⟨product, hproduct, hid, hstart, hstep⟩ := mintSlot_eq_ok hm
      refine ih h ?_ (mem_updateSub_of_nodup _ hrest hids) hids'
      rw [← append_assoc]
      exact hs.mint (hrest sub mem_cons_self) hproduct hid hstart hstep _
    · have hadded : conflicts₀ ++ result.conflicts
          ⊆ conflicts₀ ++ (result.conflicts ++ [sub.id]) := by
        rw [← append_assoc]
        exact subset_append_left _ _
      have hmem : sub.id ∈ conflicts₀ ++ (result.conflicts ++ [sub.id]) := by simp
      split at h
      · exact ih h (hs.update sub.id (fun _ => rfl) (fun _ => rfl) hadded (.inl hmem))
          (mem_updateSub_of_nodup _ hrest hids) hids'
      next hnone =>
        -- the product that mintSlot found is found again
        have hfound := hs.indexed.found sub (hrest sub mem_cons_self)
        rw [hnone] at hfound
        cases hfound
    · exact ih h hs (forall_mem_cons.mp hrest).2 hids'

theorem step_tracked {σ : System} (k : Cmd) (h : Tracked σ.service σ.minted σ.conflicts) :
    Tracked (step σ k).service (step σ k).minted (step σ k).conflicts := by
  have hchange := step_change σ k
  generalize step σ k = σ' at hchange
  have hsame : σ.conflicts ⊆ σ.conflicts := fun _ hc => hc
  cases hchange with
  | none => exact h
  | product hpos => exact h.addProduct hpos
  | deactivated productId => exact h.deactivate productId
  | subscribed nowMs hcheck =>
    exact h.addSub (isSome_iff_exists.mpr ⟨_, (checkSubscribe_eq_ok hcheck).1⟩)
  | paused | resumed | cancelled =>
    exact h.update _ (fun _ => rfl) (fun _ => rfl) hsame (.inr fun _ => rfl)
  | ticked hgen =>
    refine mintEach_tracked hgen ?_ (fun sub hsub => ?_) ?_
    · rw [append_nil, append_nil]
      exact h
    · exact mem_of_mem_filter ((mem_insertionSort _).mp (mem_of_mem_take hsub))
    · refine List.Nodup.sublist ((take_sublist _ _).map _) ?_
      rw [((perm_insertionSort _ _).map SubscriptionRecord.id).nodup_iff]
      exact h.indexed.subs.nodup.sublist (filter_sublist.map _)

theorem run_tracked (ks : List Cmd) : Tracked (run ks).service (run ks).minted (run ks).conflicts :=
  Machine.run_inv (I := fun σ : System => Tracked σ.service σ.minted σ.conflicts)
    (fun _ k h => step_tracked k h) Tracked.empty ks

/-! ## The generator against the rule -/

/-- The generator's step, for a rule that `COUNT=0` does not stop. -/
theorem step_of_nextSlotStart {a c : Int}
    (hcount : (parseRecurrence product.recurrenceRule).below 0 = true)
    (h : product.nextSlotStart a = some c) :
    (parseRecurrence product.recurrenceRule).Step product.slotDurationMs a c := by
  obtain ⟨slots, hexpand, hc⟩ := map_eq_some_iff.mp h
  have hwindow : a + product.slotDurationMs + product.slotDurationMs * 2
      = a + 3 * product.slotDurationMs := by ring
  rcases Recurrence.head_expandLoop hexpand hcount with ⟨rfl, hnone⟩ | ⟨o, rest, rfl, hlt, hfrom⟩
  · rw [hwindow] at hnone
    exact .inr ⟨hc.symm, hnone⟩
  · rw [hwindow] at hlt
    obtain rfl : o.startMs = c := hc
    exact .inl ⟨hlt, hfrom⟩

/-- Starts that follow the product are the rule's first occurrences
exactly where the first is one, the count is not exceeded, and every
start but the last meets the condition. -/
theorem firstOccurrences_of_follows {starts : List Int}
    {cursor : Int} (hpos : 0 < product.slotDurationMs) (h : product.Follows starts cursor) :
    (∀ first ∈ starts.head?,
        FirstOccurrences (parseRecurrence product.recurrenceRule) first starts) ↔
      (∀ first ∈ starts.head?, (parseRecurrence product.recurrenceRule).occursAt first = true) ∧
      (∀ m ∈ (parseRecurrence product.recurrenceRule).maxCount, starts.length ≤ m) ∧
      ∀ a ∈ starts.dropLast,
        (parseRecurrence product.recurrenceRule).Meets product.slotDurationMs a := by
  cases starts with
  | nil => simp
  | cons first l =>
    simp only [head?_cons, mem_some_iff, forall_eq']
    by_cases hcount : (parseRecurrence product.recurrenceRule).below 0 = true
    · have hchain := (isChain_append.mp h).1.imp fun a c => step_of_nextSlotStart hcount
      exact Recurrence.firstOccurrences_iff hpos hchain
    · -- `COUNT=0`: the rule has no occurrence at all
      constructor
      · intro hocc
        exact absurd (Recurrence.firstOccurrences_cons.mp hocc).1 hcount
      · rintro ⟨-, hlen, -⟩
        refine absurd (Recurrence.below_iff.mpr fun m hm => ?_) hcount
        have := hlen m hm
        rw [length_cons] at this
        omega

/-- Whatever calls were made, the starts minted for a subscription
without conflicts are the first occurrences of its rule exactly where the
first start is one, `COUNT` is not exceeded, and every start but the last
meets the condition on the duration. -/
theorem minted_firstOccurrences_iff (ks : List Cmd) {sub : SubscriptionRecord}
    (hsub : sub ∈ (run ks).service.subs) (hconflicts : sub.id ∉ (run ks).conflicts)
    {product : SubscriptionProductRecord}
    (hproduct : (run ks).service.findProduct sub.productId = some product) :
    let r := parseRecurrence product.recurrenceRule
    let starts := startsOf (run ks).minted sub.id
    (∀ first ∈ starts.head?, FirstOccurrences r first starts) ↔
      (∀ first ∈ starts.head?, r.occursAt first = true) ∧
      (∀ m ∈ r.maxCount, starts.length ≤ m) ∧
      ∀ a ∈ starts.dropLast, r.Meets product.slotDurationMs a := by
  have h := run_tracked ks
  exact firstOccurrences_of_follows (h.durations product (mem_of_get hproduct))
    (h.follows sub hsub hconflicts product hproduct)

/-- A `DAILY` product with slots of the given length, one subscriber, and
two ticks. -/
def dailyProduct (slotDurationMs : Int) : List Cmd :=
  [.createProduct
      { name := "Coaching", professional := "pro-1", slotDurationMs
        recurrenceRule := "FREQ=DAILY" },
    .subscribe 0 { productId := "sp-1", subscriberId := "ann" },
    .tick [] 0 50, .tick [] 200000000 50]

/-- With slots of a day the two starts are a day apart. -/
theorem daily_of_day_slots :
    startsOf (run (dailyProduct 86400000)).minted "sub-1" = [0, 86400000] ∧
      FirstOccurrences (parseRecurrence "FREQ=DAILY") 0 [0, 86400000] := by
  have hstarts : startsOf (run (dailyProduct 86400000)).minted "sub-1" = [0, 86400000] := by
    decide +kernel
  have hsub : ∃ sub ∈ (run (dailyProduct 86400000)).service.subs,
      sub.id = "sub-1" ∧ sub.productId = "sp-1" := by decide +kernel
  have hproduct : ∃ product ∈ (run (dailyProduct 86400000)).service.findProduct "sp-1",
      product.recurrenceRule = "FREQ=DAILY" ∧ product.slotDurationMs = 86400000 := by
    decide +kernel
  obtain ⟨sub, hsub, hid, hpid⟩ := hsub
  obtain ⟨product, hproduct, hrule, hduration⟩ := hproduct
  have hconflicts : sub.id ∉ (run (dailyProduct 86400000)).conflicts := by
    rw [hid]
    decide +kernel
  have h := minted_firstOccurrences_iff (dailyProduct 86400000) hsub hconflicts (hpid ▸ hproduct)
  rw [hid, hrule, hduration, hstarts] at h
  refine ⟨hstarts, h.mpr ⟨by decide +kernel, by decide +kernel, ?_⟩ 0 rfl⟩
  intro a ha
  obtain rfl := mem_singleton.mp ha
  exact ⟨1, by omega, by decide +kernel, by omega, 1, by omega, by omega, by decide +kernel⟩

/-- With slots of an hour the second slot of a `DAILY` rule is an hour
after the first. -/
theorem daily_of_hour_slots :
    (run (dailyProduct 3600000)).conflicts = [] ∧
      ((run (dailyProduct 3600000)).service.findById "sub-1").map SubscriptionRecord.productId
        = some "sp-1" ∧
      ((run (dailyProduct 3600000)).service.findProduct "sp-1").map
        SubscriptionProductRecord.recurrenceRule = some "FREQ=DAILY" ∧
      startsOf (run (dailyProduct 3600000)).minted "sub-1" = [0, 3600000] ∧
      ¬ FirstOccurrences (parseRecurrence "FREQ=DAILY") 0 [0, 3600000] := by
  refine ⟨by decide +kernel, by decide +kernel, by decide +kernel, by decide +kernel, ?_⟩
  intro h
  obtain ⟨-, -, hrest⟩ := Recurrence.firstOccurrences_cons.mp h
  obtain ⟨-, ⟨k, hk, -⟩, -⟩ := Recurrence.firstOccurrences_cons.mp hrest
  have hperiod : (parseRecurrence "FREQ=DAILY").period = 86400000 := by decide +kernel
  rw [hperiod] at hk
  omega

end ChronoPay.Subscriptions
