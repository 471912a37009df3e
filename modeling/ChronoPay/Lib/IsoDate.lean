import Mathlib.Data.Rat.Floor

/-!
# IsoDate — the time values of `Date` and their ISO 8601 text

A `Date` holds a whole number of milliseconds within 100 000 000 days of
the epoch: a number given to it is truncated towards zero, and outside
the range the date is invalid and `toISOString` throws. The text is
`YYYY-MM-DDTHH:mm:ss.sssZ`, with a signed six-digit year outside
`0000..9999`.

The calendar is split from the day number in the order era (400 years),
century, four-year group, year, counting years from the first of March
so that the leap day is the last day of a year. The headline is
`toISOString_inj`: two time values with the same text are the same.
-/

namespace IsoDate

/-- The largest time value, in milliseconds. -/
def maxTime : Int := 8640000000000000

/-- A day as a year that starts on the first of March and a day of it. -/
structure MarchDate where
  year : Int
  dayOfYear : Int

/-- A calendar date, months and days counted from one. -/
structure Civil where
  year : Int
  month : Int
  day : Int
  deriving DecidableEq, Repr

/-- The first of March of `year`, in days from 1970-01-01. -/
def marchFirst (year : Int) : Int :=
  year / 400 * 146097 + 365 * (year % 400) + year % 400 / 4 - year % 400 / 100 - 719468

def marchDate (days : Int) : MarchDate :=
  let era := (days + 719468) / 146097
  let dayOfEra := (days + 719468) % 146097
  let century := if dayOfEra / 36524 < 4 then dayOfEra / 36524 else 3
  let dayOfCentury := dayOfEra - 36524 * century
  let quad := dayOfCentury / 1461
  let dayOfQuad := dayOfCentury % 1461
  let yearOfQuad := if dayOfQuad / 365 < 4 then dayOfQuad / 365 else 3
  { year := 400 * era + 100 * century + 4 * quad + yearOfQuad
    dayOfYear := dayOfQuad - 365 * yearOfQuad }

/-- The proleptic Gregorian date of a day counted from 1970-01-01. -/
def civilFromDays (days : Int) : Civil :=
  let date := marchDate days
  let month := (5 * date.dayOfYear + 2) / 153
  { year := if month < 10 then date.year else date.year + 1
    month := if month < 10 then month + 3 else month - 9
    day := date.dayOfYear - (153 * month + 2) / 5 + 1 }

/-- The day number of a date: the inverse that certifies `civilFromDays`. -/
def daysFromCivil (c : Civil) : Int :=
  let month := if c.month ≤ 2 then c.month + 9 else c.month - 3
  marchFirst (if c.month ≤ 2 then c.year - 1 else c.year)
    + (153 * month + 2) / 5 + c.day - 1

theorem marchFirst_eq {era century quad year : Int} (hc : 0 ≤ century ∧ century ≤ 3)
    (hq : 0 ≤ quad ∧ quad ≤ 24) (hy : 0 ≤ year ∧ year ≤ 3) :
    marchFirst (400 * era + 100 * century + 4 * quad + year)
      = era * 146097 + 36524 * century + 1461 * quad + 365 * year - 719468 := by
  have hera : (400 * era + 100 * century + 4 * quad + year) / 400 = era := by omega
  have hyoe : (400 * era + 100 * century + 4 * quad + year) % 400
      = 100 * century + 4 * quad + year := by omega
  have h4 : (100 * century + 4 * quad + year) / 4 = 25 * century + quad := by omega
  have h100 : (100 * century + 4 * quad + year) / 100 = century := by omega
  rw [marchFirst, hera, hyoe, h4, h100]
  omega

/-- Splitting off the year loses nothing, and leaves a day of that year. -/
theorem marchDate_spec (days : Int) :
    marchFirst (marchDate days).year + (marchDate days).dayOfYear = days ∧
      0 ≤ (marchDate days).dayOfYear ∧ (marchDate days).dayOfYear ≤ 365 := by
  simp only [marchDate]
  split <;> split <;>
    · rw [marchFirst_eq (by omega) (by omega) (by omega)]
      omega

theorem marchDate_year {days : Int} (h : -100000000 ≤ days) (h' : days ≤ 100000000) :
    -999999 < (marchDate days).year ∧ (marchDate days).year < 999999 := by
  simp only [marchDate]
  split <;> split <;> omega

theorem civilFromDays_month (days : Int) :
    1 ≤ (civilFromDays days).month ∧ (civilFromDays days).month ≤ 12 := by
  obtain ⟨-, h0, h1⟩ := marchDate_spec days
  simp only [civilFromDays]
  split <;> omega

theorem civilFromDays_day (days : Int) :
    1 ≤ (civilFromDays days).day ∧ (civilFromDays days).day ≤ 31 := by
  simp only [civilFromDays]
  omega

theorem civilFromDays_year {days : Int} (h : -100000000 ≤ days) (h' : days ≤ 100000000) :
    -1000000 < (civilFromDays days).year ∧ (civilFromDays days).year < 1000000 := by
  have := marchDate_year h h'
  simp only [civilFromDays]
  split <;> omega

theorem daysFromCivil_civilFromDays (days : Int) : daysFromCivil (civilFromDays days) = days := by
  obtain ⟨hday, h0, h1⟩ := marchDate_spec days
  by_cases hm : (5 * (marchDate days).dayOfYear + 2) / 153 < 10
  · have hlate : ¬ (5 * (marchDate days).dayOfYear + 2) / 153 + 3 ≤ 2 := by omega
    simp only [civilFromDays, if_pos hm]
    simp only [daysFromCivil, if_neg hlate]
    omega
  · have hearly : (5 * (marchDate days).dayOfYear + 2) / 153 - 9 ≤ 2 := by omega
    simp only [civilFromDays, if_neg hm]
    simp only [daysFromCivil, if_pos hearly, add_sub_cancel_right]
    omega

/-! ## Later dates -/

/-- A day lies before the first of March of the next year. -/
theorem lt_marchFirst_succ (days : Int) : days < marchFirst ((marchDate days).year + 1) := by
  simp only [marchDate]
  generalize hera : (days + 719468) / 146097 = era
  generalize hdoe : (days + 719468) % 146097 = dayOfEra
  generalize hcentury : (if dayOfEra / 36524 < 4 then dayOfEra / 36524 else 3) = century
  generalize hdoc : dayOfEra - 36524 * century = dayOfCentury
  generalize hquad : dayOfCentury / 1461 = quad
  generalize hyear : (if dayOfCentury % 1461 / 365 < 4 then dayOfCentury % 1461 / 365 else 3) = year
  -- the next year is in the same group of four, or begins the next group,
  -- century or era
  obtain ⟨e, c, q, y, hnext, hc, hq, hy, hlt⟩ : ∃ e c q y : Int,
      400 * era + 100 * century + 4 * quad + year + 1 = 400 * e + 100 * c + 4 * q + y ∧
      (0 ≤ c ∧ c ≤ 3) ∧ (0 ≤ q ∧ q ≤ 24) ∧ (0 ≤ y ∧ y ≤ 3) ∧
      days < e * 146097 + 36524 * c + 1461 * q + 365 * y - 719468 := by
    by_cases h3 : year < 3
    · exact ⟨era, century, quad, year + 1, by omega⟩
    · by_cases h24 : quad < 24
      · exact ⟨era, century, quad + 1, 0, by omega⟩
      · by_cases hc3 : century < 3
        · exact ⟨era, century + 1, 0, 0, by omega⟩
        · exact ⟨era + 1, 0, 0, 0, by omega⟩
  rw [hnext, marchFirst_eq hc hq hy]
  exact hlt

theorem marchFirst_mono {y n : Int} (hn : 0 ≤ n) : marchFirst y ≤ marchFirst (y + n) := by
  simp only [marchFirst]
  omega

/-- The first of the month after that of a day, `n` years on, is later. -/
theorem lt_daysFromCivil_nextMonth (days : Int) {n : Int} (hn : 0 ≤ n) :
    days < daysFromCivil
      { year := (if (civilFromDays days).month = 12 then (civilFromDays days).year + 1
          else (civilFromDays days).year) + n
        month := if (civilFromDays days).month = 12 then 1 else (civilFromDays days).month + 1
        day := 1 } := by
  obtain ⟨hday, h0, h1⟩ := marchDate_spec days
  have hsame := marchFirst_mono (y := (marchDate days).year) hn
  have hnext := marchFirst_mono (y := (marchDate days).year + 1) hn
  have hlast := lt_marchFirst_succ days
  have hyear : (marchDate days).year + 1 + n - 1 = (marchDate days).year + n := by omega
  -- February is the last month of a year that begins in March
  have hcases : (5 * (marchDate days).dayOfYear + 2) / 153 < 9 ∨
      (5 * (marchDate days).dayOfYear + 2) / 153 = 9 ∨
      (5 * (marchDate days).dayOfYear + 2) / 153 = 10 ∨
      (5 * (marchDate days).dayOfYear + 2) / 153 = 11 := by omega
  rcases hcases with h | h | h | h
  · have h10 : (5 * (marchDate days).dayOfYear + 2) / 153 < 10 := by omega
    have h12 : ¬ (5 * (marchDate days).dayOfYear + 2) / 153 + 3 = 12 := by omega
    have h2 : ¬ (5 * (marchDate days).dayOfYear + 2) / 153 + 3 + 1 ≤ 2 := by omega
    simp only [civilFromDays, h10, if_true, h12, if_false, daysFromCivil, h2]
    omega
  · simp only [civilFromDays, h, daysFromCivil, Int.reduceLT, if_true, Int.reduceAdd,
      Int.reduceLE, hyear]
    omega
  · simp only [civilFromDays, h, daysFromCivil, Int.reduceLT, if_false, Int.reduceSub,
      Int.reduceEq, Int.reduceAdd, Int.reduceLE, if_true, hyear]
    omega
  · simp only [civilFromDays, h, daysFromCivil, Int.reduceLT, if_false, Int.reduceSub,
      Int.reduceEq, Int.reduceAdd, Int.reduceLE]
    omega

theorem lt_daysFromCivil_nextDay (days : Int) {n : Int} (hn : 0 ≤ n) :
    days < daysFromCivil
      { year := (civilFromDays days).year + n
        month := (civilFromDays days).month
        day := (civilFromDays days).day + 1 } := by
  have hsame := daysFromCivil_civilFromDays days
  have hlate := marchFirst_mono (y := (civilFromDays days).year) hn
  have hearly := marchFirst_mono (y := (civilFromDays days).year - 1) hn
  have hyear : (civilFromDays days).year + n - 1 = (civilFromDays days).year - 1 + n := by omega
  simp only [daysFromCivil] at hsame ⊢
  split
  next h =>
    simp only [h, if_true] at hsame
    rw [hyear]
    omega
  next h =>
    simp only [h, if_false] at hsame
    omega

/-! ## The text -/

/-- The last decimal digit of `n`. -/
def digit (n : Int) : Char := Char.ofNat (48 + (n % 10).toNat)

theorem toNat_digit (n : Int) : ((digit n).toNat : Int) = 48 + n % 10 := by
  have hchar : ∀ d < 10, (Char.ofNat (48 + d)).toNat = 48 + d := by decide
  rw [digit, hchar _ (by omega)]
  omega

theorem digit_inj {m n : Int} : digit m = digit n ↔ m % 10 = n % 10 := by
  constructor
  · intro h
    have hm := toNat_digit m
    rw [h, toNat_digit] at hm
    exact (add_left_cancel hm).symm
  · intro h
    simp [digit, h]

/-- The number that `length` digits of a text denote. -/
def numberAt (text : List Char) (start length : Nat) : Int :=
  ((text.drop start).take length).foldl (fun n c => 10 * n + (c.toNat - 48)) 0

def pad2 (n : Int) : List Char := [digit (n / 10), digit n]

def pad3 (n : Int) : List Char := [digit (n / 100), digit (n / 10), digit n]

def pad4 (n : Int) : List Char := pad2 (n / 100) ++ pad2 n

def pad6 (n : Int) : List Char := pad2 (n / 10000) ++ pad4 n

/-- Four digits for the years `0000..9999`, a sign and six digits else. -/
def yearText (y : Int) : List Char :=
  if 0 ≤ y ∧ y ≤ 9999 then pad4 y
  else if 0 ≤ y then '+' :: pad6 y
  else '-' :: pad6 (-y)

theorem yearText_inj {y y' : Int} (hy : -1000000 < y ∧ y < 1000000)
    (hy' : -1000000 < y' ∧ y' < 1000000) (h : yearText y = yearText y') : y = y' := by
  simp only [yearText] at h
  split at h <;> split at h <;> (try split at h) <;> (try split at h) <;>
    simp [pad6, pad4, pad2, digit_inj] at h <;> omega

/-- What follows the year: month, day and time of day, 20 characters. -/
def restText (c : Civil) (ms : Int) : List Char :=
  '-' :: pad2 c.month ++ '-' :: pad2 c.day ++ 'T' :: pad2 (ms / 3600000) ++
    ':' :: pad2 (ms / 60000 % 60) ++ ':' :: pad2 (ms / 1000 % 60) ++
    '.' :: pad3 (ms % 1000) ++ ['Z']

theorem restText_numbers (c : Civil) (ms : Int) :
    numberAt (restText c ms) 1 2 = c.month % 100 ∧ numberAt (restText c ms) 4 2 = c.day % 100 ∧
    numberAt (restText c ms) 7 2 = ms / 3600000 % 100 ∧
    numberAt (restText c ms) 10 2 = ms / 60000 % 60 ∧
    numberAt (restText c ms) 13 2 = ms / 1000 % 60 ∧
    numberAt (restText c ms) 16 3 = ms % 1000 := by
  simp [numberAt, restText, pad2, pad3, toNat_digit]
  omega

theorem restText_inj {c c' : Civil} {ms ms' : Int}
    (hm : 1 ≤ c.month ∧ c.month ≤ 12) (hm' : 1 ≤ c'.month ∧ c'.month ≤ 12)
    (hd : 1 ≤ c.day ∧ c.day ≤ 31) (hd' : 1 ≤ c'.day ∧ c'.day ≤ 31)
    (hms : 0 ≤ ms ∧ ms < 86400000) (hms' : 0 ≤ ms' ∧ ms' < 86400000)
    (h : restText c ms = restText c' ms') :
    c.month = c'.month ∧ c.day = c'.day ∧ ms = ms' := by
  have hnumbers := restText_numbers c ms
  have hnumbers' := restText_numbers c' ms'
  rw [h] at hnumbers
  omega

/-- The text of an in-range time value. -/
def isoText (t : Int) : String :=
  String.ofList (yearText (civilFromDays (t / 86400000)).year ++
    restText (civilFromDays (t / 86400000)) (t % 86400000))

theorem isoText_inj {t t' : Int} (ht : -maxTime ≤ t ∧ t ≤ maxTime)
    (ht' : -maxTime ≤ t' ∧ t' ≤ maxTime) (h : isoText t = isoText t') : t = t' := by
  simp only [maxTime] at ht ht'
  have hlist := String.ofList_injective h
  obtain ⟨hyear, hrest⟩ := List.append_inj' hlist rfl
  have hy := yearText_inj (civilFromDays_year (by omega) (by omega))
    (civilFromDays_year (by omega) (by omega)) hyear
  obtain ⟨hm, hd, hms⟩ := restText_inj (civilFromDays_month _) (civilFromDays_month _)
    (civilFromDays_day _) (civilFromDays_day _) (by omega) (by omega) hrest
  have hcivil : civilFromDays (t / 86400000) = civilFromDays (t' / 86400000) := by
    cases hc : civilFromDays (t / 86400000)
    cases hc' : civilFromDays (t' / 86400000)
    simp_all
  have hday := congrArg daysFromCivil hcivil
  rw [daysFromCivil_civilFromDays, daysFromCivil_civilFromDays] at hday
  omega

/-! ## Dates -/

/-- `new Date(x).getTime()`: truncated to whole milliseconds, `none` for
an invalid date. -/
def timeClip (x : ℚ) : Option Int :=
  let t := if 0 ≤ x then ⌊x⌋ else ⌈x⌉
  if |x| ≤ maxTime then some t else none

/-- `new Date(x).toISOString()`, `none` where it throws a RangeError. -/
def toISOString (x : ℚ) : Option String := (timeClip x).map isoText

theorem timeClip_bounds {x : ℚ} {t : Int} (h : timeClip x = some t) :
    -maxTime ≤ t ∧ t ≤ maxTime := by
  simp only [timeClip] at h
  split at h
  next hx =>
    obtain ⟨hlo, hhi⟩ := abs_le.mp hx
    simp only [Option.some.injEq] at h
    subst h
    split
    · refine ⟨?_, ?_⟩
      · have : (0 : ℤ) ≤ ⌊x⌋ := Int.floor_nonneg.mpr ‹_›
        simp only [maxTime]
        omega
      · exact_mod_cast (Int.floor_le x).trans hhi
    next hneg =>
      refine ⟨?_, ?_⟩
      · exact_mod_cast hlo.trans (Int.le_ceil x)
      · have : ⌈x⌉ ≤ (0 : ℤ) := Int.ceil_le.mpr (by simpa using (not_le.mp hneg).le)
        simp only [maxTime]
        omega
  · simp at h

/-- The text determines the whole milliseconds, and nothing finer. -/
theorem toISOString_eq_some_iff {x y : ℚ} {text : String} (hx : toISOString x = some text) :
    toISOString y = some text ↔ timeClip y = timeClip x := by
  constructor
  · intro hy
    simp only [toISOString, Option.map_eq_some_iff] at hx hy
    obtain ⟨t, ht, htext⟩ := hx
    obtain ⟨t', ht', htext'⟩ := hy
    rw [ht, ht', isoText_inj (timeClip_bounds ht') (timeClip_bounds ht) (htext'.trans htext.symm)]
  · intro h
    rw [← hx, toISOString, toISOString, h]

end IsoDate
