import ChronoPay.Lib.IsoDate
import ChronoPay.Lib.KeyedList
import ChronoPay.Lib.Machine
import ChronoPay.Lib.TextScan
import ChronoPay.Lib.Window
import ChronoPay.Pricing

/-!
# PartnerQuota — daily and monthly quotas of partner tokens

`checkAndConsume` reads a token's row, judges its two counters as the row
has them at `now`, and has SQL charge them. The SQL of `consume` decides
by itself whether a counter starts over: it does when the next reset lies
after `updated_at`. But `getOrCreate` has just set `updated_at` to `now`,
and the next reset lies after `now`, so the counter ALWAYS starts over at
one, and a limit of two or more stops nobody (`step_unlimited`).

What `Intl.DateTimeFormat` answers is a parameter. A call that throws
(an unknown time zone, a date out of range) has no answer. The metrics
and the log line are left out, and so is `created_at`, which nothing
reads. Each statement is atomic, and `NOW()` is the call's `now`.
-/

namespace ChronoPay.PartnerQuota

open IsoDate KeyedList Machine Option TextScan

/-! ## Reset times -/

/-- What `Intl.DateTimeFormat` answers; `none` for a time zone it does not
know. -/
structure Intl where
  /-- The date of an instant in a time zone. -/
  localDate : String → Int → Option Civil
  /-- The `timeZoneName` part of the `longOffset` format. -/
  longOffset : String → Int → Option (Option String)

/-- `new Date(t)`, where that is a valid date. -/
def validDate (t : Int) : Option Int :=
  if -maxTime ≤ t ∧ t ≤ maxTime then some t else none

/-- `Date.UTC(year, month - 1, day, hour)`. -/
def dateUTC (year month day hour : Int) : Option Int :=
  let fullYear := if 0 ≤ year ∧ year ≤ 99 then 1900 + year else year
  validDate (daysFromCivil ⟨fullYear, month, day⟩ * 86400000 + hour * 3600000)

/-- `/(?:UTC|GMT)([+-])(\d+)(?::(\d+))?/` at the start of a text, in
minutes. -/
def explicitOffset (text : List Char) : Option Int := do
  let rest ← (afterKey "UTC".toList text).or (afterKey "GMT".toList text)
  let sign ← rest.head?
  if sign = '+' ∨ sign = '-' then
    let hours ← firstRun Char.isDigit rest.tail
    let minutes := (afterKey ":".toList (rest.tail.drop hours.length)).bind
      (firstRun Char.isDigit)
    let offset : Int := Nat.ofDigitChars 10 hours 0 * 60
      + Nat.ofDigitChars 10 (minutes.getD "0".toList) 0
    return if sign = '+' then offset else -offset
  else none

def abbrMap : List (String × Int) :=
  [("EST", -300), ("EDT", -240), ("CST", -360), ("CDT", -300), ("MST", -420), ("MDT", -360),
    ("PST", -480), ("PDT", -420), ("AKST", -540), ("AKDT", -480), ("HST", -600), ("HAST", -600),
    ("GMT", 0), ("BST", 60), ("CET", 60), ("CEST", 120), ("EET", 120), ("EEST", 180), ("WET", 0),
    ("WEST", 60), ("IST", 60), ("JST", 540), ("KST", 540), ("CST_CN", 480), ("HKT", 480),
    ("SGT", 480), ("AEST", 600), ("AEDT", 660), ("ACST", 570), ("ACDT", 630), ("AWST", 480),
    ("NZST", 720), ("NZDT", 780), ("IST_IN", 330)]

/-- The offset from UTC in minutes. -/
def parseOffset (tzName : String) : Int :=
  if tzName = "UTC" ∨ tzName = "GMT" ∨ tzName = "Z" then 0
  else match leftmost explicitOffset tzName.toList with
    | some offset => offset
    | none => (abbrMap.lookup tzName).getD 0

def midnightInTz (intl : Intl) (timezone : String) (year month day : Int) : Option Int := do
  let noonUtc ← dateUTC year month day 12
  let tzPart ← intl.longOffset timezone noonUtc
  let midnight ← dateUTC year month day 0
  validDate (midnight - parseOffset (tzPart.getD "UTC") * 60000)

def nextDailyReset (intl : Intl) (timezone : String) (now : Int) : Option Int := do
  let date ← intl.localDate timezone now
  midnightInTz intl timezone date.year date.month (date.day + 1)

def nextMonthlyReset (intl : Intl) (timezone : String) (now : Int) : Option Int := do
  let date ← intl.localDate timezone now
  let nextMonth := if date.month = 12 then 1 else date.month + 1
  let nextYear := if date.month = 12 then date.year + 1 else date.year
  midnightInTz intl timezone nextYear nextMonth 1

/-! ## Rows -/

/-- One of the two counters of a row: `daily_limit`, `daily_used` and
`daily_reset_at`, or the monthly ones. -/
structure Counter where
  limit : Int
  used : Nat
  resetAt : Int
  deriving DecidableEq, Repr

structure QuotaRow where
  tokenId : String
  daily : Counter
  monthly : Counter
  timezone : String
  approachingQuotaNotified : Bool
  updatedAt : Int
  deriving DecidableEq, Repr

namespace Counter

/-- `now >= reset_at`. -/
def due (c : Counter) (now : Int) : Bool := c.resetAt ≤ now

def effectiveUsed (c : Counter) (now : Int) : Nat := if c.due now then 0 else c.used

def exceeded (c : Counter) (now : Int) : Bool := c.limit ≤ c.effectiveUsed now

/-- The time `consume` is given; `next` is what a reset would set. -/
def nextReset (c : Counter) (now : Int) (next : Option Int) : Option Int :=
  if c.due now then next else some c.resetAt

/-- One more use reaches 80 % of the limit. -/
def approaching (c : Counter) (now : Int) : Bool :=
  (4 : ℚ) / 5 ≤ (c.effectiveUsed now + 1 : Nat) / c.limit

/-- `CASE WHEN next > updated_at THEN 1 ELSE used + 1 END`. -/
def charged (c : Counter) (next updatedAt : Int) : Counter :=
  { c with used := if next > updatedAt then 1 else c.used + 1, resetAt := next }

/-- The counter as a status shows it. -/
def shown (c : Counter) (now next : Int) : Counter :=
  { c with used := c.effectiveUsed now, resetAt := next }

/-- Rounded to two places. -/
def percentUsed (c : Counter) : ℚ :=
  let percent : ℚ := if 0 < c.limit then (c.used : ℚ) / c.limit * 100 else 0
  (mathRound (percent * 100) : ℚ) / 100

end Counter

/-! ## SqlQuotaStore -/

/-- The statement is given the two reset times a new row starts with. -/
def getOrCreate (intl : Intl) (table : List QuotaRow) (tokenId : String) (now : Int) :
    Option (List QuotaRow × QuotaRow) := do
  let dailyResetAt ← nextDailyReset intl "UTC" now
  let monthlyResetAt ← nextMonthlyReset intl "UTC" now
  match KeyedList.get QuotaRow.tokenId tokenId table with
  | some row =>
    -- `ON CONFLICT (token_id) DO UPDATE SET updated_at = EXCLUDED.updated_at`
    return (KeyedList.modify QuotaRow.tokenId tokenId (fun row => { row with updatedAt := now })
      table, { row with updatedAt := now })
  | none =>
    let row :=
      { tokenId
        daily := { limit := 10000, used := 0, resetAt := dailyResetAt }
        monthly := { limit := 300000, used := 0, resetAt := monthlyResetAt }
        timezone := "UTC"
        approachingQuotaNotified := false
        updatedAt := now }
    return (table ++ [row], row)

def consume (table : List QuotaRow) (tokenId : String) (dailyResetAt monthlyResetAt : Int)
    (approachingNotified : Bool) (now : Int) : List QuotaRow :=
  KeyedList.modify QuotaRow.tokenId tokenId (fun row =>
    { row with
      daily := row.daily.charged dailyResetAt row.updatedAt
      monthly := row.monthly.charged monthlyResetAt row.updatedAt
      approachingQuotaNotified := approachingNotified
      updatedAt := now }) table

def markNotified (table : List QuotaRow) (tokenId : String) : List QuotaRow :=
  KeyedList.modify QuotaRow.tokenId tokenId
    (fun row => { row with approachingQuotaNotified := true }) table

/-! ## The service -/

structure QuotaStatus where
  tokenId : String
  dailyUsed : Nat
  dailyLimit : Int
  monthlyUsed : Nat
  monthlyLimit : Int
  dailyResetAt : String
  monthlyResetAt : String
  timezone : String
  dailyPercentUsed : ℚ
  monthlyPercentUsed : ℚ
  deriving DecidableEq

def toQuotaStatus (row : QuotaRow) : QuotaStatus :=
  { tokenId := row.tokenId
    dailyUsed := row.daily.used
    dailyLimit := row.daily.limit
    monthlyUsed := row.monthly.used
    monthlyLimit := row.monthly.limit
    dailyResetAt := isoText row.daily.resetAt
    monthlyResetAt := isoText row.monthly.resetAt
    timezone := row.timezone
    dailyPercentUsed := row.daily.percentUsed
    monthlyPercentUsed := row.monthly.percentUsed }

inductive Exceeded where
  | daily
  | monthly
  | both
  deriving DecidableEq, Repr

structure ConsumeResult where
  allowed : Bool
  status : QuotaStatus
  exceeded : Option Exceeded
  deriving DecidableEq

namespace QuotaRow

def nextDaily (intl : Intl) (row : QuotaRow) (now : Int) : Option Int :=
  row.daily.nextReset now (nextDailyReset intl row.timezone now)

def nextMonthly (intl : Intl) (row : QuotaRow) (now : Int) : Option Int :=
  row.monthly.nextReset now (nextMonthlyReset intl row.timezone now)

/-- The status of a row whose counters are reset lazily. -/
def shownStatus (intl : Intl) (row : QuotaRow) (now : Int) : Option QuotaStatus := do
  let dailyResetAt ← row.nextDaily intl now
  let monthlyResetAt ← row.nextMonthly intl now
  return toQuotaStatus
    { row with
      daily := row.daily.shown now dailyResetAt
      monthly := row.monthly.shown now monthlyResetAt }

def exceeded (row : QuotaRow) (now : Int) : Option Exceeded :=
  match row.daily.exceeded now, row.monthly.exceeded now with
  | true, true => some .both
  | true, false => some .daily
  | false, true => some .monthly
  | false, false => none

def notifiedAfter (row : QuotaRow) (now : Int) : Bool :=
  let shouldNotify := (row.daily.approaching now || row.monthly.approaching now) &&
    !row.approachingQuotaNotified
  row.approachingQuotaNotified || shouldNotify

end QuotaRow

/-- What follows the read of the row. -/
def judge (intl : Intl) (table : List QuotaRow) (row : QuotaRow) (tokenId : String) (now : Int) :
    List QuotaRow × Option ConsumeResult :=
  match row.exceeded now with
  | some exceeded =>
    (table, (row.shownStatus intl now).map fun status =>
      { allowed := false, status, exceeded := some exceeded })
  | none =>
    match row.nextDaily intl now, row.nextMonthly intl now with
    | some nextDaily, some nextMonthly =>
      let table := consume table tokenId nextDaily nextMonthly (row.notifiedAfter now) now
      match getOrCreate intl table tokenId now with
      | some (table, updatedRow) =>
        (table, some { allowed := true, status := toQuotaStatus updatedRow, exceeded := none })
      | none => (table, none)
    | _, _ => (table, none)

def checkAndConsume (intl : Intl) (table : List QuotaRow) (tokenId : String) (now : Int) :
    List QuotaRow × Option ConsumeResult :=
  match getOrCreate intl table tokenId now with
  | some (table, row) => judge intl table row tokenId now
  | none => (table, none)

def getQuotaStatus (intl : Intl) (table : List QuotaRow) (tokenId : String) (now : Int) :
    List QuotaRow × Option QuotaStatus :=
  match getOrCreate intl table tokenId now with
  | some (table, row) => (table, row.shownStatus intl now)
  | none => (table, none)

/-! ## Calls one after the other -/

inductive Cmd where
  | checkAndConsume (now : Int)
  | getQuotaStatus (now : Int)
  | markNotified
  deriving DecidableEq, Repr

/-- A call of `checkAndConsume`: whether it found the counters due for a
reset, and its answer. -/
structure Outcome where
  dailyDue : Bool
  monthlyDue : Bool
  answer : Option ConsumeResult
  deriving DecidableEq

def Outcome.allowed (o : Outcome) : Bool := o.answer.any ConsumeResult.allowed

structure System where
  table : List QuotaRow
  log : List Outcome := []
  deriving DecidableEq

def step (intl : Intl) (tokenId : String) (σ : System) : Cmd → System
  | .checkAndConsume now =>
    let row := (getOrCreate intl σ.table tokenId now).map Prod.snd
    let (table, answer) := checkAndConsume intl σ.table tokenId now
    { table
      log := σ.log ++
        [{ dailyDue := row.any (·.daily.due now), monthlyDue := row.any (·.monthly.due now),
           answer }] }
  | .getQuotaStatus now => { σ with table := (getQuotaStatus intl σ.table tokenId now).1 }
  | .markNotified => { σ with table := markNotified σ.table tokenId }

abbrev run (intl : Intl) (tokenId : String) (table : List QuotaRow) (ks : List Cmd) : System :=
  Machine.run (step intl tokenId) { table } ks

/-! ## The two sides of a row -/

inductive Side where
  | daily
  | monthly

namespace Side

def pick {α : Type*} (daily monthly : α) : Side → α
  | .daily => daily
  | .monthly => monthly

def counter (row : QuotaRow) : Side → Counter := pick row.daily row.monthly

def defaultLimit : Side → Int := pick 10000 300000

/-- The time a reset at `now` would set. -/
def nextReset (intl : Intl) : Side → String → Int → Option Int :=
  pick (nextDailyReset intl) (nextMonthlyReset intl)

def due (o : Outcome) : Side → Bool := pick o.dailyDue o.monthlyDue

/-- The call reset the counter. -/
def reset (side : Side) (o : Outcome) : Bool := due o side && o.allowed

/-- The limit of a token, which a new row has by default. -/
def limitOf (side : Side) (table : List QuotaRow) (tokenId : String) : Int :=
  match KeyedList.get QuotaRow.tokenId tokenId table with
  | some row => (counter row side).limit
  | none => side.defaultLimit

def usedOf (side : Side) (table : List QuotaRow) (tokenId : String) : Nat :=
  match KeyedList.get QuotaRow.tokenId tokenId table with
  | some row => (counter row side).used
  | none => 0

end Side

open Side

variable {intl : Intl} {table table' : List QuotaRow} {tokenId : String} {row : QuotaRow}
  {now : Int}

theorem limitOf_of_get (h : KeyedList.get QuotaRow.tokenId tokenId table = some row)
    (side : Side) : side.limitOf table tokenId = (counter row side).limit := by
  rw [limitOf, h]

theorem usedOf_of_get (h : KeyedList.get QuotaRow.tokenId tokenId table = some row)
    (side : Side) : side.usedOf table tokenId = (counter row side).used := by
  rw [usedOf, h]

/-! ## What a call does to the counters -/

/-- The read changes no counter and sets `updated_at`. -/
theorem getOrCreate_spec (h : getOrCreate intl table tokenId now = some (table', row)) :
    KeyedList.get QuotaRow.tokenId tokenId table' = some row ∧ row.updatedAt = now ∧
      ∀ side : Side, (counter row side).limit = side.limitOf table tokenId ∧
        (counter row side).used = side.usedOf table tokenId := by
  simp only [getOrCreate, bind_eq_bind, bind_eq_some_iff] at h
  obtain ⟨daily, -, monthly, -, h⟩ := h
  split at h
  next old hold =>
    cases h
    refine ⟨?_, rfl, fun side => ?_⟩
    · rw [get_modify_self (by exact fun _ => rfl), hold]
      rfl
    · rw [limitOf_of_get hold, usedOf_of_get hold]
      cases side <;> exact ⟨rfl, rfl⟩
  next hnone =>
    cases h
    refine ⟨?_, rfl, fun side => ?_⟩
    · rw [get_append, hnone, none_or, get_cons, if_pos rfl]
    · rw [limitOf, usedOf, hnone]
      cases side <;> exact ⟨rfl, rfl⟩

theorem exceeded_eq_none : row.exceeded now = none ↔
    ∀ side : Side, (counter row side).exceeded now = false := by
  constructor
  · intro h side
    unfold QuotaRow.exceeded at h
    cases side <;> dsimp only [counter, pick] <;> split at h <;> simp_all
  · intro h
    have hdaily : row.daily.exceeded now = false := h .daily
    have hmonthly : row.monthly.exceeded now = false := h .monthly
    simp [QuotaRow.exceeded, hdaily, hmonthly]

/-- Whether the read throws does not depend on the table. -/
theorem getOrCreate_isSome (h : (getOrCreate intl table tokenId now).isSome)
    (table' : List QuotaRow) : ∃ row, ∃ table'', getOrCreate intl table' tokenId now
      = some (table'', row) := by
  obtain ⟨⟨t, r⟩, h⟩ := isSome_iff_exists.mp h
  simp only [getOrCreate, bind_eq_bind, bind_eq_some_iff] at h
  obtain ⟨daily, hdaily, monthly, hmonthly, -⟩ := h
  simp only [getOrCreate, hdaily, hmonthly, bind_eq_bind, bind_some]
  split
  · exact ⟨_, _, rfl⟩
  · exact ⟨_, _, rfl⟩

/-- What a call of `checkAndConsume` does to the counters of its token. -/
inductive Consumed (intl : Intl) (tokenId : String) (now : Int) (σ : System) : System → Prop
  /-- Denied or thrown: denied only with a counter used up. -/
  | kept {table : List QuotaRow} {o : Outcome}
      (hlimit : ∀ side : Side, side.limitOf table tokenId = side.limitOf σ.table tokenId)
      (hused : ∀ side : Side, side.usedOf table tokenId = side.usedOf σ.table tokenId)
      (hnot : o.allowed = false)
      (hdenied : o.answer.isSome →
        ∃ side : Side, side.limitOf σ.table tokenId ≤ side.usedOf σ.table tokenId) :
      Consumed intl tokenId now σ { table, log := σ.log ++ [o] }
  /-- Allowed: each counter has room or is due, and is charged. -/
  | charged {table : List QuotaRow} {o : Outcome} (timezone : String) (next : Side → Int)
      (hlimit : ∀ side : Side, side.limitOf table tokenId = side.limitOf σ.table tokenId)
      (hroom : ∀ side : Side, 0 < side.limitOf σ.table tokenId ∧
        (due o side = false → side.usedOf σ.table tokenId < side.limitOf σ.table tokenId))
      (hnext : ∀ side : Side, now < next side ∨ side.nextReset intl timezone now = some (next side))
      (hused : ∀ side : Side, side.usedOf table tokenId
        = if next side > now then 1 else side.usedOf σ.table tokenId + 1)
      (hallowed : o.allowed = true) :
      Consumed intl tokenId now σ { table, log := σ.log ++ [o] }

namespace Counter

variable {c : Counter}

theorem nextReset_eq_some {next : Option Int} {t : Int} (h : c.nextReset now next = some t) :
    now < t ∨ next = some t := by
  unfold nextReset at h
  split at h
  · exact .inr h
  next hdue =>
    cases h
    simp only [due, decide_eq_true_eq, not_le] at hdue
    exact .inl hdue

theorem effectiveUsed_le (c : Counter) (now : Int) : c.effectiveUsed now ≤ c.used := by
  unfold effectiveUsed
  split
  · exact Nat.zero_le _
  · exact Nat.le_refl _

theorem room (h : c.exceeded now = false) :
    0 < c.limit ∧ (c.due now = false → c.used < c.limit) := by
  have hlt : (c.effectiveUsed now : Int) < c.limit := not_le.mp (of_decide_eq_false h)
  constructor
  · omega
  · intro hdue
    rwa [effectiveUsed, if_neg (by simp [hdue])] at hlt

end Counter

theorem consume_spec (hget : KeyedList.get QuotaRow.tokenId tokenId table = some row)
    (now nextDaily nextMonthly : Int) (notified : Bool) (side : Side) :
    side.limitOf (consume table tokenId nextDaily nextMonthly notified now) tokenId
        = (counter row side).limit ∧
      side.usedOf (consume table tokenId nextDaily nextMonthly notified now) tokenId
        = if pick nextDaily nextMonthly side > row.updatedAt then 1
          else (counter row side).used + 1 := by
  have hcharged : KeyedList.get QuotaRow.tokenId tokenId
      (consume table tokenId nextDaily nextMonthly notified now) = some
        { row with
          daily := row.daily.charged nextDaily row.updatedAt
          monthly := row.monthly.charged nextMonthly row.updatedAt
          approachingQuotaNotified := notified
          updatedAt := now } := by
    rw [consume, get_modify_self (by exact fun _ => rfl), hget]
    rfl
  rw [limitOf_of_get hcharged, usedOf_of_get hcharged]
  cases side <;> exact ⟨rfl, rfl⟩

theorem step_consumed (intl : Intl) (tokenId : String) (σ : System) (now : Int) :
    Consumed intl tokenId now σ (step intl tokenId σ (.checkAndConsume now)) := by
  cases hread : getOrCreate intl σ.table tokenId now with
  | none =>
    simp only [step, checkAndConsume, hread]
    exact .kept (fun _ => rfl) (fun _ => rfl) rfl nofun
  | some read =>
    obtain ⟨table, row⟩ := read
    obtain ⟨hget, hupdated, hrow⟩ := getOrCreate_spec hread
    have hlimit : ∀ side : Side, side.limitOf table tokenId = side.limitOf σ.table tokenId :=
      fun side => (limitOf_of_get hget side).trans (hrow side).1
    have hused : ∀ side : Side, side.usedOf table tokenId = side.usedOf σ.table tokenId :=
      fun side => (usedOf_of_get hget side).trans (hrow side).2
    simp only [step, checkAndConsume, hread]
    unfold judge
    cases hexceeded : row.exceeded now with
    | some exceeded =>
      refine .kept hlimit hused ?_ fun _ => ?_
      · cases hstatus : row.shownStatus intl now <;> simp [Outcome.allowed]
      · -- the counter that is used up
        have hsome : ¬ row.exceeded now = none := by simp [hexceeded]
        rw [exceeded_eq_none, not_forall] at hsome
        obtain ⟨side, hside⟩ := hsome
        have hle : (counter row side).limit ≤ (counter row side).effectiveUsed now :=
          of_decide_eq_true (Bool.not_eq_false _ ▸ hside)
        have := (counter row side).effectiveUsed_le now
        refine ⟨side, ?_⟩
        rw [← (hrow side).1, ← (hrow side).2]
        omega
    | none =>
      dsimp only
      split
      next nextDaily nextMonthly hdaily hmonthly =>
        have hcharge := consume_spec hget now nextDaily nextMonthly (row.notifiedAfter now)
        obtain ⟨updated, last, hlast⟩ := getOrCreate_isSome (by rw [hread]; rfl)
          (consume table tokenId nextDaily nextMonthly (row.notifiedAfter now) now)
        obtain ⟨hgetLast, -, hrowLast⟩ := getOrCreate_spec hlast
        rw [hlast]
        refine .charged row.timezone (pick nextDaily nextMonthly)
          (fun side => ?_) (fun side => ?_) (fun side => ?_) (fun side => ?_) rfl
        · rw [limitOf_of_get hgetLast, (hrowLast side).1, (hcharge side).1, (hrow side).1]
        · rw [← (hrow side).1, ← (hrow side).2]
          have hroom := Counter.room (exceeded_eq_none.mp hexceeded side)
          cases side <;> exact hroom
        · cases side
          · exact Counter.nextReset_eq_some hdaily
          · exact Counter.nextReset_eq_some hmonthly
        · rw [usedOf_of_get hgetLast, (hrowLast side).2, (hcharge side).2, hupdated, (hrow side).2]
      · exact .kept hlimit hused rfl nofun

theorem getQuotaStatus_counters (intl : Intl) (table : List QuotaRow) (tokenId : String)
    (now : Int) (side : Side) :
    side.limitOf (getQuotaStatus intl table tokenId now).1 tokenId = side.limitOf table tokenId ∧
      side.usedOf (getQuotaStatus intl table tokenId now).1 tokenId
        = side.usedOf table tokenId := by
  unfold getQuotaStatus
  cases hread : getOrCreate intl table tokenId now with
  | none => exact ⟨rfl, rfl⟩
  | some read =>
    obtain ⟨hget, -, hrow⟩ := getOrCreate_spec hread
    exact ⟨(limitOf_of_get hget side).trans (hrow side).1,
      (usedOf_of_get hget side).trans (hrow side).2⟩

theorem markNotified_counters (table : List QuotaRow) (tokenId : String) (side : Side) :
    side.limitOf (markNotified table tokenId) tokenId = side.limitOf table tokenId ∧
      side.usedOf (markNotified table tokenId) tokenId = side.usedOf table tokenId := by
  rw [limitOf, usedOf, limitOf, usedOf, markNotified, get_modify_self (by exact fun _ => rfl)]
  cases KeyedList.get QuotaRow.tokenId tokenId table with
  | none => exact ⟨rfl, rfl⟩
  | some row => cases side <;> exact ⟨rfl, rfl⟩

/-! ## Windows -/

/-- No window between two resets has more allowed calls than the limit. -/
def Side.Within (side : Side) (limit : Int) (log : List Outcome) : Prop :=
  Window.Bounded side.reset Outcome.allowed limit.toNat log

/-- With a limit of at most one, the row knows about every use since the
last reset. -/
structure Side.Held (side : Side) (tokenId : String) (limit : Int) (σ : System) : Prop where
  limited : side.limitOf σ.table tokenId = limit
  within : side.Within limit σ.log
  since_le : Window.since side.reset Outcome.allowed σ.log ≤ limit.toNat
  since_used : Window.since side.reset Outcome.allowed σ.log ≤ side.usedOf σ.table tokenId

theorem step_held {side : Side} {limit : Int} (hone : limit ≤ 1) {σ : System} (k : Cmd)
    (h : side.Held tokenId limit σ) : side.Held tokenId limit (step intl tokenId σ k) := by
  cases k with
  | checkAndConsume now =>
    have hstep := step_consumed intl tokenId σ now
    generalize step intl tokenId σ (.checkAndConsume now) = σ' at hstep
    cases hstep with
    | @kept table o hlimit hused hnot =>
      have hsince : Window.since side.reset Outcome.allowed (σ.log ++ [o])
          = Window.since side.reset Outcome.allowed σ.log := by
        simp [Window.since_concat, reset, hnot]
      have hle := hsince.le.trans h.since_le
      exact ⟨(hlimit side).trans h.limited, h.within.concat hle, hle,
        hsince.le.trans (h.since_used.trans (hused side).ge)⟩
    | @charged table o timezone next hlimit hroom hnext hused hallowed =>
      obtain ⟨hpos, hfree⟩ := hroom side
      rw [h.limited] at hpos hfree
      -- an earlier use would have left no room
      have hsince : Window.since side.reset Outcome.allowed (σ.log ++ [o]) = 1 := by
        rw [Window.since_concat, hallowed, if_pos rfl, reset, hallowed, Bool.and_true]
        cases hdue : due o side with
        | true => rfl
        | false =>
          have := hfree hdue
          have := h.since_used
          rw [if_neg (by simp)]
          omega
      have hle : Window.since side.reset Outcome.allowed (σ.log ++ [o]) ≤ limit.toNat := by omega
      refine ⟨(hlimit side).trans h.limited, h.within.concat hle, hle, ?_⟩
      rw [hsince, hused side]
      split <;> omega
  | getQuotaStatus now =>
    obtain ⟨hlimit, hused⟩ := getQuotaStatus_counters intl σ.table tokenId now side
    exact ⟨hlimit.trans h.limited, h.within, h.since_le, h.since_used.trans hused.ge⟩
  | markNotified =>
    obtain ⟨hlimit, hused⟩ := markNotified_counters σ.table tokenId side
    exact ⟨hlimit.trans h.limited, h.within, h.since_le, h.since_used.trans hused.ge⟩

/-- The reset times lie after the instant they are computed at. -/
def Intl.Later (intl : Intl) : Prop :=
  ∀ (side : Side) timezone now, ∀ t ∈ side.nextReset intl timezone now, now < t

/-- UTC, whatever the name of the time zone. -/
def utc : Intl where
  localDate _ now := some (civilFromDays (now / 86400000))
  longOffset _ _ := some (some "GMT")

theorem dateUTC_eq_some {year month day hour t : Int} (h : dateUTC year month day hour = some t) :
    ∃ n, 0 ≤ n ∧ t = daysFromCivil ⟨year + n, month, day⟩ * 86400000 + hour * 3600000 := by
  simp only [dateUTC, validDate] at h
  split at h
  · split at h
    · cases h
      exact ⟨1900, by omega, by rw [add_comm year]⟩
    · cases h
  · split at h
    · cases h
      exact ⟨0, by omega, by rw [add_zero]⟩
    · cases h

theorem midnightInTz_utc {timezone : String} {year month day t : Int}
    (h : midnightInTz utc timezone year month day = some t) :
    ∃ n, 0 ≤ n ∧ t = daysFromCivil ⟨year + n, month, day⟩ * 86400000 := by
  simp only [midnightInTz, utc, bind_eq_bind, bind_eq_some_iff] at h
  obtain ⟨noon, -, _, hpart, midnight, hmidnight, ht⟩ := h
  cases hpart
  obtain ⟨n, hn, rfl⟩ := dateUTC_eq_some hmidnight
  refine ⟨n, hn, ?_⟩
  have hoffset : parseOffset "GMT" = 0 := by decide
  simp only [validDate, getD_some, hoffset] at ht
  split at ht
  · cases ht
    ring
  · cases ht

theorem utc_later : utc.Later := by
  intro side timezone now t ht
  cases side with
  | daily =>
    obtain ⟨n, hn, rfl⟩ := midnightInTz_utc ht
    have := lt_daysFromCivil_nextDay (now / 86400000) hn
    omega
  | monthly =>
    obtain ⟨n, hn, rfl⟩ := midnightInTz_utc ht
    have := lt_daysFromCivil_nextMonth (now / 86400000) hn
    omega

/-- Both limits are two or more and neither counter is beyond one; no call
was denied. -/
structure Unlimited (tokenId : String) (σ : System) : Prop where
  limits : ∀ side : Side, 2 ≤ side.limitOf σ.table tokenId
  used : ∀ side : Side, side.usedOf σ.table tokenId ≤ 1
  answers : ∀ o ∈ σ.log, o.answer.isSome → o.allowed = true

theorem step_unlimited (hlater : intl.Later) {σ : System} (k : Cmd) (h : Unlimited tokenId σ) :
    Unlimited tokenId (step intl tokenId σ k) := by
  cases k with
  | checkAndConsume now =>
    have hstep := step_consumed intl tokenId σ now
    generalize step intl tokenId σ (.checkAndConsume now) = σ' at hstep
    cases hstep with
    | @kept table o hlimit hused hnot hdenied =>
      refine ⟨fun side => (hlimit side).symm ▸ h.limits side,
        fun side => (hused side).symm ▸ h.used side, ?_⟩
      refine forall_mem_concat h.answers fun hsome => ?_
      obtain ⟨side, hle⟩ := hdenied hsome
      have := h.limits side
      have := h.used side
      omega
    | @charged table o timezone next hlimit hroom hnext hused hallowed =>
      refine ⟨fun side => (hlimit side).symm ▸ h.limits side, fun side => ?_, ?_⟩
      · -- the next reset lies ahead, so the counter starts over
        have hahead : now < next side := by
          rcases hnext side with hahead | hreset
          · exact hahead
          · exact hlater side timezone now _ hreset
        rw [hused side, if_pos hahead]
      · exact forall_mem_concat h.answers fun _ => hallowed
  | getQuotaStatus now =>
    have hcounters := getQuotaStatus_counters intl σ.table tokenId now
    exact ⟨fun side => (hcounters side).1.symm ▸ h.limits side,
      fun side => (hcounters side).2.symm ▸ h.used side, h.answers⟩
  | markNotified =>
    have hcounters := markNotified_counters σ.table tokenId
    exact ⟨fun side => (hcounters side).1.symm ▸ h.limits side,
      fun side => (hcounters side).2.symm ▸ h.used side, h.answers⟩

/-- A limit of at most one is kept in every window. Where both limits are
two or more, and the counters not yet beyond one, NO call is ever
denied. -/
theorem allowed_in_window (intl : Intl) (table : List QuotaRow) (tokenId : String)
    (ks : List Cmd) :
    (∀ side : Side, side.limitOf table tokenId ≤ 1 →
        side.Within (side.limitOf table tokenId) (run intl tokenId table ks).log) ∧
      (intl.Later → (∀ side : Side, 2 ≤ side.limitOf table tokenId ∧
          side.usedOf table tokenId ≤ 1) →
        ∀ o ∈ (run intl tokenId table ks).log, o.answer.isSome → o.allowed = true) := by
  constructor
  · intro side hone
    have hstart : side.Held tokenId (side.limitOf table tokenId) { table } :=
      ⟨rfl, .nil, Nat.zero_le _, Nat.zero_le _⟩
    exact (run_inv (fun _ k => step_held hone k) hstart ks).within
  · intro hlater hrow
    have hstart : Unlimited tokenId { table } :=
      ⟨fun side => (hrow side).1, fun side => (hrow side).2, List.forall_mem_nil _⟩
    exact (run_inv (fun _ k => step_unlimited hlater k) hstart ks).answers

/-- A token whose counters have not been used. -/
def unusedRow (dailyLimit monthlyLimit : Int) : QuotaRow :=
  { tokenId := "apiKey_1"
    daily := { limit := dailyLimit, used := 0, resetAt := 86400000 }
    monthly := { limit := monthlyLimit, used := 0, resetAt := 2678400000 }
    timezone := "UTC"
    approachingQuotaNotified := false
    updatedAt := 0 }

def threeCalls : List Cmd := [.checkAndConsume 0, .checkAndConsume 1000, .checkAndConsume 2000]

/-- Three calls in the first seconds of a day, under a daily limit of one
and under limits of two and three. -/
theorem allowed_in_first_day :
    Side.daily.Within 1 (run utc "apiKey_1" [unusedRow 1 3] threeCalls).log ∧
      ∀ o ∈ (run utc "apiKey_1" [unusedRow 2 3] threeCalls).log,
        o.answer.isSome → o.allowed = true :=
  ⟨(allowed_in_window utc [unusedRow 1 3] "apiKey_1" threeCalls).1 .daily (by decide),
    (allowed_in_window utc [unusedRow 2 3] "apiKey_1" threeCalls).2 utc_later
      (by intro side; cases side <;> decide)⟩

/-- With a daily limit of two, three calls on one day are allowed. -/
theorem three_allowed_of_two :
    Side.daily.limitOf [unusedRow 2 100] "apiKey_1" = 2 ∧
      ¬ Side.daily.Within 2 (run utc "apiKey_1" [unusedRow 2 100] threeCalls).log := by
  refine ⟨by decide, fun h => ?_⟩
  have hreset : ∀ o ∈ (run utc "apiKey_1" [unusedRow 2 100] threeCalls).log.tail,
      Side.daily.reset o = false := by decide +kernel
  have hcount := Window.Bounded.countP_le h hreset
  have hthree : (run utc "apiKey_1" [unusedRow 2 100] threeCalls).log.countP Outcome.allowed
      = 3 := by decide +kernel
  exact absurd hcount (by decide)

end ChronoPay.PartnerQuota
