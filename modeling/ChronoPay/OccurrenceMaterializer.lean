import Mathlib.Data.List.Infix
import ChronoPay.JsText
import ChronoPay.Lib.IsoDate
import ChronoPay.Lib.KeyedList
import ChronoPay.Lib.Result
import ChronoPay.Lib.TextPieces
import ChronoPay.Lib.TextScan

/-!
# OccurrenceMaterializer — the next days of a recurrence series

`materializeSeries` expands the rule of a series, keeps what falls into
the window `[now, now + horizonDays]` and replaces the stored occurrences
by it. The expander refuses a rule without COUNT or UNTIL, so such a rule
is given a `;COUNT=200` first.

That count is taken from the beginning of the rule, not of the window:
the occurrences behind the first 200 are lost, however long ago these
were. What is stored is what the window should have exactly if every
occurrence in it is one of the first 200 (`stored_iff`).

The library that reads rules is a parameter. It enumerates the
occurrences of a rule in increasing order, and a COUNT at the end of a
rule keeps the first ones (`RRuleLibrary.counted`).
-/

namespace ChronoPay.OccurrenceMaterializer

open KeyedList List Result TextPieces

/-! ## Rules -/

/-- A rule with what the library has read of it; `options` are `none`
where they are `null`. -/
structure Rule where
  count : Option Int := none
  untilAt : Option Int := none
  interval : Option Int := some 1
  /-- The occurrences in order, in ms. -/
  occurrence : Nat → Option Int
  closed : ∀ n, occurrence n = none → occurrence (n + 1) = none
  ordered : ∀ n a b, occurrence n = some a → occurrence (n + 1) = some b → a < b

/-- `rule.all` with an iterator that stops it after `n`. -/
def Rule.first (rule : Rule) (n : Nat) : List Int := (List.range n).filterMap rule.occurrence

structure RRuleLibrary where
  /-- `rrulestr`; `none` where it throws. -/
  rrulestr : List Char → Option Rule
  /-- A COUNT behind the text of an unbounded rule keeps its first
  occurrences, where it is read as part of the rule. -/
  counted : ∀ (text : List Char) (n : Nat) (rule rule' : Rule), rrulestr text = some rule →
    rule.count = none → rule.untilAt = none →
    rrulestr (text ++ (";COUNT=" ++ toString n).toList) = some rule' →
    rule'.count = none ∧ rule'.untilAt = none ∨
      ∀ i, rule'.occurrence i = if i < n then rule.occurrence i else none

/-! ## EXDATE -/

def maxOccurrences : Nat := 200

def maxExdates : Nat := 100

structure RecurrenceError where
  message : String
  deriving DecidableEq

/-- What ends a line in a regular expression. -/
def isLineTerminator (c : Char) : Bool :=
  c = '\n' || c = '\r' || c.toNat = 0x2028 || c.toNat = 0x2029

/-- The text behind the first colon, on this line or a later one, with the
lines behind it. -/
def afterColon : List (List Char) → List Char → Option (List Char × List (List Char))
  | rest, line =>
    match line.dropWhile (· ≠ ':'), rest with
    | _ :: value, rest => if value = [] then none else some (value, rest)
    | [], next :: rest => afterColon rest next
    | [], [] => none

/-- A match of `/^EXDATE(?:;[^:]*)?:(.+)$/im` that starts with this line. -/
def exdateMatch (line : List Char) (rest : List (List Char)) :
    Option (List Char × List (List Char)) :=
  if "EXDATE".toList <+: line.map Char.toUpper then
    match line.drop 6 with
    | ':' :: value => if value = [] then none else some (value, rest)
    | ';' :: params => afterColon rest params
    | _ => none
  else none

/-- All matches, in order. A match ends a line at least, so as much fuel as
there are lines is enough. -/
def exdateMatches : Nat → List (List Char) → List (List Char)
  | 0, _ => []
  | _, [] => []
  | fuel + 1, line :: rest =>
    match exdateMatch line rest with
    | some (value, rest) => value :: exdateMatches fuel rest
    | none => exdateMatches fuel rest

/-- `Date.UTC(year, month, day)`, months from zero. -/
def dateUTC (year month day : Int) : Int :=
  let year := if 0 ≤ year ∧ year ≤ 99 then 1900 + year else year
  (IsoDate.daysFromCivil ⟨year + month / 12, month % 12 + 1, 1⟩ + day - 1) * 86400000

/-- The value of decimal digits. -/
def decimal (digits : List Char) : Nat := digits.foldl (fun n c => 10 * n + (c.toNat - 48)) 0

def parseSingleExdate (value : List Char) : Option Int :=
  let unzoned := if value.getLast?.any (fun c => c.toUpper = 'Z') then value.dropLast else value
  let v := trimBy isJsSpace unzoned
  let date := v.take 8
  let time := (v.drop 9).take 6
  let isDate := date.length = 8 ∧ date.all Char.isDigit = true
  let isTime := v[8]? = some 'T' ∧ time.length = 6 ∧ time.all Char.isDigit = true
  if isDate ∧ (isTime ∨ v.length = 8) then
    let month : Int := decimal ((date.drop 4).take 2)
    some (dateUTC (decimal (date.take 4)) (month - 1) (decimal (date.drop 6)))
  else none

def parseExdates (rruleText : List Char) : Except RecurrenceError (List Int) := do
  let lines := rruleText.splitOnP isLineTerminator
  let exdates := (exdateMatches lines.length lines).flatMap fun valueList =>
    (((TextScan.split ',' (trimBy isJsSpace valueList)).map (trimBy isJsSpace)).filter
      (· ≠ [])).filterMap parseSingleExdate
  require (exdates.length ≤ maxExdates)
    (RecurrenceError.mk ("EXDATE list exceeds maximum of " ++ toString maxExdates ++ " entries"))
  return exdates

def sameUtcDay (a b : Int) : Bool := a / 86400000 = b / 86400000

/-! ## Expansion -/

structure BlackoutWindow where
  startMs : Int
  endMs : Int

structure ExpandRRuleResult where
  occurrences : List Int := []
  excludedByExdate : List Int := []
  excludedByBlackout : List Int := []

/-- `/^EXDATE/i.test(line.trim())`: only where the line starts matters. -/
def isExdateLine (line : List Char) : Bool :=
  "EXDATE".toList <+: (line.dropWhile isJsSpace).map Char.toUpper

/-- The text without its EXDATE lines. -/
def rruleOnly (rruleText : List Char) : List Char :=
  ['\n'].intercalate ((splitLines rruleText).filter fun line => !isExdateLine line)

/-- `INTERVAL=-?[0]+(?:;|$)` at the beginning of a text. -/
def zeroIntervalHere (text : List Char) : Bool :=
  let number := text.drop 9
  let digits := if number.head? = some '-' then number.drop 1 else number
  let rest := digits.dropWhile (· = '0')
  "INTERVAL=".toList <+: text.map Char.toUpper ∧ digits.head? = some '0' ∧
    (rest = [] ∨ rest.head? = some ';')

/-- `/(?:^|[;\n])INTERVAL=-?[0]+(?:;|$)/i` -/
def zeroInterval (text : List Char) : Bool :=
  zeroIntervalHere text ||
    text.tails.any fun tail => match tail with
      | c :: rest => (c = ';' || c = '\n') && zeroIntervalHere rest
      | [] => false

/-- One turn of the loop over the occurrences. -/
def sortOut (exdates : List Int) (blackouts : List BlackoutWindow) (result : ExpandRRuleResult)
    (occ : Int) : ExpandRRuleResult :=
  if exdates.any (sameUtcDay · occ) then
    { result with excludedByExdate := result.excludedByExdate ++ [occ] }
  else if blackouts.any (fun b => b.startMs ≤ occ && occ ≤ b.endMs) then
    { result with excludedByBlackout := result.excludedByBlackout ++ [occ] }
  else { result with occurrences := result.occurrences ++ [occ] }

def expandRRuleWithExdate (lib : RRuleLibrary) (rruleText : List Char)
    (blackouts : List BlackoutWindow := []) : Except RecurrenceError ExpandRRuleResult := do
  require (trimBy isJsSpace rruleText ≠ []) (RecurrenceError.mk "rrule must be a non-empty string")
  let exdates ← parseExdates rruleText
  match lib.rrulestr (rruleOnly rruleText) with
  | none => .error (RecurrenceError.mk "Invalid RRULE format")
  | some rule =>
    require (0 < rule.count.getD 0 ∨ rule.untilAt.isSome)
      (RecurrenceError.mk "Unbounded RRULE is not allowed; include COUNT or UNTIL")
    require (¬ (rule.interval.any (· < 1) = true ∨ zeroInterval rruleText = true))
      (RecurrenceError.mk "INTERVAL must be a positive integer")
    let rawOccurrences := rule.first (maxOccurrences + 1)
    require (rawOccurrences.length ≤ maxOccurrences) (RecurrenceError.mk
      ("RRULE expands to more than " ++ toString maxOccurrences ++ " occurrences"))
    return rawOccurrences.foldl (sortOut exdates blackouts) {}

def expandRRule (lib : RRuleLibrary) (rruleText : List Char) : Except RecurrenceError (List Int) :=
  (expandRRuleWithExdate lib rruleText).map ExpandRRuleResult.occurrences

/-! ## The database -/

structure RecurrenceSeries where
  id : String
  rrule : List Char
  version : Int

structure MaterializedOccurrence where
  seriesId : String
  seriesVersion : Int
  occurrenceDate : Int
  materializedAt : Int
  deriving DecidableEq

structure Database where
  series : List RecurrenceSeries
  occurrences : List MaterializedOccurrence := []

/-- The queries of one materialization. -/
inductive Query where
  | findById
  | connect
  | begin
  | delete
  | insert
  | commit
  | cleanStaleVersions
  deriving DecidableEq

/-- Which queries fail; a COMMIT may fail for the client and take effect. -/
structure Faults where
  fails : Query → Bool := fun _ => false
  commitTakesEffect : Bool := false

inductive Failure where
  /-- "Recurrence series not found: …" -/
  | notFound (seriesId : String)
  | recurrence (error : RecurrenceError)
  | database (query : Query)
  deriving DecidableEq

structure BulkUpsertOccurrenceInput where
  seriesId : String
  seriesVersion : Int
  occurrenceDates : List Int
  materializedAt : Int

def BulkUpsertOccurrenceInput.rows (input : BulkUpsertOccurrenceInput) :
    List MaterializedOccurrence :=
  input.occurrenceDates.map fun occurrenceDate =>
    { seriesId := input.seriesId, seriesVersion := input.seriesVersion, occurrenceDate
      materializedAt := input.materializedAt }

/-- DELETE and INSERT in one transaction, with the check constraint on the
version. Before the COMMIT, a failure leaves the table as it was. -/
def bulkUpsert (faults : Faults) (input : BulkUpsertOccurrenceInput) (db : Database) :
    Database × Except Failure (List MaterializedOccurrence) :=
  let others := db.occurrences.filter (·.seriesId ≠ input.seriesId)
  let replaced := { db with occurrences := others ++ input.rows }
  if faults.fails .connect then (db, .error (.database .connect))
  else if faults.fails .begin then (db, .error (.database .begin))
  else if faults.fails .delete then (db, .error (.database .delete))
  else if input.occurrenceDates ≠ [] ∧ (faults.fails .insert ∨ input.seriesVersion ≤ 0) then
    (db, .error (.database .insert))
  else if faults.fails .commit then
    (if faults.commitTakesEffect then replaced else db, .error (.database .commit))
  else (replaced, .ok input.rows)

/-- A row of an earlier version of the series. -/
def MaterializedOccurrence.stale (seriesId : String) (currentVersion : Int)
    (row : MaterializedOccurrence) : Bool :=
  row.seriesId = seriesId ∧ row.seriesVersion < currentVersion

def cleanStaleVersions (faults : Faults) (seriesId : String) (currentVersion : Int)
    (db : Database) : Database × Except Failure Nat :=
  if faults.fails .cleanStaleVersions then (db, .error (.database .cleanStaleVersions))
  else
    ({ db with occurrences := db.occurrences.filter fun row => !row.stale seriesId currentVersion },
      .ok (db.occurrences.countP fun row => row.stale seriesId currentVersion))

/-! ## Materialization -/

structure Options where
  now : Int
  horizonDays : Nat := 90
  toUpperCase : List Char → List Char := List.map Char.toUpper

structure SingleMaterializationResult where
  occurrencesMaterialized : Nat
  staleCleaned : Nat
  deriving DecidableEq

def Options.horizonEnd (options : Options) : Int :=
  options.now + options.horizonDays * 24 * 60 * 60 * 1000

def trimEnd (text : List Char) : List Char := text.rdropWhile isJsSpace

/-- The text says COUNT or UNTIL. -/
def Options.hasBound (options : Options) (rrule : List Char) : Bool :=
  "COUNT=".toList <:+: options.toUpperCase rrule || "UNTIL=".toList <:+: options.toUpperCase rrule

def Options.ensureBoundedRRule (options : Options) (rrule : List Char) (maxCount : Nat) :
    List Char :=
  if options.hasBound rrule then rrule
  else trimEnd rrule ++ (";COUNT=" ++ toString maxCount).toList

def Options.inHorizon (options : Options) (occurrence : Int) : Bool :=
  options.now ≤ occurrence ∧ occurrence ≤ options.horizonEnd

def materializeSeries (lib : RRuleLibrary) (options : Options) (faults : Faults)
    (seriesId : String) (db : Database) :
    Database × Except Failure SingleMaterializationResult :=
  if faults.fails .findById then (db, .error (.database .findById))
  else
    match KeyedList.get RecurrenceSeries.id seriesId db.series with
    | none => (db, .error (.notFound seriesId))
    | some series =>
      match expandRRule lib (options.ensureBoundedRRule series.rrule maxOccurrences) with
      | .error error => (db, .error (.recurrence error))
      | .ok allOccurrences =>
        let horizonOccurrences := allOccurrences.filter options.inHorizon
        match bulkUpsert faults
            { seriesId := series.id, seriesVersion := series.version
              occurrenceDates := horizonOccurrences, materializedAt := options.now } db with
        | (db, .error failure) => (db, .error failure)
        | (db, .ok _) =>
          match cleanStaleVersions faults series.id series.version db with
          | (db, .error failure) => (db, .error failure)
          | (db, .ok staleCleaned) =>
            (db, .ok { occurrencesMaterialized := horizonOccurrences.length, staleCleaned })

/-! ## The first occurrences of a rule -/

variable {rule rule' : Rule} {n : Nat}

theorem Rule.occurrence_lt {i j : Nat} {a b : Int} (hij : i < j)
    (ha : rule.occurrence i = some a) (hb : rule.occurrence j = some b) : a < b := by
  induction j generalizing b with
  | zero => exact absurd hij (Nat.not_lt_zero i)
  | succ j ih =>
    cases hj : rule.occurrence j with
    | none =>
      rw [rule.closed j hj] at hb
      cases hb
    | some c =>
      have hcb := rule.ordered j c b hj hb
      rcases Nat.lt_succ_iff_lt_or_eq.mp hij with hlt | rfl
      · exact Int.lt_trans (ih hlt hj) hcb
      · rw [ha] at hj
        exact Option.some.inj hj ▸ hcb

/-- No date occurs twice. -/
theorem Rule.occurrence_inj {i j : Nat} {d : Int} (hi : rule.occurrence i = some d)
    (hj : rule.occurrence j = some d) : i = j := by
  rcases Nat.lt_trichotomy i j with hlt | heq | hgt
  · exact absurd (Rule.occurrence_lt hlt hi hj) (Int.lt_irrefl d)
  · exact heq
  · exact absurd (Rule.occurrence_lt hgt hj hi) (Int.lt_irrefl d)

theorem Rule.mem_first {d : Int} : d ∈ rule.first n ↔ ∃ i < n, rule.occurrence i = some d := by
  simp [Rule.first, mem_filterMap]

theorem Rule.first_ordered (rule : Rule) (n : Nat) : (rule.first n).Pairwise (· < ·) := by
  rw [Rule.first, pairwise_filterMap]
  exact pairwise_lt_range.imp fun hij a ha b hb => Rule.occurrence_lt hij ha hb

theorem Rule.first_of_counted
    (h : ∀ i, rule'.occurrence i = if i < n then rule.occurrence i else none) :
    rule'.first (n + 1) = rule.first n := by
  rw [Rule.first, range_succ, filterMap_append, Rule.first]
  have hlast : [n].filterMap rule'.occurrence = [] := by
    rw [filterMap_cons_none (by rw [h, if_neg (Nat.lt_irrefl n)]), filterMap_nil]
  rw [hlast, append_nil]
  refine filterMap_congr fun i hi => ?_
  rw [h, if_pos (mem_range.mp hi)]

/-! ## What an expansion returns -/

/-- The day of the occurrence is excluded. -/
def excluded (exdates : List Int) (occ : Int) : Bool := exdates.any (sameUtcDay · occ)

theorem foldl_sortOut (exdates occs : List Int) (result : ExpandRRuleResult) :
    (occs.foldl (sortOut exdates []) result).occurrences
      = result.occurrences ++ occs.filter fun occ => !excluded exdates occ := by
  induction occs generalizing result with
  | nil => exact (append_nil _).symm
  | cons occ occs ih =>
    rw [foldl_cons, ih, sortOut, filter_cons, excluded]
    by_cases hday : exdates.any (sameUtcDay · occ) = true
    · simp [hday]
    · simp [hday]

/-- An expansion that succeeds has read a bounded rule, and returns its
occurrences on days that are not excluded. -/
theorem expandRRule_ok {lib : RRuleLibrary} {text : List Char} {occs : List Int}
    (h : expandRRule lib text = .ok occs) :
    ∃ exdates rule, parseExdates text = .ok exdates ∧ lib.rrulestr (rruleOnly text) = some rule ∧
      (0 < rule.count.getD 0 ∨ rule.untilAt.isSome) ∧
      occs = (rule.first (maxOccurrences + 1)).filter fun occ => !excluded exdates occ := by
  rw [expandRRule] at h
  cases hexpand : expandRRuleWithExdate lib text with
  | error error =>
    rw [hexpand] at h
    cases h
  | ok result =>
    rw [hexpand] at h
    cases h
    obtain ⟨_, -, hexpand⟩ := bind_eq_ok.mp hexpand
    obtain ⟨exdates, hexdates, hexpand⟩ := bind_eq_ok.mp hexpand
    split at hexpand
    · cases hexpand
    next rule hrule =>
      obtain ⟨_, hbounded, hexpand⟩ := bind_eq_ok.mp hexpand
      obtain ⟨_, -, hexpand⟩ := bind_eq_ok.mp hexpand
      obtain ⟨_, -, hexpand⟩ := bind_eq_ok.mp hexpand
      cases hexpand
      refine ⟨exdates, rule, hexdates, hrule, require_eq_ok.mp hbounded, ?_⟩
      rw [foldl_sortOut, nil_append]

/-! ## The COUNT that is appended -/

variable {text more : List Char}

theorem splitLines_of_not_mem (h : '\n' ∉ text) : splitLines text = [text] := by
  induction text with
  | nil => rfl
  | cons c text ih =>
    obtain ⟨hc, htext⟩ := not_or.mp (mt mem_cons.mpr h)
    rw [splitLines, ih htext]
    · intro rest _ hrest
      exact htext (hrest ▸ mem_cons_self)
    · exact Ne.symm hc

theorem splitLines_cons {c : Char} {line : List Char} {lines : List (List Char)}
    (hcr : ∀ rest, c = '\r' → text = '\n' :: rest → False) (hlf : c ≠ '\n')
    (htext : splitLines text = line :: lines) : splitLines (c :: text) = (c :: line) :: lines := by
  rw [splitLines, htext]
  · exact hcr
  · exact hlf

/-- What holds no line break goes to the last line. -/
theorem splitLines_append (text : List Char) (hmore : '\n' ∉ more) :
    ∃ lines last, splitLines text = lines ++ [last] ∧
      splitLines (text ++ more) = lines ++ [last ++ more] := by
  induction text using splitLines.induct with
  | case1 => exact ⟨[], [], rfl, splitLines_of_not_mem hmore⟩
  | case2 rest ih | case3 rest ih =>
    obtain ⟨lines, last, hrest, happend⟩ := ih
    exact ⟨[] :: lines, last, congrArg ([] :: ·) hrest, congrArg ([] :: ·) happend⟩
  | case4 c rest hcr hlf line lines hrest ih =>
    -- the break of a line is not torn apart: `more` does not begin with one
    have hcr' : ∀ tail, c = '\r' → rest ++ more = '\n' :: tail → False := by
      intro tail hc htail
      cases rest with
      | nil =>
        rw [nil_append] at htail
        exact hmore (htail ▸ mem_cons_self)
      | cons d rest => exact hcr rest hc (by rw [(List.cons.inj htail).1])
    obtain ⟨before, last, hrest', happend⟩ := ih
    cases before with
    | nil => exact ⟨[], c :: last, splitLines_cons hcr hlf hrest', splitLines_cons hcr' hlf happend⟩
    | cons first before =>
      exact ⟨(c :: first) :: before, last, splitLines_cons hcr hlf hrest',
        splitLines_cons hcr' hlf happend⟩
  | case5 c rest hcr hlf hrest ih =>
    obtain ⟨lines, last, hrest', -⟩ := ih
    exact absurd (hrest.symm.trans hrest') (by simp)

theorem prefix_of_prefix_append {α : Type} {word first second : List α}
    (h : word <+: first ++ second) (hsecond : ∀ c ∈ second.head?, c ∉ word) : word <+: first := by
  rcases prefix_or_prefix_of_prefix h (prefix_append first second) with hword | ⟨rest, rfl⟩
  · exact hword
  · cases rest with
    | nil => rw [append_nil]
    | cons c rest =>
      have hrest := (prefix_append_right_inj first).mp h
      obtain ⟨tail, rfl⟩ := hrest
      exact absurd (mem_append_right first mem_cons_self) (hsecond c rfl)

/-- Whether a line is an EXDATE line shows before the semicolon. -/
theorem isExdateLine_append (line tail : List Char) :
    isExdateLine (line ++ ';' :: tail) = isExdateLine line := by
  have hword : ∀ first : List Char, "EXDATE".toList <+: (first ++ ';' :: tail).map Char.toUpper ↔
      "EXDATE".toList <+: first.map Char.toUpper := by
    intro first
    rw [map_append]
    constructor
    · intro h
      refine prefix_of_prefix_append h fun c hc => ?_
      obtain rfl : ';' = c := Option.some.inj hc
      decide
    · exact fun h => h.trans (prefix_append _ _)
  rw [isExdateLine, isExdateLine, decide_eq_decide]
  by_cases hblank : line.dropWhile isJsSpace = []
  · have hdrop : (line ++ ';' :: tail).dropWhile isJsSpace = [] ++ ';' :: tail := by
      rw [dropWhile_append, hblank]
      rfl
    rw [hdrop, hword, hblank]
  · rw [dropWhile_append_of_ne_nil hblank, hword]

theorem intercalate_append (sep : List Char) (lines : List (List Char)) (last more : List Char) :
    sep.intercalate (lines ++ [last ++ more]) = sep.intercalate (lines ++ [last]) ++ more := by
  induction lines with
  | nil => simp [List.intercalate]
  | cons line lines ih =>
    rw [cons_append, cons_append, intercalate_cons_of_ne_nil (by simp),
      intercalate_cons_of_ne_nil (by simp), ih, ← append_assoc]

/-- What is appended goes to the rule or, behind an EXDATE line, is lost. -/
theorem rruleOnly_append (text : List Char) {tail : List Char} (htail : '\n' ∉ tail) :
    rruleOnly (text ++ ';' :: tail) = rruleOnly text ∨
      rruleOnly (text ++ ';' :: tail) = rruleOnly text ++ ';' :: tail := by
  obtain ⟨lines, last, htext, happend⟩ :=
    splitLines_append text (show '\n' ∉ ';' :: tail by simp [htail])
  rw [rruleOnly, rruleOnly, htext, happend, filter_append, filter_append]
  cases hlast : isExdateLine last with
  | true =>
    left
    simp [isExdateLine_append, hlast]
  | false =>
    right
    have hkept : ∀ line, isExdateLine line = false →
        [line].filter (fun line => !isExdateLine line) = [line] := by
      intro line hline
      rw [filter_cons_of_pos (by rw [hline]; rfl), filter_nil]
    rw [hkept _ hlast, hkept _ ((isExdateLine_append last tail).trans hlast), intercalate_append]

/-! ## What is stored -/

/-- The stored dates of a series. -/
def Database.datesOf (db : Database) (seriesId : String) : List Int :=
  (db.occurrences.filter (·.seriesId = seriesId)).map MaterializedOccurrence.occurrenceDate

variable {lib : RRuleLibrary} {options : Options} {faults : Faults} {db db' : Database}
  {seriesId : String}

/-- The rows of the series are the ones that were given. -/
theorem filter_replaced (rows : List MaterializedOccurrence) (input : BulkUpsertOccurrenceInput) :
    (rows.filter (·.seriesId ≠ input.seriesId) ++ input.rows).filter
      (·.seriesId = input.seriesId) = input.rows := by
  rw [filter_append, filter_filter, filter_eq_nil_iff.mpr, nil_append, filter_eq_self]
  · intro row hrow
    obtain ⟨date, -, rfl⟩ := mem_map.mp hrow
    exact decide_eq_true rfl
  · intro row _
    simp

theorem bulkUpsert_ok {input : BulkUpsertOccurrenceInput} {rows : List MaterializedOccurrence}
    (h : bulkUpsert faults input db = (db', .ok rows)) :
    db'.occurrences.filter (·.seriesId = input.seriesId) = input.rows := by
  rw [bulkUpsert] at h
  split at h
  · cases (Prod.mk.inj h).2
  split at h
  · cases (Prod.mk.inj h).2
  split at h
  · cases (Prod.mk.inj h).2
  split at h
  · cases (Prod.mk.inj h).2
  split at h
  · cases (Prod.mk.inj h).2
  · rw [← (Prod.mk.inj h).1]
    exact filter_replaced db.occurrences input

/-- The rows just written are of the current version. -/
theorem cleanStaleVersions_ok {version : Int} {cleaned : Nat}
    (h : cleanStaleVersions faults seriesId version db = (db', .ok cleaned))
    (hrows : ∀ row ∈ db.occurrences, row.seriesId = seriesId → version ≤ row.seriesVersion) :
    db' = db := by
  rw [cleanStaleVersions] at h
  split at h
  · cases (Prod.mk.inj h).2
  · have hall : db.occurrences.filter (fun row => !row.stale seriesId version) = db.occurrences := by
      refine filter_eq_self.mpr fun row hrow => ?_
      rw [MaterializedOccurrence.stale, Bool.not_eq_true', decide_eq_false_iff_not]
      rintro ⟨hseries, hstale⟩
      exact absurd (hrows row hrow hseries) (Int.not_le.mpr hstale)
    rw [hall] at h
    exact (Prod.mk.inj h).1.symm

/-- A materialization that resolves has stored what the expansion of the
bounded rule has in the window. -/
theorem materializeSeries_ok {result : SingleMaterializationResult}
    (h : materializeSeries lib options faults seriesId db = (db', .ok result)) :
    ∃ series occs, KeyedList.get RecurrenceSeries.id seriesId db.series = some series ∧
      expandRRule lib (options.ensureBoundedRRule series.rrule maxOccurrences) = .ok occs ∧
      db'.datesOf seriesId = occs.filter options.inHorizon := by
  rw [materializeSeries] at h
  split at h
  · cases (Prod.mk.inj h).2
  split at h
  · cases (Prod.mk.inj h).2
  rename_i series hseries
  split at h
  · cases (Prod.mk.inj h).2
  rename_i occs hoccs
  dsimp only at h
  split at h
  · cases (Prod.mk.inj h).2
  rename_i db₁ rows hupsert
  split at h
  · cases (Prod.mk.inj h).2
  rename_i db₂ cleaned hcleaned
  refine ⟨series, occs, hseries, hoccs, ?_⟩
  obtain rfl : series.id = seriesId := get_key hseries
  have hrows := bulkUpsert_ok hupsert
  have hkept : db₂ = db₁ := by
    refine cleanStaleVersions_ok hcleaned fun row hrow hid => ?_
    have hnew : row ∈ db₁.occurrences.filter (·.seriesId = series.id) :=
      mem_filter.mpr ⟨hrow, decide_eq_true hid⟩
    rw [hrows] at hnew
    obtain ⟨date, -, rfl⟩ := mem_map.mp hnew
    exact Int.le_refl _
  obtain rfl := (Prod.mk.inj h).1
  rw [hkept, Database.datesOf, hrows, BulkUpsertOccurrenceInput.rows, map_map]
  exact map_id _

/-! ## The window -/

/-- The occurrences a rule has in the window, without the excluded days. -/
def Due (options : Options) (rule : Rule) (exdates : List Int) (d : Int) : Prop :=
  ∃ i, rule.occurrence i = some d ∧ options.inHorizon d = true ∧ excluded exdates d = false

/-- The expansion of the rule with its COUNT has the first 200 occurrences
of the rule. -/
theorem first_of_bounded {text : List Char} {rule rule' : Rule}
    (hrule : lib.rrulestr (rruleOnly text) = some rule)
    (hunbounded : rule.count = none ∧ rule.untilAt = none)
    (hrule' : lib.rrulestr (rruleOnly (text ++ (";COUNT=" ++ toString maxOccurrences).toList))
      = some rule')
    (hbounded : 0 < rule'.count.getD 0 ∨ rule'.untilAt.isSome) :
    rule'.first (maxOccurrences + 1) = rule.first maxOccurrences := by
  have hnot : ¬ (rule'.count = none ∧ rule'.untilAt = none) := by
    rintro ⟨hcount, huntil⟩
    rw [hcount, huntil] at hbounded
    rcases hbounded with hcount | huntil
    · exact absurd hcount (Int.lt_irrefl 0)
    · cases huntil
  have hsuffix : (";COUNT=" ++ toString maxOccurrences).toList = ';' :: "COUNT=200".toList := by
    decide
  have hlost : rruleOnly (text ++ (";COUNT=" ++ toString maxOccurrences).toList)
      ≠ rruleOnly text := by
    intro hsame
    rw [hsame, hrule] at hrule'
    exact hnot (Option.some.inj hrule' ▸ hunbounded)
  rw [hsuffix] at hrule' hlost
  rw [(rruleOnly_append text (by decide)).resolve_left hlost, ← hsuffix] at hrule'
  rcases lib.counted _ _ rule rule' hrule hunbounded.1 hunbounded.2 hrule' with hnone | hcounted
  · exact absurd hnone hnot
  · exact Rule.first_of_counted hcounted

/-- The stored dates are in order; and they are the occurrences the rule
has in the window exactly if these are among its first 200. -/
theorem stored_iff (lib : RRuleLibrary) (options : Options) (faults : Faults) (db db' : Database)
    (seriesId : String) (series : RecurrenceSeries) (rule : Rule) (exdates : List Int)
    (result : SingleMaterializationResult)
    (hseries : KeyedList.get RecurrenceSeries.id seriesId db.series = some series)
    (htext : options.hasBound series.rrule = false)
    (hrule : lib.rrulestr (rruleOnly (trimEnd series.rrule)) = some rule)
    (hunbounded : rule.count = none ∧ rule.untilAt = none)
    (hexdates : parseExdates (trimEnd series.rrule) = .ok exdates)
    (hsame : parseExdates (options.ensureBoundedRRule series.rrule maxOccurrences)
      = parseExdates (trimEnd series.rrule))
    (hresolves : materializeSeries lib options faults seriesId db = (db', .ok result)) :
    (db'.datesOf seriesId).Pairwise (· < ·) ∧
    ((∀ d, d ∈ db'.datesOf seriesId ↔ Due options rule exdates d) ↔
      ∀ i d, rule.occurrence i = some d → options.inHorizon d = true →
        excluded exdates d = false → i < maxOccurrences) := by
  obtain ⟨series', occs, hseries', hexpand, hdates⟩ := materializeSeries_ok hresolves
  cases hseries.symm.trans hseries'
  obtain ⟨exdates', rule', hexdates', hrule', hbounded, rfl⟩ := expandRRule_ok hexpand
  obtain rfl := Except.ok.inj ((hsame.trans hexdates).symm.trans hexdates')
  rw [Options.ensureBoundedRRule, htext] at hrule'
  rw [first_of_bounded hrule hunbounded hrule' hbounded] at hdates
  have hmem : ∀ d, d ∈ db'.datesOf seriesId ↔ (∃ i < maxOccurrences, rule.occurrence i = some d) ∧
      excluded exdates d = false ∧ options.inHorizon d = true := by
    intro d
    rw [hdates, mem_filter, mem_filter, Rule.mem_first, Bool.not_eq_true', and_assoc]
  constructor
  · rw [hdates]
    exact ((rule.first_ordered _).filter _).filter _
  constructor
  · intro hstored i d hi hwindow hday
    obtain ⟨⟨j, hj, hjd⟩, -⟩ := (hmem d).mp ((hstored d).mpr ⟨i, hi, hwindow, hday⟩)
    exact Rule.occurrence_inj hi hjd ▸ hj
  · intro hfirst d
    rw [hmem]
    constructor
    · rintro ⟨⟨i, -, hi⟩, hday, hwindow⟩
      exact ⟨i, hi, hwindow, hday⟩
    · rintro ⟨i, hi, hwindow, hday⟩
      exact ⟨⟨i, hfirst i d hi hwindow hday, hi⟩, hday, hwindow⟩

/-- Midnight of every day from 2025-01-01 on, all or so many of them. -/
def daily (count : Option Nat) : Rule where
  count := count.map Int.ofNat
  occurrence n := if count.all (n < ·) then some (1735689600000 + n * 86400000) else none
  closed n h := by
    cases count with
    | none => cases h
    | some limit =>
      simp only [Option.all_some, decide_eq_true_eq, ite_eq_right_iff, reduceCtorEq,
        imp_false] at h ⊢
      omega
  ordered n a b ha hb := by
    split at ha
    · split at hb
      · cases ha
        cases hb
        omega
      · cases hb
    · cases ha

def dailyText : List Char := "DTSTART:20250101T000000Z\nRRULE:FREQ=DAILY".toList

def readDaily (text : List Char) : Option Rule :=
  if text = dailyText then some (daily none)
  else if dailyText ++ ";COUNT=".toList <+: text then
    some (daily (some (Nat.ofDigitChars 10 (text.drop 48) 0)))
  else none

theorem readDaily_count (n : Nat) :
    readDaily (dailyText ++ (";COUNT=" ++ toString n).toList) = some (daily (some n)) := by
  have hdigits : Nat.ofDigitChars 10 (toString n).toList 0 = n := by
    rw [Nat.toString_eq_ofList_toDigits, String.toList_ofList, Nat.ofDigitChars_ten_toDigits]
  have htext : dailyText ++ (";COUNT=" ++ toString n).toList
      = (dailyText ++ ";COUNT=".toList) ++ (toString n).toList := by
    rw [String.toList_append, append_assoc]
  have hlength : (dailyText ++ ";COUNT=".toList).length = 48 := by decide
  rw [readDaily, htext, if_neg, if_pos (prefix_append _ _), ← hlength, drop_left, hdigits]
  intro hshort
  have := congrArg List.length hshort
  rw [length_append, hlength] at this
  have hdaily : dailyText.length = 41 := by decide
  omega

/-- A library that reads this rule, with or without a COUNT. -/
def dailyLibrary : RRuleLibrary where
  rrulestr := readDaily
  counted text n rule rule' hrule hcount _ hrule' := by
    unfold readDaily at hrule
    split at hrule
    next htext =>
      subst htext
      rw [readDaily_count] at hrule'
      cases hrule
      cases hrule'
      right
      intro i
      simp [daily]
    · split at hrule
      · cases hrule
        cases hcount
      · cases hrule

/-- A series with that rule, without the fifteenth of January. -/
def dailySeries : RecurrenceSeries where
  id := "s1"
  rrule := "DTSTART:20250101T000000Z\nEXDATE:20250115T000000Z\nRRULE:FREQ=DAILY\n".toList
  version := 1

/-- So many days after the series began. -/
def afterDays (days : Nat) : Options := { now := 1735689600000 + days * 86400000 }

def materialized (days : Nat) : Database × Except Failure SingleMaterializationResult :=
  materializeSeries dailyLibrary (afterDays days) {} "s1" { series := [dailySeries] }

theorem materialized_stored :
    (∀ d, d ∈ (materialized 10).1.datesOf "s1" ↔
      Due (afterDays 10) (daily none) [1736899200000] d) ↔
    ∀ i d, (daily none).occurrence i = some d → (afterDays 10).inHorizon d = true →
      excluded [1736899200000] d = false → i < maxOccurrences := by
  have hseries : KeyedList.get RecurrenceSeries.id "s1" [dailySeries] = some dailySeries := by
    rw [get_cons, if_pos (by rfl)]
  have hok : (materialized 10).2 = .ok ⟨90, 0⟩ := by decide +kernel
  have hresolves : materialized 10 = ((materialized 10).1, .ok ⟨90, 0⟩) := by rw [← hok]
  have hrule : readDaily (rruleOnly (trimEnd dailySeries.rrule)) = some (daily none) := by
    exact if_pos rfl
  exact (stored_iff dailyLibrary (afterDays 10) {} { series := [dailySeries] } (materialized 10).1
    "s1" dailySeries (daily none) [1736899200000] ⟨90, 0⟩ hseries (by decide +kernel) hrule
    ⟨rfl, rfl⟩ (by decide +kernel) (by decide +kernel) hresolves).2

/-- 300 days after the series began it has an occurrence on each of the 91
days of the window, and nothing is stored. -/
theorem materialized_empty :
    (materialized 300).2 = .ok ⟨0, 0⟩ ∧ (materialized 300).1.datesOf "s1" = [] ∧
      (((daily none).first 500).filter (afterDays 300).inHorizon).length = 91 := by
  decide +kernel

end ChronoPay.OccurrenceMaterializer
