import Mathlib.Data.List.Destutter
import Mathlib.Data.List.Sort
import ChronoPay.Lib.Coop
import ChronoPay.OccurrenceMaterializer

/-!
# OccurrenceSeries — a series edited while it is materialized

`editSeries` gives a series a new rule and the next version, and deletes
the rows of earlier versions without waiting for it. A run of
`materializeSeries` waits for its read of the series, for the transaction
that replaces the rows and for a cleanup below the version it has read. An
UPDATE that fails changes nothing and is left out.

A run that read the series before an edit can put rows of the old version
in the table behind the edit's cleanup, and nothing deletes them. In the
end all rows have the latest version if no edit comes between the read and
the transaction of a run and no cleanup fails (`getOccurrences_latest`).
-/

namespace ChronoPay.OccurrenceSeries

open Coop KeyedList List Machine OccurrenceMaterializer

inductive Request where
  | materializeSeries (options : Options)
  | editSeries (newRRule : List Char)

/-- The statement a call waits for. -/
inductive Pc where
  | findById (options : Options)
  | bulkUpsert (input : BulkUpsertOccurrenceInput)
  | cleanStaleVersions (version : Int) (occurrencesMaterialized : Nat)
  | updateRRule (newRRule : List Char)
  /-- The edit has returned `updated`. -/
  | cleanAfterEdit (updated : RecurrenceSeries)

abbrev Outcome := Except Failure (SingleMaterializationResult ⊕ RecurrenceSeries)

def stored (seriesId : String) (db : Database) : Option RecurrenceSeries :=
  KeyedList.get RecurrenceSeries.id seriesId db.series

def bumped (rrule : List Char) (series : RecurrenceSeries) : RecurrenceSeries :=
  { series with rrule, version := series.version + 1 }

/-- One statement, or one transaction, and what follows up to the next. -/
def resume (lib : RRuleLibrary) (seriesId : String) (faults : Faults) :
    Pc → Database → Database × Coop.Task Pc Outcome
  | .findById options, db =>
    (db,
      if faults.fails .findById then .done (.error (.database .findById))
      else
        match stored seriesId db with
        | none => .done (.error (.notFound seriesId))
        | some series =>
          match expandRRule lib (options.ensureBoundedRRule series.rrule maxOccurrences) with
          | .error error => .done (.error (.recurrence error))
          | .ok allOccurrences =>
            .waiting (.bulkUpsert
              { seriesId := series.id, seriesVersion := series.version
                occurrenceDates := allOccurrences.filter options.inHorizon
                materializedAt := options.now }))
  | .bulkUpsert input, db =>
    let (db, rows) := bulkUpsert faults input db
    (db, match rows with
      | .error failure => .done (.error failure)
      | .ok _ => .waiting (.cleanStaleVersions input.seriesVersion input.occurrenceDates.length))
  | .cleanStaleVersions version occurrencesMaterialized, db =>
    let (db, cleaned) := cleanStaleVersions faults seriesId version db
    (db, .done (cleaned.map fun staleCleaned => .inl { occurrencesMaterialized, staleCleaned }))
  | .updateRRule rrule, db =>
    match stored seriesId db with
    | none => (db, .done (.error (.notFound seriesId)))
    | some series =>
      ({ db with series := KeyedList.modify RecurrenceSeries.id seriesId (bumped rrule) db.series },
        .waiting (.cleanAfterEdit (bumped rrule series)))
  | .cleanAfterEdit updated, db =>
    ((cleanStaleVersions faults seriesId updated.version db).1, .done (.ok (.inr updated)))

def service (lib : RRuleLibrary) (seriesId : String) :
    Program Request Faults Database Pc Outcome where
  start
    | .materializeSeries options => .findById options
    | .editSeries newRRule => .updateRRule newRRule
  resume := resume lib seriesId

/-- `findBySeriesId`: of the rows of one date, the one of the last version. -/
def getOccurrences (seriesId : String) (fromMs toMs : Int) (db : Database) :
    List MaterializedOccurrence :=
  let rows := db.occurrences.filter fun row =>
    row.seriesId = seriesId ∧ fromMs ≤ row.occurrenceDate ∧ row.occurrenceDate ≤ toMs
  (rows.insertionSort fun a b => a.occurrenceDate < b.occurrenceDate ∨
    a.occurrenceDate = b.occurrenceDate ∧ b.seriesVersion ≤ a.seriesVersion).destutter
      (·.occurrenceDate ≠ ·.occurrenceDate)

/-! ## One segment -/

abbrev Sys := Coop.Sys Request Database Pc Outcome

abbrev Cmd := Coop.Cmd Request Faults

variable {lib : RRuleLibrary} {seriesId : String} {db db' : Database} {faults : Faults}
  {rel : Int → Int → Prop} {pc : Pc} {σ : Sys} {k : Cmd}

/-- How the versions of the rows compare with that of the series. -/
def Versions (seriesId : String) (rel : Int → Int → Prop) (db : Database) : Prop :=
  ∀ series ∈ stored seriesId db, ∀ row ∈ db.occurrences, row.seriesId = seriesId →
    rel row.seriesVersion series.version

theorem Versions.subset (h : Versions seriesId rel db)
    (hstored : stored seriesId db' = stored seriesId db)
    (hrows : db'.occurrences ⊆ db.occurrences) : Versions seriesId rel db' :=
  fun series hseries row hrow => h series (hstored ▸ hseries) row (hrows hrow)

/-- What a run is about to write has the version of the series. -/
def Read (seriesId : String) (stored : Option RecurrenceSeries) : Pc → Prop
  | .bulkUpsert input =>
    input.seriesId = seriesId ∧ ∀ series ∈ stored, input.seriesVersion = series.version
  | _ => True

/-- The series stays, and rows are deleted or all replaced. -/
structure Kept (seriesId : String) (db : Database) (out : Database × Coop.Task Pc Outcome) :
    Prop where
  stored : stored seriesId out.1 = stored seriesId db
  rows : out.1.occurrences ⊆ db.occurrences ∨ Versions seriesId (· = ·) out.1
  next : ∀ pc', out.2 = .waiting pc' → Read seriesId (OccurrenceSeries.stored seriesId db) pc'

theorem kept_cleanStaleVersions (version : Int) (outcome : Outcome) :
    Kept seriesId db ((cleanStaleVersions faults seriesId version db).1, .done outcome) := by
  rw [cleanStaleVersions]
  split
  · exact ⟨rfl, .inl (List.Subset.refl _), by simp⟩
  · exact ⟨rfl, .inl (filter_subset_self _), by simp⟩

theorem resume_bulkUpsert (lib : RRuleLibrary) (seriesId : String)
    (input : BulkUpsertOccurrenceInput) :
    (resume lib seriesId faults (.bulkUpsert input) db).1 = db ∨
      (resume lib seriesId faults (.bulkUpsert input) db).1 = { db with
        occurrences := db.occurrences.filter (·.seriesId ≠ input.seriesId) ++ input.rows } := by
  show (bulkUpsert faults input db).1 = db ∨ (bulkUpsert faults input db).1 = _
  rw [bulkUpsert]
  repeat' split
  all_goals first | exact .inl rfl | exact .inr rfl

/-- **One segment** gives the series its next version, or keeps it. -/
theorem resume_cases (lib : RRuleLibrary) (faults : Faults)
    (hread : Read seriesId (stored seriesId db) pc) :
    (∃ rrule series updated, pc = .updateRRule rrule ∧ stored seriesId db = some series ∧
      series.version < updated.version ∧
      stored seriesId (resume lib seriesId faults pc db).1 = some updated ∧
      (resume lib seriesId faults pc db).1.occurrences = db.occurrences ∧
      (resume lib seriesId faults pc db).2 = .waiting (.cleanAfterEdit updated)) ∨
    Kept seriesId db (resume lib seriesId faults pc db) := by
  cases pc with
  | findById options =>
    refine .inr ⟨rfl, .inl (List.Subset.refl _), fun pc' hnext => ?_⟩
    dsimp only [resume] at hnext
    split at hnext
    · cases hnext
    split at hnext
    · cases hnext
    rename_i series hseries
    split at hnext
    · cases hnext
    · cases hnext
      have hid : series.id = seriesId := get_key hseries
      refine ⟨hid, fun series' hseries' => ?_⟩
      cases hseries.symm.trans hseries'
      rfl
  | bulkUpsert input =>
    obtain ⟨rfl, hversion⟩ := hread
    have hnext : ∀ pc', (resume lib input.seriesId faults (.bulkUpsert input) db).2 = .waiting pc' →
        Read input.seriesId (stored input.seriesId db) pc' := by
      intro pc' hpc'
      dsimp only [resume] at hpc'
      split at hpc' <;> cases hpc'
      trivial
    right
    rcases resume_bulkUpsert lib input.seriesId input with hsame | hnew
    · exact ⟨by rw [hsame], .inl (by rw [hsame]; exact List.Subset.refl _), hnext⟩
    · refine ⟨by rw [hnew]; rfl, .inr ?_, hnext⟩
      rw [hnew]
      intro series hseries row hrow hid
      rcases mem_append.mp hrow with hother | hrow
      · exact absurd hid (of_decide_eq_true (mem_filter.mp hother).2)
      · obtain ⟨date, -, rfl⟩ := mem_map.mp hrow
        exact hversion series hseries
  | cleanStaleVersions version n => exact .inr (kept_cleanStaleVersions version _)
  | updateRRule rrule =>
    rw [resume]
    split
    · exact .inr ⟨rfl, .inl (List.Subset.refl _), by simp⟩
    next series hseries =>
      refine .inl ⟨rrule, series, _, rfl, hseries, Int.lt_succ series.version, ?_, rfl, rfl⟩
      refine (get_modify_self (f := bumped rrule) fun _ => rfl).trans ?_
      exact congrArg (Option.map _) hseries
  | cleanAfterEdit updated => exact .inr (kept_cleanStaleVersions _ _)

/-! ## Runs -/

/-- The run is between its read and its transaction. -/
def Pc.replaces : Pc → Option Unit
  | .bulkUpsert _ => some ()
  | _ => none

def Pc.edits : Pc → Bool
  | .updateRRule _ => true
  | _ => false

/-- An edit finds no run there, and no cleanup fails. -/
def EditsApart (σ : Sys) (k : Cmd) : Prop :=
  ∀ segment ∈ resumed σ k, segment.1.fails .cleanStaleVersions = false ∧
    (segment.2.edits = true → Free Pc.replaces () σ)

/-- Old rows are there only while the cleanup of the last edit is. -/
structure Settling (seriesId : String) (σ : Sys) : Prop where
  read : Held (fun db => Read seriesId (stored seriesId db)) σ
  rows : Versions seriesId (· = ·) σ.shared ∨ Versions seriesId (· ≤ ·) σ.shared ∧
    ∃ c ∈ σ.calls, ∃ series ∈ stored seriesId σ.shared, c.task = .waiting (.cleanAfterEdit series)

theorem Settling.read_step (h : Settling seriesId σ) (hk : EditsApart σ k) :
    Held (fun db => Read seriesId (stored seriesId db))
      (step (service lib seriesId) σ k) := by
  refine h.read.step_others (fun q _ => by cases q <;> trivial) ?_ ?_
  · intro faults pc pc' _ hpc hnext
    rcases resume_cases lib faults hpc with
      ⟨_, _, _, -, -, -, -, -, hclean⟩ | hkept
    · cases hclean.symm.trans hnext
      trivial
    · exact hkept.stored ▸ hkept.next pc' hnext
  · rintro i faults q pc j q' pc' rfl hi - hj hpc hpc'
    rcases resume_cases lib faults hpc with ⟨rrule, _, _, rfl, -⟩ | hkept
    · have hresumed : resumed σ (.resume i faults) = some (faults, .updateRRule rrule) := by
        simp [resumed, hi]
      have hfree := (hk _ hresumed).2 rfl
      cases pc' with
      | bulkUpsert input => exact absurd rfl (hfree _ (mem_of_getElem? hj))
      | _ => trivial
    · exact hkept.stored ▸ hpc'

theorem Settling.step (h : Settling seriesId σ) (hk : EditsApart σ k) :
    Settling seriesId (step (service lib seriesId) σ k) := by
  refine ⟨h.read_step hk, ?_⟩
  rcases step_cases (p := service lib seriesId) σ k with
    ⟨q, rfl, hstep⟩ | ⟨i, faults, q, pc, rfl, hi, hr, hstep⟩ | ⟨-, hstep⟩
  · rw [hstep]
    exact h.rows.imp_right (And.imp_right fun ⟨c, hc, hclean⟩ => ⟨c, mem_append_left _ hc, hclean⟩)
  · have hshared : (Coop.step (service lib seriesId) σ (.resume i faults)).shared
        = (resume lib seriesId faults pc σ.shared).1 := by
      rw [hstep]
      rfl
    rw [hshared]
    rcases resume_cases lib faults (h.read.at_resumed hr) with
      ⟨_, series, updated, rfl, hseries, hlt, hupdated, hrows, hclean⟩ | hkept
    · -- the rows of the edited series are old now
      obtain ⟨q', -, hmem⟩ := resumed_call (p := service lib seriesId) hr
      refine .inr ⟨fun series' hseries' row hrow hid => ?_, _, hmem, updated, hupdated, hclean⟩
      cases hupdated.symm.trans hseries'
      rw [hrows] at hrow
      rcases h.rows with heq | ⟨hle, -⟩
      · exact (heq series hseries row hrow hid).trans_le hlt.le
      · exact (hle series hseries row hrow hid).trans hlt.le
    · rcases hkept.rows with hsub | hnow
      · rcases h.rows with heq | ⟨hle, c, hc, series, hseries, hclean⟩
        · exact .inl (heq.subset hkept.stored hsub)
        · rcases mem_step_calls (p := service lib seriesId) hc hclean (.resume i faults) with
            hmem | ⟨faults', hr', -⟩
          · exact .inr ⟨hle.subset hkept.stored hsub, c, hmem, series, hkept.stored ▸ hseries, hclean⟩
          · -- the cleanup has run
            cases hr.symm.trans hr'
            refine .inl fun series' hseries' row hrow hid => ?_
            cases hseries.symm.trans (hkept.stored ▸ hseries')
            rw [resume, cleanStaleVersions, if_neg (by rw [(hk _ hr).1]; decide)] at hrow
            obtain ⟨hmem, hfresh⟩ := mem_filter.mp hrow
            have hold := hle series hseries row hmem hid
            simp only [MaterializedOccurrence.stale, hid, true_and, Bool.not_eq_true',
              decide_eq_false_iff_not] at hfresh
            omega
      · exact .inl hnow
  · rw [hstep]
    exact h.rows

/-- The system after `ks`, calls and commands. -/
abbrev after (lib : RRuleLibrary) (seriesId : String) (db : Database) (ks : List Cmd) : Sys :=
  Coop.run (service lib seriesId) { shared := db } ks

/-- **Once all calls have finished**, cleanups included, every row that is
returned has the latest version, if no edit came between the read and the
transaction of a run and no cleanup failed. -/
theorem getOccurrences_latest (lib : RRuleLibrary) (seriesId : String) (db : Database)
    (hdb : Versions seriesId (· = ·) db) (ks : List Cmd)
    (hks : Along (step (service lib seriesId)) EditsApart { shared := db } ks)
    (hdone : ∀ c ∈ (after lib seriesId db ks).calls, ∃ r, c.task = .done r) (fromMs toMs : Int) :
    ∀ row ∈ getOccurrences seriesId fromMs toMs (after lib seriesId db ks).shared,
      ∀ series ∈ stored seriesId (after lib seriesId db ks).shared,
        row.seriesVersion = series.version := by
  have hend := run_inv_along (I := Settling seriesId) (s := { shared := db })
    (fun _ _ h hk => h.step hk) ⟨forall_mem_nil _, .inl hdb⟩ hks
  intro row hrow series hseries
  have hlisted := (mem_insertionSort _).mp ((destutter_sublist _ _).mem hrow)
  obtain ⟨hmem, hin⟩ := mem_filter.mp hlisted
  rcases hend.rows with hrows | ⟨-, c, hc, _, -, hclean⟩
  · exact hrows series hseries row hmem (of_decide_eq_true hin).1
  · obtain ⟨r, hr⟩ := hdone c hc
    cases hclean.symm.trans hr

/-- A run for two days of the series. -/
def materializeTwoDays : Cmd := .call (.materializeSeries { afterDays 10 with horizonDays := 1 })

/-- One after the other. -/
def editThenRun : List Cmd :=
  [.call (.editSeries dailyText), .resume 0 {}, .resume 0 {}, materializeTwoDays, .resume 1 {},
    .resume 1 {}, .resume 1 {}]

/-- The edit comes between the read of a run and its transaction. -/
def editWithinRun : List Cmd :=
  [materializeTwoDays, .resume 0 {}, .call (.editSeries dailyText), .resume 1 {}, .resume 1 {},
    .resume 0 {}, .resume 0 {}]

/-- Which calls have finished, the version of the series, and of its rows. -/
def seenAfter (ks : List Cmd) : List Bool × List Int × List Int :=
  let σ := after dailyLibrary "s1" { series := [dailySeries] } ks
  (σ.calls.map fun c => c.task.fuel (fun _ => 0) = 0, σ.shared.series.map (·.version),
    (getOccurrences "s1" 0 2000000000000 σ.shared).map (·.seriesVersion))

theorem getOccurrences_latest_editThenRun : seenAfter editThenRun = ([true, true], [2], [2, 2]) ∧
    ∀ row ∈ getOccurrences "s1" 0 2000000000000
        (after dailyLibrary "s1" { series := [dailySeries] } editThenRun).shared,
      ∀ series ∈ stored "s1" (after dailyLibrary "s1" { series := [dailySeries] } editThenRun).shared,
        row.seriesVersion = series.version := by
  have hdone : ∀ c ∈ (after dailyLibrary "s1" { series := [dailySeries] } editThenRun).calls,
      (c.task.fuel fun _ => 0) = 0 := by decide +kernel
  refine ⟨by decide +kernel, getOccurrences_latest _ _ _ (fun _ _ => forall_mem_nil _) _ ?_
    (fun c hc => Coop.Task.fuel_eq_zero.mp (hdone c hc)) _ _⟩
  simp only [editThenRun, Along, EditsApart]
  decide +kernel

theorem editWithinRun_stale : seenAfter editWithinRun = ([true, true], [2], [1, 1]) := by
  decide +kernel

end ChronoPay.OccurrenceSeries
