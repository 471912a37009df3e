import Mathlib.Data.Rat.Floor
import ChronoPay.Lib.CoopTotal
import ChronoPay.Lib.KeyedList

/-!
# EpsilonBudget — differential-privacy budgets under concurrent charges

`charge` reads a dataset's entry, adds to the spend it read, checks the
sum against the budget and stores it. Between the read and the write the
call is suspended at `await store.get`, so another charge can be stored
in between; the later write then starts from a spend that is no longer
stored, and the other charge is forgotten.

`Unchanged` says of a write that the stored spend is still the one that
was read. The sum of the resolved charges is the stored spend, and within
the budget, exactly when every write of the run was such a write: a
charge that is forgotten stays forgotten.

Numbers are exact rationals. The default alarm sink only logs; the alarms
are collected in the shared state.
-/

namespace ChronoPay.EpsilonBudget

open Coop KeyedList Machine Option

/-! ## Types -/

inductive BudgetAlarmLevel where
  | warning
  | exhausted
  deriving DecidableEq, Repr

structure BudgetAlarmEvent where
  datasetId : String
  level : BudgetAlarmLevel
  epsilonSpent : ℚ
  epsilonBudget : ℚ
  fractionSpent : ℚ
  timestamp : String
  message : String
  deriving DecidableEq

structure BudgetEntry where
  datasetId : String
  epsilonSpent : ℚ
  epsilonBudget : ℚ
  firstSpendAt : Option String
  lastSpendAt : Option String
  queryCount : Nat
  deriving DecidableEq

structure BudgetSpendRecord where
  datasetId : String
  epsilonCharged : ℚ
  totalEpsilonSpent : ℚ
  epsilonBudget : ℚ
  remainingBudget : ℚ
  alarmFired : Option BudgetAlarmLevel
  timestamp : String
  deriving DecidableEq

/-- A number of the source: `NaN` and the infinities have no value. -/
inductive JsNumber where
  | finite (value : ℚ)
  | notFinite (text : String)
  deriving DecidableEq

inductive ChargeError where
  /-- "epsilonCharged must be a finite positive number, got: …" -/
  | invalid (epsilonCharged : JsNumber)
  /-- `BudgetExhaustedError` -/
  | exhausted (message datasetId : String) (epsilonSpent epsilonBudget : ℚ)
  deriving DecidableEq

/-! ## Texts -/

/-- `x.toFixed(digits)`, for `digits ≥ 1`. -/
def toFixed (digits : Nat) (x : ℚ) : String :=
  let scaled := ⌊|x| * 10 ^ digits + 1 / 2⌋.toNat
  let text := Nat.toDigits 10 scaled
  let padded := List.replicate (digits + 1 - text.length) '0' ++ text
  let whole := padded.length - digits
  (if x < 0 then "-" else "") ++ String.ofList (padded.take whole) ++ "." ++
    String.ofList (padded.drop whole)

example : toFixed 4 (1 / 32) = "0.0313" := by decide +kernel

def exhaustedMessage (datasetId : String) (epsilonSpent epsilonBudget : ℚ) : String :=
  "Epsilon budget exhausted for dataset \"" ++ datasetId ++ "\": spent=" ++
    toFixed 4 epsilonSpent ++ ", budget=" ++ toFixed 4 epsilonBudget

def buildAlarmEvent (datasetId : String) (level : BudgetAlarmLevel)
    (epsilonSpent epsilonBudget : ℚ) (timestamp : String) : BudgetAlarmEvent :=
  let fractionSpent := epsilonSpent / epsilonBudget
  let used := "for dataset \"" ++ datasetId ++ "\" — " ++ toFixed 1 (fractionSpent * 100) ++
    "% used (" ++ toFixed 4 epsilonSpent ++ " / " ++ toFixed 4 epsilonBudget ++ ")."
  { datasetId, level, epsilonSpent, epsilonBudget, fractionSpent, timestamp
    message := match level with
      | .exhausted => "[DP ALARM] Epsilon budget EXHAUSTED " ++ used ++
        " Further queries are blocked until budget is reset."
      | .warning => "[DP ALARM] Epsilon budget WARNING " ++ used }

/-! ## The tracker -/

structure Tracker where
  budgetOverrides : List (String × ℚ) := []
  /-- `process.env` -/
  env : String → Option String := fun _ => none
  toUpperCase : String → String := String.toUpper
  /-- `Number(text)`, where that is finite. -/
  parseNumber : String → Option ℚ := fun _ => none

def defaultEpsilonBudget : ℚ := 10

/-- `text.replace(/[^A-Z0-9]/g, "_")`, which replaces code units. -/
def replaceOthers (text : String) : String :=
  String.ofList (text.toList.flatMap fun c =>
    if c.isUpper || c.isDigit then [c]
    else if c.toNat < 0x10000 then ['_']
    else ['_', '_'])

def Tracker.getBudgetFor (t : Tracker) (datasetId : String) : ℚ :=
  match t.budgetOverrides.lookup datasetId with
  | some budget => budget
  | none =>
    let envKey := "CHRONOPAY_DP_EPSILON_BUDGET_" ++ replaceOthers (t.toUpperCase datasetId)
    match (t.env envKey).bind t.parseNumber with
    | some parsed => if 0 < parsed then parsed else defaultEpsilonBudget
    | none => defaultEpsilonBudget

/-- The in-memory store with the alarms that were fired. -/
structure Store where
  data : List (String × BudgetEntry) := []
  alarms : List BudgetAlarmEvent := []

namespace Store

def get (s : Store) (datasetId : String) : Option BudgetEntry :=
  (KeyedList.get Prod.fst datasetId s.data).map Prod.snd

/-- `Map.set` -/
def set (s : Store) (datasetId : String) (entry : BudgetEntry) : Store :=
  match s.get datasetId with
  | some _ =>
    { s with data := KeyedList.modify Prod.fst datasetId (fun row => (row.1, entry)) s.data }
  | none => { s with data := s.data ++ [(datasetId, entry)] }

end Store

structure Request where
  datasetId : String
  epsilonCharged : JsNumber

inductive Pc where
  | start (request : Request)
  /-- At `await store.get`, with what it found. -/
  | loaded (datasetId : String) (epsilonCharged budget : ℚ) (now : String)
      (found : Option BudgetEntry)
  /-- At `await store.set`. -/
  | stored (datasetId : String) (epsilonCharged budget newSpent : ℚ) (now : String)

abbrev Outcome := Except ChargeError BudgetSpendRecord

/-- The entry a charge starts from. -/
def entryFor (datasetId : String) (budget : ℚ) (found : Option BudgetEntry) : BudgetEntry :=
  found.getD
    { datasetId, epsilonSpent := 0, epsilonBudget := budget, firstSpendAt := none,
      lastSpendAt := none, queryCount := 0 }

def alarmLevel (fraction : ℚ) : Option BudgetAlarmLevel :=
  if 1 ≤ fraction then some .exhausted
  else if 4 / 5 ≤ fraction then some .warning
  else none

/-- `charge` from one `await` to the next; `clock` is the text of the
current time. -/
def resume (t : Tracker) (clock : String) : Pc → Store → Store × Coop.Task Pc Outcome
  | .start request, s =>
    match request.epsilonCharged with
    | .notFinite _ => (s, .done (.error (.invalid request.epsilonCharged)))
    | .finite epsilonCharged =>
      if epsilonCharged ≤ 0 then (s, .done (.error (.invalid request.epsilonCharged)))
      else
        (s, .waiting (.loaded request.datasetId epsilonCharged
          (t.getBudgetFor request.datasetId) clock (s.get request.datasetId)))
  | .loaded datasetId epsilonCharged budget now found, s =>
    let entry := entryFor datasetId budget found
    let newSpent := entry.epsilonSpent + epsilonCharged
    if newSpent > budget then
      (s, .done (.error (.exhausted (exhaustedMessage datasetId entry.epsilonSpent budget)
        datasetId entry.epsilonSpent budget)))
    else
      (s.set datasetId
        { entry with
          epsilonSpent := newSpent
          epsilonBudget := budget
          firstSpendAt := some (entry.firstSpendAt.getD now)
          lastSpendAt := some now
          queryCount := entry.queryCount + 1 },
        .waiting (.stored datasetId epsilonCharged budget newSpent now))
  | .stored datasetId epsilonCharged budget newSpent now, s =>
    let alarmFired := alarmLevel (newSpent / budget)
    ({ s with alarms := s.alarms ++ (alarmFired.map fun level =>
        buildAlarmEvent datasetId level newSpent budget now).toList },
      .done (.ok
        { datasetId
          epsilonCharged
          totalEpsilonSpent := newSpent
          epsilonBudget := budget
          remainingBudget := budget - newSpent
          alarmFired
          timestamp := now }))

def service (t : Tracker) : Program Request String Store Pc Outcome where
  start := .start
  resume := resume t

abbrev State := Sys Request Store Pc Outcome

abbrev Cmd := Coop.Cmd Request String

/-- A tracker that has charged nothing yet. -/
def opened : State := { shared := {} }

/-! ## What is stored and what was charged -/

variable {t : Tracker} {datasetId : String} {s : Store} {σ : State} {k : Cmd}

def spentIn (found : Option BudgetEntry) : ℚ := (found.map BudgetEntry.epsilonSpent).getD 0

/-- The stored `epsilonSpent`. -/
def Store.spent (s : Store) (datasetId : String) : ℚ := spentIn (s.get datasetId)

/-- What a call that resolved has charged. -/
def resolved (datasetId : String) : Coop.Task Pc Outcome → ℚ
  | .done (.ok record) => if record.datasetId = datasetId then record.epsilonCharged else 0
  | _ => 0

/-- What a call has stored, whether it has resolved yet or not. -/
def charged (datasetId : String) : Coop.Task Pc Outcome → ℚ
  | .waiting (.stored id epsilonCharged _ _ _) => if id = datasetId then epsilonCharged else 0
  | task => resolved datasetId task

/-- The spend that was read and the charge, where the segment stores a
charge on the dataset. -/
def write (datasetId : String) : Pc → Option (ℚ × ℚ)
  | .loaded id epsilonCharged budget _ found =>
    if id = datasetId ∧ spentIn found + epsilonCharged ≤ budget then
      some (spentIn found, epsilonCharged)
    else none
  | _ => none

@[simp] theorem spentIn_some (entry : BudgetEntry) : spentIn (some entry) = entry.epsilonSpent :=
  rfl

theorem Store.get_set (s : Store) (id : String) (entry : BudgetEntry) (datasetId : String) :
    (s.set id entry).get datasetId = if id = datasetId then some entry else s.get datasetId := by
  unfold Store.set
  split
  next old hold =>
    obtain ⟨row, hrow, -⟩ := map_eq_some_iff.mp hold
    dsimp only [Store.get]
    rw [get_modify (by exact fun _ => rfl)]
    by_cases hid : id = datasetId
    · subst hid
      simp [hrow]
    · simp [hid, Ne.symm hid]
  next hnone =>
    have hrow := map_eq_none_iff.mp hnone
    dsimp only [Store.get]
    rw [get_append]
    by_cases hid : id = datasetId
    · subst hid
      simp [hrow, get_cons]
    · simp [get_cons, hid]

theorem entryFor_spent (datasetId : String) (budget : ℚ) (found : Option BudgetEntry) :
    (entryFor datasetId budget found).epsilonSpent = spentIn found := by
  cases found <;> rfl

/-- **What a segment does** to the stored spend and to what its own call
has charged. -/
theorem resume_spec (t : Tracker) (clock : String) (pc : Pc) (s : Store) (datasetId : String) :
    ((resume t clock pc s).1.spent datasetId = match write datasetId pc with
      | some (read, epsilonCharged) => read + epsilonCharged
      | none => s.spent datasetId) ∧
    charged datasetId (resume t clock pc s).2 - charged datasetId (.waiting pc)
      = match write datasetId pc with
        | some (_, epsilonCharged) => epsilonCharged
        | none => 0 := by
  cases pc with
  | start request =>
    simp only [resume, write]
    split
    · simp [charged, resolved]
    · split <;> simp [charged, resolved]
  | loaded id epsilonCharged budget now found =>
    simp only [resume, entryFor_spent, write]
    by_cases hfits : spentIn found + epsilonCharged ≤ budget
    · rw [if_neg (not_lt.mpr hfits)]
      by_cases hid : id = datasetId
      · subst hid
        simp [hfits, Store.spent, Store.get_set, charged, resolved]
      · simp [hid, Store.spent, Store.get_set, charged, resolved]
    · rw [if_pos (not_le.mp hfits)]
      simp [hfits, charged, resolved]
  | stored id epsilonCharged budget newSpent now =>
    simp [resume, write, charged, resolved, Store.spent, Store.get]

/-! ## Steps -/

/-- All that was stored on the dataset. -/
def chargedTotal (datasetId : String) (σ : State) : ℚ := total (charged datasetId) σ

/-- What a command stores on the dataset, with the spend it was read from. -/
def stores (datasetId : String) (σ : State) (k : Cmd) : Option (ℚ × ℚ) :=
  (resumed σ k).bind fun segment => write datasetId segment.2

theorem step_spent (t : Tracker) (datasetId : String) (σ : State) (k : Cmd) :
    (step (service t) σ k).shared.spent datasetId = match stores datasetId σ k with
      | some (read, epsilonCharged) => read + epsilonCharged
      | none => σ.shared.spent datasetId := by
  rw [step_shared, stores]
  cases resumed σ k with
  | none => rfl
  | some segment => exact (resume_spec t segment.1 segment.2 σ.shared datasetId).1

theorem step_chargedTotal (t : Tracker) (datasetId : String) (σ : State) (k : Cmd) :
    chargedTotal datasetId (step (service t) σ k)
      = chargedTotal datasetId σ + match stores datasetId σ k with
        | some (_, epsilonCharged) => epsilonCharged
        | none => 0 := by
  rw [chargedTotal, total_step (fun _ => rfl), chargedTotal, stores]
  cases resumed σ k with
  | none => rfl
  | some segment => exact congrArg _ (resume_spec t segment.1 segment.2 σ.shared datasetId).2

/-- A suspended charge is positive and is checked against the budget of
its dataset. -/
def Pc.Checked (t : Tracker) : Pc → Prop
  | .start _ => True
  | .loaded datasetId epsilonCharged budget _ _ =>
    0 < epsilonCharged ∧ budget = t.getBudgetFor datasetId
  | .stored .. => True

/-- What a suspended charge has read of the dataset's spend. -/
def Pc.Reads (datasetId : String) (P : ℚ → Prop) : Pc → Prop
  | .loaded id _ _ _ found => id = datasetId → P (spentIn found)
  | _ => True

/-- A call is suspended with what it reads now, or after it has stored. -/
theorem resume_eq_waiting {clock : String} {pc pc' : Pc}
    (h : (resume t clock pc s).2 = .waiting pc') :
    (∃ datasetId epsilonCharged, 0 < epsilonCharged ∧
      pc' = .loaded datasetId epsilonCharged (t.getBudgetFor datasetId) clock (s.get datasetId)) ∨
    ∃ datasetId epsilonCharged budget newSpent now,
      pc' = .stored datasetId epsilonCharged budget newSpent now := by
  cases pc with
  | start request =>
    simp only [resume] at h
    split at h
    · cases h
    · split at h
      · cases h
      next hpos => exact .inl ⟨_, _, not_le.mp hpos, (Coop.Task.waiting.inj h).symm⟩
  | loaded datasetId epsilonCharged budget now found =>
    simp only [resume] at h
    split at h
    · cases h
    · exact .inr ⟨_, _, _, _, _, (Coop.Task.waiting.inj h).symm⟩
  | stored => cases h

theorem checked_step (h : Held (fun _ => Pc.Checked t) σ) :
    Held (fun _ => Pc.Checked t) (step (service t) σ k) := by
  refine h.step (fun _ => trivial) ?_ (fun _ _ _ _ _ => id)
  intro clock pc pc' _ _ hnext
  rcases resume_eq_waiting hnext with ⟨_, _, hpos, rfl⟩ | ⟨_, _, _, _, _, rfl⟩
  · exact ⟨hpos, rfl⟩
  · trivial

theorem reads_step {P : ℚ → Prop} (h : Held (fun _ => Pc.Reads datasetId P) σ)
    (hspent : P (σ.shared.spent datasetId)) :
    Held (fun _ => Pc.Reads datasetId P) (step (service t) σ k) := by
  refine h.step (fun _ => trivial) ?_ (fun _ _ _ _ _ => id)
  intro clock pc pc' _ _ hnext
  rcases resume_eq_waiting hnext with ⟨_, _, -, rfl⟩ | ⟨_, _, _, _, _, rfl⟩
  · rintro rfl
    exact hspent
  · trivial

theorem reads_mono {P P' : ℚ → Prop} (hP : ∀ r, P r → P' r)
    (h : Held (fun _ => Pc.Reads datasetId P) σ) :
    Held (fun _ => Pc.Reads datasetId P') σ := by
  intro c hc pc hpc
  have hreads := h c hc pc hpc
  cases pc with
  | loaded id epsilonCharged budget now found => exact fun hid => hP _ (hreads hid)
  | start | stored => trivial

theorem stores_spec {read epsilonCharged : ℚ}
    (hk : stores datasetId σ k = some (read, epsilonCharged))
    (h : Held (fun _ => Pc.Checked t) σ) :
    0 < epsilonCharged ∧ read + epsilonCharged ≤ t.getBudgetFor datasetId ∧
      ∀ P : ℚ → Prop, Held (fun _ => Pc.Reads datasetId P) σ → P read := by
  obtain ⟨⟨clock, pc⟩, hresumed, hwrite⟩ := bind_eq_some_iff.mp hk
  have hchecked := h.at_resumed hresumed
  cases pc with
  | loaded id epsilon budget now found =>
    simp only [write] at hwrite
    split at hwrite
    next hcond =>
      obtain ⟨rfl, hfits⟩ := hcond
      cases hwrite
      obtain ⟨hpos, rfl⟩ := hchecked
      exact ⟨hpos, hfits, fun P hreads => hreads.at_resumed hresumed rfl⟩
    · cases hwrite
  | start | stored => cases hwrite

/-! ## Runs -/

/-- Nothing is read or stored beyond what was charged. -/
structure Sound (t : Tracker) (datasetId : String) (σ : State) : Prop where
  checked : Held (fun _ => Pc.Checked t) σ
  spent : 0 ≤ σ.shared.spent datasetId ∧ σ.shared.spent datasetId ≤ chargedTotal datasetId σ
  reads : Held (fun _ => Pc.Reads datasetId fun r => 0 ≤ r ∧ r ≤ chargedTotal datasetId σ) σ

/-- A charge was forgotten, and no suspended charge remembers it. -/
structure Forgotten (datasetId : String) (σ : State) : Prop where
  spent : σ.shared.spent datasetId < chargedTotal datasetId σ
  reads : Held (fun _ => Pc.Reads datasetId (· < chargedTotal datasetId σ)) σ

theorem Sound.step (h : Sound t datasetId σ) : Sound t datasetId (step (service t) σ k) := by
  have hchecked := checked_step (k := k) h.checked
  have hspent := step_spent t datasetId σ k
  have htotal := step_chargedTotal t datasetId σ k
  cases hstores : stores datasetId σ k with
  | none =>
    rw [hstores] at hspent htotal
    rw [add_zero] at htotal
    refine ⟨hchecked, ?_, ?_⟩
    · rw [hspent, htotal]
      exact h.spent
    · rw [htotal]
      exact reads_step h.reads h.spent
  | some stored =>
    rw [hstores] at hspent htotal
    obtain ⟨hpos, -, hread⟩ := stores_spec hstores h.checked
    obtain ⟨hnonneg, hle⟩ := hread _ h.reads
    refine ⟨hchecked, ?_, ?_⟩
    · rw [hspent, htotal]
      constructor <;> linarith
    · rw [htotal]
      refine reads_step (reads_mono (fun r hr => ⟨hr.1, ?_⟩) h.reads) ⟨h.spent.1, ?_⟩
      · linarith [hr.2]
      · linarith [h.spent.2]

/-- A write that starts below what was charged forgets a charge. -/
theorem forgotten_of_stores (h : Sound t datasetId σ) {read epsilonCharged : ℚ}
    (hk : stores datasetId σ k = some (read, epsilonCharged))
    (hlt : read < chargedTotal datasetId σ) :
    Forgotten datasetId (step (service t) σ k) := by
  have hspent := step_spent t datasetId σ k
  have htotal := step_chargedTotal t datasetId σ k
  rw [hk] at hspent htotal
  obtain ⟨hpos, -, -⟩ := stores_spec hk h.checked
  refine ⟨?_, ?_⟩
  · rw [hspent, htotal]
    linarith
  · rw [htotal]
    refine reads_step (reads_mono (fun r hr => ?_) h.reads) ?_
    · linarith [hr.2]
    · linarith [h.spent.2]

/-- What is forgotten stays forgotten. -/
theorem Forgotten.step (h : Sound t datasetId σ) (hforgotten : Forgotten datasetId σ) :
    Forgotten datasetId (step (service t) σ k) := by
  cases hstores : stores datasetId σ k with
  | some stored =>
    have hread := (stores_spec hstores h.checked).2.2 _ hforgotten.reads
    exact forgotten_of_stores h hstores hread
  | none =>
    have hspent := step_spent t datasetId σ k
    have htotal := step_chargedTotal t datasetId σ k
    rw [hstores] at hspent htotal
    rw [add_zero] at htotal
    refine ⟨?_, ?_⟩
    · rw [hspent, htotal]
      exact hforgotten.spent
    · rw [htotal]
      exact reads_step hforgotten.reads hforgotten.spent

/-- A charge is stored on the spend it was read from. -/
def Unchanged (datasetId : String) (σ : State) (k : Cmd) : Prop :=
  ∀ stored ∈ stores datasetId σ k, stored.1 = σ.shared.spent datasetId

theorem opened_sound : Sound t datasetId opened where
  checked := List.forall_mem_nil _
  spent := ⟨le_refl _, le_refl _⟩
  reads := List.forall_mem_nil _

/-- **The stored spend is never too high**: whatever is lost, it is above
neither what was charged nor the budget. -/
theorem spent_within (t : Tracker) (datasetId : String) (ks : List Cmd) :
    Always (step (service t)) (fun σ => 0 ≤ σ.shared.spent datasetId ∧
      σ.shared.spent datasetId ≤ chargedTotal datasetId σ ∧
      σ.shared.spent datasetId ≤ max 0 (t.getBudgetFor datasetId)) opened ks := by
  refine (always_of_inv (I := fun σ => Sound t datasetId σ ∧
    σ.shared.spent datasetId ≤ max 0 (t.getBudgetFor datasetId)) (fun σ k h => ⟨h.1.step, ?_⟩)
    ⟨opened_sound, le_max_left _ _⟩ ks).mono fun σ h => ⟨h.1.spent.1, h.1.spent.2, h.2⟩
  rw [step_spent]
  cases hstores : stores datasetId σ k with
  | none => exact h.2
  | some stored => exact le_max_of_le_right (stores_spec hstores h.1.checked).2.1

/-- A write on the spend that is stored keeps the two sums equal. -/
theorem step_intact (hintact : σ.shared.spent datasetId = chargedTotal datasetId σ)
    (hk : Unchanged datasetId σ k) :
    (step (service t) σ k).shared.spent datasetId
      = chargedTotal datasetId (step (service t) σ k) := by
  rw [step_spent, step_chargedTotal]
  cases hstores : stores datasetId σ k with
  | none => rw [add_zero, hintact]
  | some stored =>
    have hread := hk stored hstores
    dsimp only
    rw [hread, hintact]

/-- A write on another spend forgets a charge. -/
theorem forgotten_of_changed (h : Sound t datasetId σ)
    (hstate : σ.shared.spent datasetId = chargedTotal datasetId σ ∨ Forgotten datasetId σ)
    (hk : ¬ Unchanged datasetId σ k) : Forgotten datasetId (step (service t) σ k) := by
  unfold Unchanged at hk
  push Not at hk
  obtain ⟨⟨read, epsilonCharged⟩, hstores, hne⟩ := hk
  have hread := (stores_spec hstores h.checked).2.2
  refine forgotten_of_stores h hstores ?_
  rcases hstate with hintact | hforgotten
  · exact lt_of_le_of_ne (hread _ h.reads).2 (hintact ▸ hne)
  · exact hread _ hforgotten.reads

/-- The sums are equal at the end of a run exactly if every write was made
on the spend it was read from. -/
theorem intact_iff_along (t : Tracker) (datasetId : String) (ks : List Cmd) :
    (Coop.run (service t) opened ks).shared.spent datasetId
        = chargedTotal datasetId (Coop.run (service t) opened ks) ↔
      Along (step (service t)) (Unchanged datasetId) opened ks := by
  constructor
  · intro hend
    refine along_of_undamaged (B := Forgotten datasetId)
      (I := fun σ => Sound t datasetId σ ∧
        (σ.shared.spent datasetId = chargedTotal datasetId σ ∨ Forgotten datasetId σ))
      ?_ ?_ (fun σ k h => Forgotten.step h.1) ⟨opened_sound, .inl rfl⟩
      fun hforgotten => hforgotten.spent.ne hend
    · rintro σ k ⟨hsound, hintact | hforgotten⟩
      · refine ⟨hsound.step, ?_⟩
        by_cases hk : Unchanged datasetId σ k
        · exact .inl (step_intact hintact hk)
        · exact .inr (forgotten_of_changed hsound (.inl hintact) hk)
      · exact ⟨hsound.step, .inr (hforgotten.step hsound)⟩
    · exact fun σ k h hk => forgotten_of_changed h.1 h.2 hk
  · intro halong
    exact (run_inv_along
      (I := fun σ => Sound t datasetId σ ∧ σ.shared.spent datasetId = chargedTotal datasetId σ)
      (fun σ k h hk => ⟨h.1.step, step_intact h.2 hk⟩) ⟨opened_sound, rfl⟩ halong).2

/-- Once all calls have returned, the charges of those that resolved add
up to the stored spend and stay within the budget exactly if the budget
is not negative and every write was made on the spend it was read from. -/
theorem resolved_charges_iff (t : Tracker) (datasetId : String) (ks : List Cmd)
    (hdone : ∀ c ∈ (Coop.run (service t) opened ks).calls, ∃ r, c.task = .done r) :
    (total (resolved datasetId) (Coop.run (service t) opened ks)
          ≤ t.getBudgetFor datasetId ∧
        total (resolved datasetId) (Coop.run (service t) opened ks)
          = (Coop.run (service t) opened ks).shared.spent datasetId) ↔
      0 ≤ t.getBudgetFor datasetId ∧ Along (step (service t)) (Unchanged datasetId) opened ks := by
  have hresolved : total (resolved datasetId) (Coop.run (service t) opened ks)
      = chargedTotal datasetId (Coop.run (service t) opened ks) := by
    refine congrArg List.sum (List.map_congr_left fun c hc => ?_)
    obtain ⟨r, hr⟩ := hdone c hc
    rw [hr]
    rfl
  have hsound : Sound t datasetId (Coop.run (service t) opened ks) :=
    run_inv (fun _ _ h => h.step) opened_sound ks
  rw [hresolved, ← intact_iff_along, eq_comm]
  constructor
  · rintro ⟨hle, hintact⟩
    exact ⟨(hsound.spent.1.trans hsound.spent.2).trans hle, hintact⟩
  · rintro ⟨hbudget, hintact⟩
    -- whatever is lost, what is stored is within the budget
    have hwithin : (Coop.run (service t) opened ks).shared.spent datasetId
        ≤ t.getBudgetFor datasetId := by
      refine (run_inv (I := fun σ => Sound t datasetId σ ∧
        σ.shared.spent datasetId ≤ t.getBudgetFor datasetId) (fun σ k h => ⟨h.1.step, ?_⟩)
        ⟨opened_sound, hbudget⟩ ks).2
      rw [step_spent]
      cases hstores : stores datasetId σ k with
      | none => exact h.2
      | some stored => exact (stores_spec hstores h.1.checked).2.1
    exact ⟨hintact ▸ hwithin, hintact⟩

/-- A charge of six, of a budget of ten. -/
def chargeSix : Cmd := .call { datasetId := "audit_events", epsilonCharged := .finite 6 }

/-- One after the other: the second is refused. -/
def sixThenSix : List Cmd :=
  [chargeSix, .resume 0 "t0", .resume 0 "t0", .resume 0 "t0",
    chargeSix, .resume 1 "t1", .resume 1 "t1"]

theorem resolved_charges_sixThenSix :
    total (resolved "audit_events") (Coop.run (service {}) opened sixThenSix)
        ≤ Tracker.getBudgetFor {} "audit_events" ∧
      total (resolved "audit_events") (Coop.run (service {}) opened sixThenSix)
        = (Coop.run (service {}) opened sixThenSix).shared.spent "audit_events" := by
  have hdone : ∀ c ∈ (Coop.run (service {}) opened sixThenSix).calls,
      (c.task.fuel fun _ => 0) = 0 := by decide +kernel
  refine (resolved_charges_iff {} "audit_events" sixThenSix
    fun c hc => Coop.Task.fuel_eq_zero.mp (hdone c hc)).mpr ⟨by decide +kernel, ?_⟩
  simp only [sixThenSix, Along, Unchanged]
  decide +kernel

/-- Both read before either stores. -/
def sixAndSix : List Cmd :=
  [chargeSix, chargeSix, .resume 0 "t0", .resume 1 "t0", .resume 0 "t0", .resume 1 "t0",
    .resume 0 "t0", .resume 1 "t0"]

theorem sixAndSix_exceeds :
    (∀ c ∈ (Coop.run (service {}) opened sixAndSix).calls, (c.task.fuel fun _ => 0) = 0) ∧
      total (resolved "audit_events") (Coop.run (service {}) opened sixAndSix) = 12 ∧
      (Coop.run (service {}) opened sixAndSix).shared.spent "audit_events" = 6 ∧
      Tracker.getBudgetFor {} "audit_events" = 10 := by
  decide +kernel

end ChronoPay.EpsilonBudget
