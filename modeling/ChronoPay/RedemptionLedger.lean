import Mathlib.Data.Nat.Pairing
import ChronoPay.Lib.HashChain
import ChronoPay.Lib.IsoDate
import ChronoPay.Lib.TicketQueue

/-!
# RedemptionLedger — serialised appends to the redemption ledger

`InMemoryRedemptionLedger`: a hash chain of redemptions with an index by
redemption id. An insert queues behind the inserts made before it and
then runs from its duplicate check to its push without a suspension, so
the ledger is a client of the ticket queue and its runs are runs of
`insertInTurn`.

The clock is a callback of the caller: it may throw, and the date it
gives may be one `toISOString` throws on. Both happen before the push.
Metadata is stored and never looked at.
-/

namespace ChronoPay

open Function HashChain KeyedList TicketQueue

structure RedemptionEntry (M : Type) where
  id : String
  redemptionId : String
  tokenId : String
  redeemerId : String
  entryHash : String
  prevHash : String
  metadata : Option M
  createdAt : Int
  deriving DecidableEq

structure InsertRedemptionInput (M : Type) where
  redemptionId : String
  tokenId : String
  redeemerId : String
  metadata : Option M := none

structure VerificationResult where
  valid : Bool
  entriesChecked : Nat
  firstBrokenIndex : Option Nat := none
  error : Option String := none
  deriving DecidableEq

inductive RedemptionError where
  | duplicateRedemption (redemptionId : String)
  /-- What the clock callback threw. -/
  | clock (thrown : String)
  /-- The RangeError of `toISOString`. -/
  | invalidTime
  deriving DecidableEq

def RedemptionError.message : RedemptionError → String
  | duplicateRedemption redemptionId => s!"Redemption already exists: {redemptionId}"
  | clock thrown => thrown
  | invalidTime => "Invalid time value"

structure InMemoryRedemptionLedger (M : Type) where
  chain : List (RedemptionEntry M) := []
  byRedemptionId : String → Option (RedemptionEntry M) := fun _ => none

namespace InMemoryRedemptionLedger

variable {M : Type}

def listAll (ledger : InMemoryRedemptionLedger M) : List (RedemptionEntry M) := ledger.chain

def findByRedemptionId (redemptionId : String) (ledger : InMemoryRedemptionLedger M) :
    Option (RedemptionEntry M) :=
  ledger.byRedemptionId redemptionId

end InMemoryRedemptionLedger

namespace RedemptionLedger

variable (sha256 : String → String) {M : Type}

/-- `deriveEntryHash`; `none` is the RangeError of `toISOString`. -/
def deriveEntryHash (redemptionId prevHash : String) (createdAt : Int) : Option String :=
  (IsoDate.toISOString createdAt).map fun iso => sha256 s!"{redemptionId}|{prevHash}|{iso}"

/-- What an insert gets from outside in its turn. -/
structure Env where
  now : Except String Int
  randomUUID : String := ""

/-- The part of `insert` after its `await`. -/
def insertInTurn (env : Env) (input : InsertRedemptionInput M)
    (ledger : InMemoryRedemptionLedger M) :
    InMemoryRedemptionLedger M × Except RedemptionError (RedemptionEntry M) :=
  if (ledger.byRedemptionId input.redemptionId).isSome then
    (ledger, .error (.duplicateRedemption input.redemptionId))
  else
    let prevHash := (ledger.chain.getLast?.map RedemptionEntry.entryHash).getD ""
    match env.now with
    | .error thrown => (ledger, .error (.clock thrown))
    | .ok createdAt =>
      match deriveEntryHash sha256 input.redemptionId prevHash createdAt with
      | none => (ledger, .error .invalidTime)
      | some entryHash =>
        let entry : RedemptionEntry M :=
          { id := env.randomUUID
            redemptionId := input.redemptionId
            tokenId := input.tokenId
            redeemerId := input.redeemerId
            entryHash
            prevHash
            metadata := input.metadata
            createdAt }
        ({ chain := ledger.chain ++ [entry]
           byRedemptionId := update ledger.byRedemptionId entry.redemptionId (some entry) },
          .ok entry)

/-- The ledger behind its `insertQueue`; nothing else writes it. -/
def program : TicketQueue.Program (InMemoryRedemptionLedger M) (InsertRedemptionInput M) Empty Env
    (Except RedemptionError (RedemptionEntry M)) where
  body := insertInTurn sha256
  direct := nofun

/-- What the verifier reads of an entry. -/
def redemptionChain : HashChain.Scheme (RedemptionEntry M) String where
  genesis := ""
  prev := RedemptionEntry.prevHash
  hash := RedemptionEntry.entryHash
  digest entry := deriveEntryHash sha256 entry.redemptionId entry.prevHash entry.createdAt

/-- `verifyChain`; `none` is the RangeError of `toISOString`. -/
def verifyChain (entries : List (RedemptionEntry M)) : Option VerificationResult :=
  match HashChain.walk (redemptionChain sha256) entries with
  | .intact => some { valid := true, entriesChecked := entries.length }
  | .badGenesis genesis => some
      { valid := false, entriesChecked := 1, firstBrokenIndex := some 0
        error := some ("Genesis entry has non-empty prev_hash: \"" ++ genesis.prevHash ++ "\"") }
  | .badHash i entry expected => some
      { valid := false, entriesChecked := i + 1, firstBrokenIndex := some i
        error := some (s!"Entry {i} (redemption_id=" ++ entry.redemptionId ++
          ") has invalid hash. Expected " ++ expected ++ ", got " ++ entry.entryHash) }
  | .badLink i entry before => some
      { valid := false, entriesChecked := i + 1, firstBrokenIndex := some i
        error := some (s!"Entry {i} (redemption_id=" ++ entry.redemptionId ++ ") prev_hash \"" ++
          entry.prevHash ++ "\" does not match predecessor hash \"" ++ before ++ "\"") }
  | .failedAt _ => none

/-! ## What an insert keeps -/

variable {sha256} {env : Env} {input : InsertRedemptionInput M}
  {ledger ledger' : InMemoryRedemptionLedger M}

/-- An insert appends one entry, or throws and adds nothing. -/
theorem insertInTurn_cases (sha256 : String → String) (env : Env)
    (input : InsertRedemptionInput M) (ledger : InMemoryRedemptionLedger M) :
    (∃ err, insertInTurn sha256 env input ledger = (ledger, .error err)) ∨
    ∃ entry : RedemptionEntry M, ledger.byRedemptionId entry.redemptionId = none ∧
      entry.prevHash = (ledger.chain.getLast?.map RedemptionEntry.entryHash).getD "" ∧
      deriveEntryHash sha256 entry.redemptionId entry.prevHash entry.createdAt
        = some entry.entryHash ∧
      insertInTurn sha256 env input ledger =
        ({ chain := ledger.chain ++ [entry]
           byRedemptionId := update ledger.byRedemptionId entry.redemptionId (some entry) },
          .ok entry) := by
  unfold insertInTurn
  cases hdup : ledger.byRedemptionId input.redemptionId with
  | some old => exact .inl ⟨_, rfl⟩
  | none =>
    cases env.now with
    | error thrown => exact .inl ⟨_, rfl⟩
    | ok createdAt =>
      simp only [Option.isSome_none, Bool.false_eq_true, if_false]
      cases hhash : deriveEntryHash sha256 input.redemptionId
          ((ledger.chain.getLast?.map RedemptionEntry.entryHash).getD "") createdAt with
      | none => exact .inl ⟨_, rfl⟩
      | some entryHash =>
        right
        refine ⟨{ id := env.randomUUID, redemptionId := input.redemptionId,
                  tokenId := input.tokenId, redeemerId := input.redeemerId, entryHash,
                  prevHash := (ledger.chain.getLast?.map RedemptionEntry.entryHash).getD "",
                  metadata := input.metadata, createdAt }, hdup, rfl, hhash, rfl⟩

/-- The chain is linked, has no id twice, and the index is about it; it
holds what the inserts so far returned, in their order. -/
structure Kept (sha256 : String → String) (ledger : InMemoryRedemptionLedger M)
    (done : List (InsertRedemptionInput M × Except RedemptionError (RedemptionEntry M))) :
    Prop where
  distinct : (ledger.chain.map RedemptionEntry.redemptionId).Nodup
  indexed : ∀ redemptionId, ledger.byRedemptionId redemptionId
    = KeyedList.get RedemptionEntry.redemptionId redemptionId ledger.chain
  linked : Linked (redemptionChain sha256) "" ledger.chain
  returned : ledger.chain = done.filterMap fun insert => insert.2.toOption

theorem Kept.insertInTurn {done} (h : Kept sha256 ledger done) (env : Env)
    (input : InsertRedemptionInput M) :
    Kept sha256 (insertInTurn sha256 env input ledger).1
      (done ++ [(input, (RedemptionLedger.insertInTurn sha256 env input ledger).2)]) := by
  obtain ⟨err, heq⟩ | ⟨entry, hnew, hprev, hhash, heq⟩ := insertInTurn_cases sha256 env input ledger
  · rw [heq]
    exact ⟨h.distinct, h.indexed, h.linked, by simp [h.returned, Except.toOption]⟩
  · have hfresh : ∀ old ∈ ledger.chain, old.redemptionId ≠ entry.redemptionId := by
      rw [h.indexed] at hnew
      exact get_eq_none.mp hnew
    rw [heq]
    refine ⟨nodup_map_concat h.distinct hfresh, ?_, ?_, ?_⟩
    · intro redemptionId
      simp only [get_append, ← h.indexed, get_cons, get_nil]
      by_cases hid : redemptionId = entry.redemptionId
      · subst hid
        simp [hnew]
      · rw [update_of_ne hid, if_neg (Ne.symm hid), Option.or_none]
    · refine h.linked.concat ?_ hhash
      rw [tip_eq_getLast?]
      exact hprev
    · simp [h.returned, Except.toOption]

theorem kept_empty (sha256 : String → String) :
    Kept sha256 ({} : InMemoryRedemptionLedger M) [] where
  distinct := List.nodup_nil
  indexed _ := rfl
  linked := trivial
  returned := rfl

theorem kept_run (sha256 : String → String)
    (ks : List (TicketQueue.Cmd (InsertRedemptionInput M) Empty Env)) :
    Kept sha256 (TicketQueue.run (program sha256) { shared := {} } ks).shared
      (TicketQueue.history (TicketQueue.run (program sha256)
        { shared := ({} : InMemoryRedemptionLedger M) } ks)) :=
  run_history (I := Kept sha256) (fun env input _ _ h => h.insertInTurn env input)
    (fun a => nomatch a) (kept_empty sha256) ks

/-! ## The ledger under concurrent inserts -/

/-- What can be said of the ledger at any time. -/
structure Sound (sha256 : String → String)
    (σ : TicketQueue.Sys (InMemoryRedemptionLedger M) (InsertRedemptionInput M)
      (Except RedemptionError (RedemptionEntry M))) : Prop where
  distinct : (σ.shared.listAll.map RedemptionEntry.redemptionId).Nodup
  /-- The index finds exactly the entries of the chain. -/
  indexed : ∀ redemptionId, σ.shared.findByRedemptionId redemptionId
    = KeyedList.get RedemptionEntry.redemptionId redemptionId σ.shared.listAll
  verified : verifyChain sha256 σ.shared.listAll
    = some { valid := true, entriesChecked := σ.shared.listAll.length }
  /-- The chain is what the successful inserts returned, in the order of
  the calls: a failed one adds nothing. -/
  returned : σ.shared.listAll = σ.jobs.filterMap fun job => job.result.bind Except.toOption
  /-- An insert has its turn after all that were called before it. -/
  inOrder : ∀ i j, j < i → σ.released i = true → σ.released j = true

theorem sound_run (sha256 : String → String)
    (ks : List (TicketQueue.Cmd (InsertRedemptionInput M) Empty Env)) :
    Sound sha256 (TicketQueue.run (program sha256)
      { shared := ({} : InMemoryRedemptionLedger M) } ks) := by
  have hkept := kept_run sha256 ks
  have hlined := lined_run (p := program sha256)
    ({} : InMemoryRedemptionLedger M) ks
  have hwalk := walk_eq_intact.mpr hkept.linked
  refine ⟨hkept.distinct, hkept.indexed, by simp [verifyChain, InMemoryRedemptionLedger.listAll, hwalk], ?_, ?_⟩
  · rw [InMemoryRedemptionLedger.listAll, hkept.returned, TicketQueue.history,
      List.filterMap_filterMap]
    refine List.filterMap_congr fun job _ => ?_
    cases job.result <;> rfl
  · intro i j hij hi
    rw [hlined.released_iff] at hi ⊢
    exact Nat.lt_trans hij hi

/-- **Exactly once, in order, and everyone's turn comes**: whatever the
interleaving, the ledger is sound; and as long as the scheduler forgets
no call, every insert that was called ends. -/
theorem ledger_sound_and_live (sha256 : String → String) :
    (∀ ks : List (TicketQueue.Cmd (InsertRedemptionInput M) Empty Env),
      Sound sha256 (TicketQueue.run (program sha256) { shared := {} } ks)) ∧
    ∀ sched : Nat → TicketQueue.Cmd (InsertRedemptionInput M) Empty Env,
      Fair sched → ∀ n i,
        i < (TicketQueue.trace (program sha256) { shared := {} } sched n).jobs.length →
        ∃ m, n ≤ m ∧
          (TicketQueue.trace (program sha256) { shared := {} } sched m).released i = true := by
  refine ⟨sound_run sha256, fun sched hfair n i hi => ?_⟩
  exact eventually_ended (lined_empty _) hfair hi

/-- Two inserts of one redemption, then the scheduler walks over all calls. -/
def insertTwice : Nat → TicketQueue.Cmd (InsertRedemptionInput Unit) Empty Env
  | 0 => .call { redemptionId := "r-1", tokenId := "t-1", redeemerId := "alice" }
  | 1 => .call { redemptionId := "r-1", tokenId := "t-1", redeemerId := "bob" }
  | n + 2 => .resume n.unpair.1 { now := .ok 0 }

theorem insertTwice_fair : Fair insertTwice := by
  intro i n
  refine ⟨Nat.pair i n + 2, ?_, { now := .ok 0 }, ?_⟩
  · have := Nat.right_le_pair i n
    omega
  · simp [insertTwice]

/-- The second of them ends too, although it is a duplicate. -/
theorem insertTwice_second_ends : Fair insertTwice ∧
    ∃ m, 2 ≤ m ∧
      (TicketQueue.trace (program id) { shared := {} } insertTwice m).released 1 = true :=
  ⟨insertTwice_fair, (ledger_sound_and_live id).2 insertTwice insertTwice_fair 2 1 (by decide)⟩

end RedemptionLedger

end ChronoPay
