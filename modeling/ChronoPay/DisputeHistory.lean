import ChronoPay.Disputes
import Mathlib.Data.List.Chain

/-!
# DisputeHistory — the statuses a dispute goes through

The history of a dispute is what its finality chain tells: `open`, then
the status of each link. The last of them is the status it has.

All routes but one test the status in the segment they write it in. An
appeal tests it, waits for the audit log, and then writes two statuses:
every history is a path of `disputeStateTransitions` exactly as long as no
appeal goes on after its dispute has left `adjudicated`
(`histories_legal_iff`).
-/

namespace ChronoPay.Disputes

open Coop JsonText KeyedList List Machine

def Dispute.history (d : Dispute) : List DisputeStatus :=
  .open :: d.finalityChain.map FinalityRecord.status

/-- Every change of status was an edge of the table. -/
def Legal (history : List DisputeStatus) : Prop :=
  history.IsChain fun current target => canTransition current target = true

/-- A dispute under appeal once, a terminal status never left. -/
structure Orderly (history : List DisputeStatus) : Prop where
  once : history.count .appealed ≤ 1
  terminal : ∀ status ∈ history.dropLast, status ≠ .final ∧ status ≠ .closed ∧ status ≠ .timeout

/-- The place of a status on every path. -/
def DisputeStatus.rank : DisputeStatus → Nat
  | .open => 0
  | .evidenced => 1
  | .adjudicated => 2
  | .appealed => 3
  | .seniorReview => 4
  | .final => 5
  | .closed => 5
  | .timeout => 5

variable {current target : DisputeStatus} {history : List DisputeStatus} {d d' : Dispute}

theorem rank_lt_of_edge (h : canTransition current target = true) : current.rank < target.rank := by
  revert h
  cases current <;> cases target <;> decide

/-- A status that is not the last one was left along an edge. -/
theorem Legal.exists_next {status : DisputeStatus} (h : Legal history)
    (hstatus : status ∈ history.dropLast) :
    ∃ target, canTransition status target = true := by
  induction history with
  | nil => cases hstatus
  | cons first history ih =>
    cases history with
    | nil => cases hstatus
    | cons second history =>
      obtain ⟨hedge, hrest⟩ := isChain_cons_cons.mp h
      rcases mem_cons.mp hstatus with rfl | hstatus
      · exact ⟨second, hedge⟩
      · exact ih hrest hstatus

theorem Legal.orderly (h : Legal history) : Orderly history where
  once := by
    have hincreasing : history.Pairwise fun a b => a.rank < b.rank := by
      have hchain : history.IsChain fun a b => a.rank < b.rank := h.imp fun _ _ => rank_lt_of_edge
      exact hchain.pairwise
    have hnodup : history.Nodup := hincreasing.imp fun {a b} hlt heq =>
      Nat.ne_of_lt hlt (congrArg DisputeStatus.rank heq)
    exact nodup_iff_count_le_one.mp hnodup .appealed
  terminal := by
    intro status hstatus
    obtain ⟨target, hedge⟩ := h.exists_next hstatus
    revert hedge
    cases status <;> cases target <;> decide

theorem legal_concat (hlast : history.getLast? = some current) :
    Legal (history ++ [target]) ↔ Legal history ∧ canTransition current target = true := by
  rw [Legal, isChain_append, hlast]
  simp [Legal]

theorem history_advance (d : Dispute) (link : FinalityRecord) :
    (d.advance link).history = d.history ++ [link.status] := by
  simp [Dispute.history, Dispute.advance]

/-- The status is the last one of the history. -/
def Tracked (d : Dispute) : Prop := d.history.getLast? = some d.status

theorem tracked_advance (d : Dispute) (link : FinalityRecord) : Tracked (d.advance link) := by
  rw [Tracked, history_advance, getLast?_concat]
  rfl

theorem Dispute.Fresh.tracked (h : d.Fresh) : Tracked d := by
  rw [Tracked, Dispute.history, h.chain, h.status]
  rfl

theorem legal_advance (h : Tracked d) (link : FinalityRecord) :
    Legal (d.advance link).history ↔ Legal d.history ∧ canTransition d.status link.status = true := by
  rw [history_advance]
  exact legal_concat h

/-- An appeal is legal exactly on an adjudicated dispute. -/
theorem legal_appeal (h : Tracked d) (deps : Deps) (panel : List SeniorArbiter)
    (now : ℤ) (actor : String) :
    Legal (d.appeal deps panel now actor).history ↔ Legal d.history ∧ d.status = .adjudicated := by
  have hedge : canTransition d.status .appealed = true ↔ d.status = .adjudicated := by
    cases d.status <;> decide
  have hhistory : (d.appeal deps panel now actor).history
      = (d.history ++ [.appealed]) ++ [.seniorReview] := by
    simp [Dispute.history, Dispute.appeal, Dispute.advance, appendFinalityLink]
  rw [hhistory, legal_concat getLast?_concat, legal_concat h, hedge]
  exact and_iff_left rfl

/-! ## Objects -/

section

variable {deps : Deps} {e : Env} {s s' : Server} {pc : Pc} {Q : Nat → Dispute → Prop} {ref : Nat}
  {options : ScanOptions} {now : ℤ}

/-- Every object, under its reference. -/
def Server.All (s : Server) (Q : Nat → Dispute → Prop) : Prop :=
  ∀ ref d, s.objects[ref]? = some d → Q ref d

theorem all_write (h : ∀ ref', ref ≠ ref' → ∀ d', s.objects[ref']? = some d' → Q ref' d')
    (hd : Q ref d) : (s.write ref d).All Q := by
  intro ref' d' hget
  rw [Server.write, getElem?_set] at hget
  split at hget
  next heq =>
    subst heq
    split at hget
    · cases hget
      exact hd
    · cases hget
  next hne => exact h ref' hne d' hget

theorem Server.All.write (h : s.All Q) (hd : Q ref d) : (s.write ref d).All Q :=
  all_write (fun ref' _ d' => h ref' d') hd

theorem Server.All.create (h : s.All Q) (hd : Q s.objects.length d)
    (disputes : List (String × Nat)) :
    Server.All { s with objects := s.objects ++ [d], disputes } Q := by
  intro ref' d' hget
  rcases getElem?_concat_some hget with hget | ⟨rfl, rfl⟩
  · exact h ref' d' hget
  · exact hd

/-- What the loop body keeps, the scan keeps. -/
theorem scan_inv {I : Server → Prop} (h : I s) (hround : ∀ s ref d, I s → s.objects[ref]? = some d →
      I (s.write ref (autoResolve deps options now d))) :
    I (scanAndAutoResolve deps options now s) := by
  unfold scanAndAutoResolve
  induction s.disputes.map Prod.snd generalizing s with
  | nil => exact h
  | cons ref refs ih =>
    rw [foldl_cons]
    refine ih ?_
    split
    · exact h
    next d found => exact hround s ref d h found

theorem Server.All.scan (h : s.All Q)
    (hround : ∀ {ref d}, Q ref d → Q ref (autoResolve deps options now d)) :
    (scanAndAutoResolve deps options now s).All Q :=
  scan_inv (I := fun s => s.All Q) h fun _ ref d h found => h.write (hround (h ref d found))

theorem scanTarget_cases {reason : String}
    (h : scanTarget deps options now d = some (target, reason)) :
    target = .timeout ∨ target = .closed := by
  have hite : ∀ {c : Prop} [Decidable c] {text : String} {status : DisputeStatus},
      (if c then some (status, text) else none) = some (target, reason) → target = status := by
    intro c _ text status hite
    split at hite
    · exact (Prod.mk.inj (Option.some.inj hite)).1.symm
    · cases hite
  unfold scanTarget at h
  split at h
  · split at h
    · cases h
    · exact .inl (hite h)
  · split at h
    · cases h
    · exact .inl (hite h)
  · exact .inr (hite h)
  · exact .inr (hite h)
  · exact .inr (hite h)
  · cases h
  · cases h
  · cases h

/-- The scan moves a dispute along an edge to `timeout` or `closed`, or
leaves it alone. -/
theorem autoResolve_cases (deps : Deps) (options : ScanOptions) (now : ℤ) (d : Dispute) :
    autoResolve deps options now d = d ∨
    ∃ target payload window, (target = .timeout ∨ target = .closed) ∧
      canTransition d.status target = true ∧
      autoResolve deps options now d = { d.advance (appendFinalityLink deps d target payload now) with
        autoResolvedAt := some now, autoResolveWindowMs := some window } := by
  unfold autoResolve
  split
  · exact .inl rfl
  · split
    · exact .inl rfl
    next htarget =>
      split
      · exact .inl rfl
      next hallowed => exact .inr ⟨_, _, _, scanTarget_cases htarget, by simpa using hallowed, rfl⟩

def AllTracked (s : Server) : Prop := ∀ d ∈ s.objects, Tracked d

def AllLegal (s : Server) : Prop := ∀ d ∈ s.objects, Legal d.history

/-- The segment is an appeal that goes on with a dispute that has left
`adjudicated`. -/
def Late (s : Server) : Pc → Prop
  | .initiated ref _ _ _ => ∃ d, s.objects[ref]? = some d ∧ d.status ≠ .adjudicated
  | _ => False

/-- The two have gone the same way. -/
structure Dispute.Agrees (d d' : Dispute) : Prop where
  id : d'.id = d.id
  status : d'.status = d.status
  hash : d'.finalityHash = d.finalityHash
  chain : d'.finalityChain = d.finalityChain
  resolvedAt : d'.autoResolvedAt = d.autoResolvedAt

/-- A segment writes no status but with a link, and but for a late appeal
along an edge of the table. -/
theorem Changes.all (h : Changes deps e s pc s') (hs : s.All Q)
    (hfresh : ∀ {ref d}, d.Fresh → Q ref d)
    (hagrees : ∀ {ref d d'}, Q ref d → d.Agrees d' → Q ref d')
    (hadvance : ∀ {ref d} status payload now, Q ref d →
      Late s pc ∨ canTransition d.status status = true →
      Q ref (d.advance (appendFinalityLink deps d status payload now)))
    (hscan : ∀ options, pc = .received (.scan options) →
      (scanAndAutoResolve deps options e.now s).All Q) : s'.All Q := by
  cases h with
  | stay => exact hs
  | create fresh => exact hs.create (hfresh fresh) _
  | @evidence id body ref d found allowed items payload =>
    have hd := hadvance .evidenced payload e.now (hs ref d found) (.inr allowed)
    exact hs.write (hagrees hd ⟨rfl, rfl, rfl, rfl, rfl⟩)
  | @spoil id body ref d found allowed =>
    exact hs.write (hagrees (hs ref d found) ⟨rfl, rfl, rfl, rfl, rfl⟩)
  | @adjudicate id body ref d found allowed payload =>
    have hd := hadvance .adjudicated payload e.now (hs ref d found) (.inr allowed)
    exact hs.write (hagrees hd ⟨rfl, rfl, rfl, rfl, rfl⟩)
  | @appeal ref panel now actor d found =>
    refine hs.write (hadvance .seniorReview _ now (hagrees (hadvance .appealed _ now
      (hs ref d found) ?_) ⟨rfl, rfl, rfl, rfl, rfl⟩) (.inr rfl))
    by_cases hstatus : d.status = .adjudicated
    · rw [hstatus]
      exact .inr rfl
    · exact .inl ⟨d, found, hstatus⟩
  | @decide id body ref d found reviewed votes outcome payload =>
    have hd := hadvance .final payload e.now (hs ref d found) (.inr (by rw [reviewed]; rfl))
    split
    · exact hs.write (hagrees hd ⟨rfl, rfl, rfl, rfl, rfl⟩)
    · exact hs.write (hagrees hd ⟨rfl, rfl, rfl, rfl, rfl⟩)
  | @timeout id ref d found allowed payload =>
    exact hs.write (hadvance .timeout payload e.now (hs ref d found) (.inr allowed))
  | @scan options => exact hscan options rfl

theorem all_iff {P : Dispute → Prop} : s.All (fun _ d => P d) ↔ ∀ d ∈ s.objects, P d := by
  constructor
  · intro h d hd
    obtain ⟨ref, hget⟩ := mem_iff_getElem?.mp hd
    exact h ref d hget
  · exact fun h ref d hget => h d (mem_of_getElem? hget)

theorem Dispute.Agrees.tracked (h : d.Agrees d') (hd : Tracked d) : Tracked d' := by
  rw [Tracked, Dispute.history, h.chain, h.status]
  exact hd

/-- Every segment keeps the status and the history together. -/
theorem Changes.tracked (h : Changes deps e s pc s') (hs : AllTracked s) : AllTracked s' := by
  refine all_iff.mp (h.all (all_iff.mpr hs) Dispute.Fresh.tracked (fun hd heq => heq.tracked hd)
    (fun _ _ _ _ _ => tracked_advance _ _) fun options _ => ?_)
  refine (all_iff.mpr hs).scan fun {ref d} hd => ?_
  rcases autoResolve_cases deps options e.now d with heq | ⟨target, payload, window, -, -, heq⟩
  · rwa [heq]
  · rw [heq]
    exact tracked_advance d _

theorem Changes.legal (h : Changes deps e s pc s') (htracked : AllTracked s) (hs : AllLegal s)
    (hlate : ¬ Late s pc) : AllLegal s' := by
  -- an edge starts from the status the history ends with, so the two facts go together
  have hboth : s.All fun _ d => Tracked d ∧ Legal d.history :=
    all_iff.mpr fun d hd => ⟨htracked d hd, hs d hd⟩
  refine fun d hd => (all_iff.mp (h.all hboth (fun {_ d} fresh => ?_) (fun hd heq => ?_)
    (fun status payload now hd hedge => ?_) fun options _ => ?_) d hd).2
  · rw [Dispute.history, fresh.chain]
    exact ⟨fresh.tracked, isChain_singleton _⟩
  · refine ⟨heq.tracked hd.1, ?_⟩
    rw [Dispute.history, heq.chain]
    exact hd.2
  · exact ⟨tracked_advance _ _, (legal_advance hd.1 _).mpr ⟨hd.2, hedge.resolve_left hlate⟩⟩
  · refine hboth.scan fun {ref d} hd => ?_
    rcases autoResolve_cases deps options e.now d with
      heq | ⟨target, payload, window, -, hedge, heq⟩
    · rwa [heq]
    · rw [heq]
      exact ⟨tracked_advance d _, (legal_advance hd.1 _).mpr ⟨hd.2, hedge⟩⟩

/-- An appeal that was overtaken leaves an illegal history. -/
theorem not_legal_of_late (deps : Deps) (e : Env) (htracked : AllTracked s) (hlate : Late s pc) :
    ¬ AllLegal (resume deps e pc s).1 := by
  cases pc with
  | initiated ref panel now actor =>
    obtain ⟨d, found, hne⟩ := hlate
    have hlt : ref < s.objects.length := (List.getElem?_eq_some_iff.mp found).1
    simp only [resume, initiate, found]
    intro hlegal
    refine hne ((legal_appeal (htracked d (mem_of_getElem? found)) deps panel now actor).mp
      (hlegal _ ?_)).2
    exact mem_of_getElem? (getElem?_set_self hlt)
  | _ => exact hlate.elim

end

/-! ## Runs -/

abbrev State := Sys Request Server Pc Outcome

abbrev Cmd := Coop.Cmd Request Env

/-- An appeal goes on after its dispute has left `adjudicated`. -/
def Overtaken (σ : State) (k : Cmd) : Prop := ∃ e pc, resumed σ k = some (e, pc) ∧ Late σ.shared pc

theorem step_tracked {σ : State} (deps : Deps) (h : AllTracked σ.shared) (k : Cmd) :
    AllTracked (step (routes deps) σ k).shared :=
  shared_step h fun e pc _ => (resume_changes deps e pc σ.shared).tracked h

theorem step_legal_iff {σ : State} (deps : Deps) (htracked : AllTracked σ.shared)
    (hlegal : AllLegal σ.shared) (k : Cmd) :
    AllLegal (step (routes deps) σ k).shared ↔ ¬ Overtaken σ k := by
  constructor
  · rintro hnext ⟨e, pc, hresumed, hlate⟩
    rw [step_shared, hresumed] at hnext
    exact not_legal_of_late deps e htracked hlate hnext
  · intro htimely
    refine shared_step hlegal fun e pc hresumed => ?_
    exact (resume_changes deps e pc σ.shared).legal htracked hlegal
      fun hlate => htimely ⟨e, pc, hresumed, hlate⟩

/-- **The histories of all disputes are paths of the table exactly as long
as no appeal is overtaken.** A path shows one appeal at most and leaves no
terminal status. -/
theorem histories_legal_iff (deps : Deps) (ks : List Cmd) :
    (Always (step (routes deps)) (fun σ => AllLegal σ.shared) { shared := {} } ks ↔
      Along (step (routes deps)) (fun σ k => ¬ Overtaken σ k) { shared := {} } ks) ∧
    ∀ d ∈ (Coop.run (routes deps) { shared := {} } ks).shared.objects,
      d.history.getLast? = some d.status ∧ (Legal d.history → Orderly d.history) := by
  have hopened : AllTracked {} := forall_mem_nil _
  have hnone : AllLegal {} := forall_mem_nil _
  constructor
  · exact always_iff_along_within (I := fun σ : State => AllTracked σ.shared)
      (C := fun _ _ => True) (fun σ k h _ => step_tracked deps h k)
      (fun σ k htracked _ hlegal => step_legal_iff deps htracked hlegal k)
      hopened hnone (along_of_forall (fun _ _ => trivial) _ ks)
  · intro d hd
    have hrun : AllTracked (Coop.run (routes deps) { shared := {} } ks).shared :=
      run_inv (I := fun σ : State => AllTracked σ.shared)
        (fun σ k h => step_tracked deps h k) hopened ks
    exact ⟨hrun d hd, Legal.orderly⟩

/-! Two appeals at once. -/

def sampleDeps : Deps where
  sha256 _ := "0"
  number text := some (text.foldl (fun n c => 10 * n + (c.toNat - 48)) 0 : Nat)
  toNumber _ := none
  numberText _ := ['0']
  toFixed _ _ := "0"
  localeLe a b := a ≤ b

def arbiters : List SeniorArbiter := [⟨"a", "t"⟩, ⟨"b", "t"⟩, ⟨"c", "t"⟩]

def vote (arbiterId decision : String) : Json :=
  literalObject [("arbiterId", .string (units arbiterId)), ("vote", .string (units decision))]

def votes (decision : String) : Option Json :=
  some (literalObject [("votes", .array [vote "a" decision, vote "b" decision, vote "c" decision])])

/-- The second appeal waits for its audit entry while the first one is
carried out and decided. -/
def appealedTwice : List Cmd :=
  let e : Env := ⟨0, "d", arbiters⟩
  [.call (.create none), .resume 0 e, .call (.evidence "d" (some (.object []))), .resume 1 e,
    .call (.adjudicate "d" none), .resume 2 e,
    .call (.appeal "d" none), .resume 3 e, .call (.appeal "d" none), .resume 4 e, .resume 3 e,
    .call (.seniorDecide "d" (votes "UPHOLD")), .resume 5 e, .resume 4 e]

theorem appealedTwice_history :
    (Coop.run (routes sampleDeps) { shared := {} } appealedTwice).shared.objects.map Dispute.history
      = [[.open, .evidenced, .adjudicated, .appealed, .seniorReview, .final, .appealed,
          .seniorReview]] ∧
      canTransition .final .appealed = false := by
  decide +kernel

end ChronoPay.Disputes
