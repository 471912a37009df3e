import ChronoPay.DisputeLedgers
import ChronoPay.Lib.HashChain

/-!
# DisputeFinality — the finality chains, and the way back from a scan

`reverseAutoResolve` reads the status it goes back to off the chain: it
is that of the link before the last one. A scan leaves a dispute without
links alone and nothing but a reversal touches a dispute it has resolved,
so for requests, scans and reversals one after another that is the status
the scan found (`finality_of_operations`).
-/

namespace ChronoPay.Disputes

open Coop HashChain JsonText List Machine Option

/-! ## Reversals -/

structure ReversalError where
  code : String
  message : String
  deriving DecidableEq, Repr

/-- `priorStatus`, from the chain. -/
def Dispute.priorStatus (d : Dispute) : DisputeStatus :=
  match d.finalityChain.reverse with
  | [] => .open
  | [link] => link.status
  | _ :: link :: _ => link.status

/-- What a reversal makes of a dispute that was resolved at `resolvedAt`. -/
def Dispute.reopen (deps : Deps) (now resolvedAt : ℤ) (d : Dispute) : Dispute :=
  let reversalLink := appendFinalityLink deps d d.priorStatus (literalObject [
    ("autoResolveReversed", .bool true),
    ("reversedAt", .number (deps.numberText now)),
    ("previousAutoResolvedAt", .number (deps.numberText resolvedAt))]) now
  { d.advance reversalLink with autoResolvedAt := none, autoResolveWindowMs := none }

def reverseAutoResolve (deps : Deps) (disputeId : String) (now : ℤ) (s : Server) :
    Except ReversalError Server :=
  match s.find disputeId with
  | none => .error ⟨"DISPUTE_NOT_FOUND", s!"Dispute {disputeId} not found"⟩
  | some (ref, d) =>
    let resolvedAt := d.autoResolvedAt.getD 0
    let windowMs := d.autoResolveWindowMs.getD dayMs
    if resolvedAt = 0 then .error ⟨"NOT_AUTO_RESOLVED", "Dispute was not auto-resolved"⟩
    else if windowMs < ((now - resolvedAt : ℤ) : ℚ) then
      .error ⟨"REVERSAL_WINDOW_EXPIRED",
        s!"Reversal window of {deps.toFixed (windowMs / hourMs) 0}h has expired"⟩
    else if d.status ≠ .timeout ∧ d.status ≠ .closed then
      .error ⟨"INVALID_STATE", s!"Cannot reverse auto-resolution from state {d.status.text}"⟩
    else .ok (s.write ref (d.reopen deps now resolvedAt))

variable {deps : Deps} {before : Option DisputeStatus} {d d' : Dispute} {link : FinalityRecord}
  {now : ℤ} {options : ScanOptions} {s s' : Server}

theorem reverseAutoResolve_eq_ok {disputeId : String}
    (h : reverseAutoResolve deps disputeId now s = .ok s') :
    ∃ ref d, s.find disputeId = some (ref, d) ∧ d.autoResolvedAt.getD 0 ≠ 0 ∧
      s' = s.write ref (d.reopen deps now (d.autoResolvedAt.getD 0)) := by
  unfold reverseAutoResolve at h
  split at h
  · cases h
  next ref d hfind =>
    simp only at h
    split_ifs at h with hnever
    exact ⟨ref, d, hfind, hnever, (Except.ok.inj h).symm⟩

/-! ## Runs -/

inductive Operation where
  | request (request : Request) (e : Env)
  | reverse (disputeId : String) (now : ℤ)

def perform (deps : Deps) (s : Server) : Operation → Server
  | .request request e => serve deps s (request, e)
  | .reverse disputeId now =>
    match reverseAutoResolve deps disputeId now s with
    | .ok s' => s'
    | .error _ => s

def Server.statusOf (s : Server) (ref : Nat) : Option DisputeStatus :=
  (s.objects[ref]?).map Dispute.status

/-- A server, and the status each object had right before its last
auto-resolution. -/
structure Watched where
  server : Server := {}
  before : Nat → Option DisputeStatus := fun _ => none

def watch (deps : Deps) (w : Watched) (op : Operation) : Watched where
  server := perform deps w.server op
  before ref :=
    match op with
    | .request (.scan _) _ =>
      if (perform deps w.server op).statusOf ref = w.server.statusOf ref then w.before ref
      else w.server.statusOf ref
    | _ => w.before ref

/-! ## Chains -/

/-- A link's hash is that of what the link stores. -/
def finalityScheme (deps : Deps) (id : String) : Scheme FinalityRecord (Option String) where
  genesis := none
  prev := FinalityRecord.prevHash
  hash link := some link.hash
  digest link := some (some (deps.sha256 ("|".intercalate
    [link.prevHash.getD finalityGenesisHash, id, link.status.text,
      String.ofList (print (RequestHash.stableStringify link.payload)), toString link.atMs])))

def Chained (deps : Deps) (d : Dispute) : Prop :=
  Linked (finalityScheme deps d.id) none d.finalityChain ∧
    d.finalityHash = tip (finalityScheme deps d.id) none d.finalityChain ∧ Tracked d

/-- A dispute that a scan has resolved stands as the scan left it. -/
structure Kept (deps : Deps) (before : Option DisputeStatus) (d : Dispute) : Prop where
  chained : Chained deps d
  resolved : d.autoResolvedAt.getD 0 ≠ 0 →
    (d.status = .timeout ∨ d.status = .closed) ∧ before = some d.priorStatus

theorem Chained.advance (h : Chained deps d) (status : DisputeStatus) (payload : Json) (now : ℤ) :
    Chained deps (d.advance (appendFinalityLink deps d status payload now)) := by
  refine ⟨h.1.concat h.2.1 rfl, ?_, tracked_advance d _⟩
  rw [tip_eq_getLast?, Dispute.advance, getLast?_concat]
  rfl

theorem Kept.agrees (h : Kept deps before d) (heq : d.Agrees d') : Kept deps before d' where
  chained := by
    rw [Chained, heq.id, heq.hash, heq.chain]
    exact ⟨h.chained.1, h.chained.2.1, heq.tracked h.chained.2.2⟩
  resolved := by
    rw [heq.resolvedAt, heq.status, Dispute.priorStatus, heq.chain]
    exact h.resolved

theorem Kept.advance (h : Kept deps before d) (status : DisputeStatus) (payload : Json) (now : ℤ)
    (hedge : canTransition d.status status = true) :
    Kept deps before (d.advance (appendFinalityLink deps d status payload now)) where
  chained := h.chained.advance status payload now
  resolved := by
    intro hresolved
    rcases (h.resolved hresolved).1 with hstatus | hstatus <;> rw [hstatus] at hedge <;> cases hedge

theorem autoResolve_of_no_target (h : scanTarget deps options now d = none) :
    autoResolve deps options now d = d := by
  rw [autoResolve, h]
  exact ite_self d

theorem autoResolve_idem : autoResolve deps options now (autoResolve deps options now d) =
    autoResolve deps options now d := by
  rcases autoResolve_cases deps options now d with heq | ⟨target, payload, window, htarget, -, heq⟩
  · rw [heq, heq]
  · apply autoResolve_of_no_target
    rw [heq]
    rcases htarget with rfl | rfl <;> rfl

/-- A scan visits each object any number of times, which is as good as
once. -/
theorem scan_objects : (scanAndAutoResolve deps options now s).All fun ref d' =>
    ∃ d, s.objects[ref]? = some d ∧ (d' = d ∨ d' = autoResolve deps options now d) := by
  refine Server.All.scan (fun ref d hget => ⟨d, hget, .inl rfl⟩) ?_
  rintro ref d' ⟨d, hget, rfl | rfl⟩
  · exact ⟨_, hget, .inr rfl⟩
  · exact ⟨d, hget, .inr autoResolve_idem⟩

theorem status_eq_of_last (h : Tracked d) (hlast : d.finalityChain.getLast? = some link) :
    d.status = link.status := by
  rw [Tracked, Dispute.history, getLast?_cons, getLast?_map, hlast] at h
  exact (some_inj.mp h).symm

theorem priorStatus_advance (h : Tracked d) (hchain : d.finalityChain ≠ []) (link) :
    (d.advance link).priorStatus = d.status := by
  obtain ⟨links, last, heq⟩ := eq_nil_or_concat' d.finalityChain |>.resolve_left hchain
  have hlast : d.finalityChain.getLast? = some last := by rw [heq, getLast?_concat]
  rw [status_eq_of_last h hlast]
  simp [Dispute.priorStatus, Dispute.advance, heq]

/-- A scan that resolves a dispute puts its link behind one that bears the
status the dispute had. -/
theorem kept_autoResolve (h : Kept deps before d) :
    Kept deps (if (autoResolve deps options now d).status = d.status then before else some d.status)
      (autoResolve deps options now d) := by
  by_cases hsame : autoResolve deps options now d = d
  · rw [hsame, if_pos rfl]
    exact h
  · obtain ⟨target, payload, window, htarget, hedge, heq⟩ :=
      (autoResolve_cases deps options now d).resolve_left hsame
    have hchain : d.finalityChain ≠ [] := by
      intro hnil
      have hopen := h.chained.2.2
      rw [Tracked, Dispute.history, hnil] at hopen
      apply hsame (autoResolve_of_no_target ?_)
      simp [scanTarget, ← some_inj.mp hopen, lastActivityAt, hnil]
    have hstatus : (autoResolve deps options now d).status ≠ d.status := by
      rw [heq]
      rintro rfl
      cases hd : d.status <;> rw [hd] at hedge <;> cases hedge
    have hprior := priorStatus_advance h.chained.2.2 hchain
      (appendFinalityLink deps d target payload now)
    rw [if_neg hstatus, heq]
    exact ⟨h.chained.advance target payload now, fun _ => ⟨htarget, congrArg some hprior.symm⟩⟩

theorem Kept.reopen (h : Kept deps before d) (now resolvedAt : ℤ) :
    Kept deps before (d.reopen deps now resolvedAt) where
  chained := h.chained.advance d.priorStatus _ now
  resolved hresolved := absurd rfl hresolved

/-- A request but a scan. -/
theorem serve_kept {before : Nat → Option DisputeStatus} {request : Request × Env}
    (hscan : ∀ options, request.1 ≠ .scan options) (h : s.All fun ref => Kept deps (before ref)) :
    (serve deps s request).All fun ref => Kept deps (before ref) := by
  refine finish_inv (I := fun s => s.All fun ref => Kept deps (before ref))
    (J := fun s pc => ¬ Late s pc ∧ ∀ options, pc ≠ .received (.scan options)) ?_ 3 h
    ⟨id, fun options heq => hscan options (Pc.received.inj heq)⟩
  rintro pc s hs ⟨hlate, hpc⟩
  refine ⟨(resume_changes deps request.2 pc s).all hs (fun fresh => ?_) Kept.agrees
    (fun status payload now hd hedge => hd.advance status payload now (hedge.resolve_left hlate))
    (fun options heq => absurd heq (hpc options)), fun pc' hnext => ⟨resume_timely hnext, ?_⟩⟩
  · refine ⟨?_, fun hresolved => absurd (congrArg (·.getD 0) fresh.resolvedAt) hresolved⟩
    rw [Chained, fresh.hash, fresh.chain]
    exact ⟨trivial, rfl, fresh.tracked⟩
  · rintro options rfl
    rcases resume_next hnext with ⟨_, heq, -⟩ | ⟨_, _, _, _, _, _, -, heq, -⟩ <;> cases heq

theorem watch_kept {w : Watched} (h : w.server.All fun ref => Kept deps (w.before ref))
    (op : Operation) :
    (watch deps w op).server.All fun ref => Kept deps ((watch deps w op).before ref) := by
  cases op with
  | reverse disputeId now =>
    show (perform deps w.server _).All _
    rw [perform]
    split
    next s' hok =>
      obtain ⟨ref, d, hfind, -, rfl⟩ := reverseAutoResolve_eq_ok hok
      exact h.write ((h ref d (find_eq_some hfind)).reopen now _)
    · exact h
  | request request e =>
    cases request with
    | scan options =>
      intro ref d' hget'
      obtain ⟨d, hget, hd'⟩ := scan_objects ref d' hget'
      have hnew : (perform deps w.server (.request (.scan options) e)).statusOf ref =
        some d'.status := congrArg _ hget'
      have hold : w.server.statusOf ref = some d.status := congrArg _ hget
      simp only [watch, hnew, hold, some_inj]
      rcases hd' with rfl | rfl
      · rw [if_pos rfl]
        exact h ref d' hget
      · exact kept_autoResolve (h ref d hget)
    | _ => exact serve_kept nofun h

theorem finality_of_operations (deps : Deps) (ops : List Operation) :
    let w := Machine.run (watch deps) {} ops
    (∀ d ∈ w.server.objects, Linked (finalityScheme deps d.id) none d.finalityChain ∧
      ∀ link, d.finalityChain.getLast? = some link →
        d.status = link.status ∧ d.finalityHash = some link.hash) ∧
    ∀ disputeId now s', reverseAutoResolve deps disputeId now w.server = .ok s' →
      ∃ ref d status, w.server.find disputeId = some (ref, d) ∧
        w.before ref = some status ∧ s'.statusOf ref = some status := by
  intro w
  have hkept : w.server.All fun ref => Kept deps (w.before ref) :=
    run_inv (I := fun w : Watched => w.server.All fun ref => Kept deps (w.before ref))
      (fun w op h => watch_kept h op) (fun ref d hget => by cases hget) ops
  constructor
  · intro d hd
    obtain ⟨ref, hget⟩ := mem_iff_getElem?.mp hd
    obtain ⟨hlinked, htip, htracked⟩ := (hkept ref d hget).chained
    refine ⟨hlinked, fun link hlink => ⟨status_eq_of_last htracked hlink, ?_⟩⟩
    rw [htip, tip_eq_getLast?, hlink]
    rfl
  · intro disputeId now s' hok
    obtain ⟨ref, d, hfind, hresolved, rfl⟩ := reverseAutoResolve_eq_ok hok
    have hget := find_eq_some hfind
    refine ⟨ref, d, d.priorStatus, hfind, ((hkept ref d hget).resolved hresolved).2, ?_⟩
    rw [Server.statusOf, Server.write, getElem?_set_self (List.getElem?_eq_some_iff.mp hget).1]
    rfl

end ChronoPay.Disputes
