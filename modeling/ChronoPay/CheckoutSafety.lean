import ChronoPay.CheckoutSessions

/-!
# CheckoutSafety — a session is settled once, and is it paid once?

Every update the service issues either expects a pending row and settles
it, or expects a completed row and leaves its status alone
(`segment_issues`). With the update conditional, the first one to arrive
wins and the row keeps what the winner wrote: `session_settled_once`.

A CHARGE has no such guard. It is made between the read that found the
session pending and the update, so it can be made twice, or for a session
that is cancelled or expires in between; `charged_once_iff` says exactly
which steps are to blame.
-/

namespace ChronoPay

open Coop Function Machine

namespace Checkout

variable {e : Env} {pc pc' : Pc} {s : Store} {sessionId : String} {σ : State} {k : Cmd}
  {row session : CheckoutSession}

/-! ## What a step writes -/

/-- The ways a session is settled. -/
inductive Verdict where
  | complete (paymentToken : Option String)
  | fail (reason : Option String)
  | cancel
  | expire
  deriving DecidableEq, Repr

namespace Verdict

def status : Verdict → CheckoutSessionStatus
  | complete _ => .completed
  | fail _ => .failed
  | cancel => .cancelled
  | expire => .expired

def paymentToken : Verdict → Option String
  | complete token => token
  | fail _ | cancel | expire => none

def failureReason : Verdict → Option MetadataValue
  | fail reason => some (.str (reason.getD "Unknown"))
  | complete _ | cancel | expire => none

end Verdict

/-- The verdict an operation is out to write. -/
def SessionOp.verdict : SessionOp → Option Verdict
  | completeSession token => some (.complete token)
  | failSession reason => some (.fail reason)
  | cancelSession => some .cancel
  | getSession | paySession | processPartialRefundPathPayment _ => none

/-- The fields are those the verdict writes. -/
structure Verdict.Writes (v : Verdict) (fields : SessionFields) : Prop where
  status : fields.status = v.status
  paymentToken : fields.paymentToken = v.paymentToken
  metadata : (∃ metadata, fields.metadata = some metadata ∧
      metadata "failureReason" = v.failureReason ∧ v.failureReason.isSome = true) ∨
    (fields.metadata = none ∧ v.failureReason = none)

/-- The verdict an operation comes to on a copy that is pending: an overdue
one expires, whatever the operation. -/
def verdictOn (e : Env) (op : SessionOp) (session : CheckoutSession) : Option Verdict :=
  if e.now > session.expiresAt then some .expire else op.verdict

/-- The fields of a stored quote: nothing but metadata of the copy. -/
structure KeepsFailure (session : CheckoutSession) (fields : SessionFields) : Prop where
  status : fields.status = session.status
  paymentToken : fields.paymentToken = none
  metadata : ∃ metadata, fields.metadata = some metadata ∧
    metadata "failureReason" = session.failureReason

/-- **What a segment can end in.** A row is only ever settled by a request
that found it pending, charged by one that found it pending and not yet
due, and given a quote by one that found it completed. -/
inductive Issues (e : Env) : Pc → Effect → Prop where
  | finish {pc : Pc} (outcome : Outcome)
      (hnone : ∀ op sessionId session, pc = .loaded op sessionId (some session) →
        session.status = .pending → verdictOn e op session = none) :
      Issues e pc (.finish outcome)
  | find {op : SessionOp} {sessionId : String} :
      Issues e (.start (.onSession op sessionId)) (.find op sessionId)
  | create {request : Request} {session : CheckoutSession} :
      Issues e (.start request) (.create session)
  | settle {op : SessionOp} {sessionId : String} {session : CheckoutSession} {v : Verdict}
      {fields : SessionFields} (action : String) (outcome : CheckoutSession → Outcome)
      (hpending : session.status = .pending) (hverdict : verdictOn e op session = some v)
      (hwrites : v.Writes fields) :
      Issues e (.loaded op sessionId (some session))
        (.update sessionId fields .pending action outcome)
  | charge {sessionId : String} {session : CheckoutSession}
      (hpending : session.status = .pending) (hdue : ¬ e.now > session.expiresAt) :
      Issues e (.loaded .paySession sessionId (some session)) (.charge sessionId)
  | quote {hasHorizonClient : Bool} {sessionId : String} {session : CheckoutSession}
      (hcompleted : session.status = .completed) :
      Issues e (.loaded (.processPartialRefundPathPayment hasHorizonClient) sessionId
        (some session)) (.quote sessionId session)
  | store {sessionId : String} {session : CheckoutSession} {fields : SessionFields}
      (action : String) (outcome : CheckoutSession → Outcome)
      (hkeeps : KeepsFailure session fields) :
      Issues e (.quoted sessionId session) (.update sessionId fields .completed action outcome)

theorem Issues.finish_start {request : Request} (outcome : Outcome) :
    Issues e (.start request) (.finish outcome) :=
  .finish outcome fun _ _ _ hpc => nomatch hpc

theorem Issues.finish_settled {op : SessionOp} (outcome : Outcome)
    (hsettled : session.status ≠ .pending) :
    Issues e (.loaded op sessionId (some session)) (.finish outcome) := by
  refine .finish outcome fun op' id' session' hpc hpending => ?_
  cases hpc
  exact absurd hpending hsettled

section

variable (hdue : session.status = .pending → ¬ e.now > session.expiresAt)
include hdue

variable {op : SessionOp}

theorem verdictOn_pastExpiry (hpending : session.status = .pending) :
    verdictOn e op session = op.verdict :=
  if_neg (hdue hpending)

theorem Issues.finish_undecided (outcome : Outcome) (hop : op.verdict = none) :
    Issues e (.loaded op sessionId (some session)) (.finish outcome) := by
  refine .finish outcome fun op' id' session' hpc hpending => ?_
  cases hpc
  rw [verdictOn_pastExpiry hdue hpending, hop]

theorem settle_issues {v : Verdict} {what action : String} {reason : Option String}
    {fields : CheckoutSession → SessionFields} (hop : op.verdict = some v)
    (hwrites : v.Writes (fields session)) :
    Issues e (.loaded op sessionId (some session))
      (settle what reason action sessionId fields session) := by
  unfold settle
  split
  next hsettled => exact .finish_settled _ hsettled
  next hpending =>
    have hpending := not_not.mp hpending
    exact .settle _ _ hpending ((verdictOn_pastExpiry hdue hpending).trans hop) hwrites

/-- The operations, past the expiry check. -/
theorem applyOp_issues (op : SessionOp) :
    Issues e (.loaded op sessionId (some session)) (applyOp e sessionId op session) := by
  cases op with
  | getSession => exact .finish_undecided hdue _ rfl
  | completeSession token =>
    rw [applyOp, completeSession]
    exact settle_issues hdue (v := .complete token) rfl ⟨rfl, rfl, .inr ⟨rfl, rfl⟩⟩
  | failSession reason =>
    rw [applyOp, failSession]
    refine settle_issues hdue (v := .fail reason) rfl ⟨rfl, rfl, .inl ⟨_, rfl, ?_, rfl⟩⟩
    exact update_self ..
  | cancelSession =>
    rw [applyOp, cancelSession]
    exact settle_issues hdue (v := .cancel) rfl ⟨rfl, rfl, .inr ⟨rfl, rfl⟩⟩
  | paySession =>
    rw [applyOp, paySession]
    split
    · exact .finish_undecided hdue _ rfl
    next hpending =>
      split
      · exact .charge (not_not.mp hpending) (hdue (not_not.mp hpending))
      · exact .finish_undecided hdue _ rfl
  | processPartialRefundPathPayment hasHorizonClient =>
    rw [applyOp, processPartialRefundPathPayment]
    split
    · exact .finish_undecided hdue _ rfl
    next hcompleted =>
      split
      · exact .quote (not_not.mp hcompleted)
      · exact .finish_undecided hdue _ rfl

end

theorem segment_issues (e : Env) (pc : Pc) : Issues e pc (segment e pc) := by
  cases pc with
  | start request =>
    cases request with
    | createSession request hasToken =>
      rw [segment, createSession]
      split
      · split
        · exact .finish_start _
        · split
          · exact .finish_start _
          · exact .create
      · exact .create
    | onSession op sessionId => exact .find
  | loaded op sessionId found =>
    rw [segment, getSession.eq_def]
    split
    · exact .finish _ fun _ _ _ hpc => nomatch hpc
    next session =>
      split
      next hoverdue =>
        exact .settle (v := .expire) _ _ hoverdue.2 (if_pos hoverdue.1)
          ⟨rfl, rfl, .inr ⟨rfl, rfl⟩⟩
      next hdue =>
        split
        next hexpired => exact .finish_settled _ (by rw [hexpired]; decide)
        · exact applyOp_issues (fun hpending hover => hdue ⟨hover, hpending⟩) op
  | quoted sessionId session =>
    rw [segment, storeQuote]
    split
    · exact .finish _ fun _ _ _ hpc => nomatch hpc
    · refine .store _ _ ⟨rfl, rfl, _, rfl, ?_⟩
      rw [update_of_ne (by decide), update_of_ne (by decide)]
      unfold CheckoutSession.failureReason
      cases session.metadata <;> rfl

variable {v : Verdict} {fields : SessionFields}

/-- A verdict on a pending copy is written. -/
theorem segment_of_verdict (sessionId : String) {op : SessionOp}
    (hpending : session.status = .pending) (hverdict : verdictOn e op session = some v) :
    ∃ fields action outcome, v.Writes fields ∧
      segment e (.loaded op sessionId (some session))
        = .update sessionId fields .pending action outcome := by
  have hissues := segment_issues e (.loaded op sessionId (some session))
  generalize segment e (.loaded op sessionId (some session)) = effect at hissues
  cases hissues with
  | finish outcome hnone =>
    rw [hnone op sessionId session rfl hpending] at hverdict
    cases hverdict
  | settle action outcome _ hverdict' hwrites =>
    cases hverdict.symm.trans hverdict'
    exact ⟨_, action, outcome, hwrites, rfl⟩
  | charge _ hdue =>
    rw [verdictOn, if_neg hdue] at hverdict
    cases hverdict
  | quote hcompleted =>
    rw [hcompleted] at hpending
    cases hpending

/-- The row under an id after a step: as it was, or updated by a step that
found the status it expected. -/
theorem perform_row (effect : Effect) (hrow : s.sessions.findById sessionId = some row) :
    (perform e effect s).1.sessions.findById sessionId = some row ∨
    ∃ fields action outcome, effect = .update sessionId fields row.status action outcome ∧
      (perform e effect s).1.sessions.findById sessionId = some (fields.apply row) := by
  cases effect with
  | finish | find | quote => exact .inl hrow
  | charge id =>
    left
    unfold perform
    dsimp only
    split <;> exact hrow
  | create session =>
    left
    unfold perform
    dsimp only
    split
    · exact hrow
    next sessions hcreate =>
      rw [(CheckoutSessions.create_eq_some.mp hcreate).2]
      unfold CheckoutSessions.findById at hrow ⊢
      rw [KeyedList.get_append, hrow]
      rfl
  | update id fields expectedStatus action outcome =>
    unfold perform
    dsimp only
    split
    · exact .inl hrow
    next sessions updated hupdate =>
      obtain ⟨found, hfound, hstatus, hsessions, -⟩ :=
        CheckoutSessions.updateSession_eq_some.mp hupdate
      rw [hsessions, CheckoutSessions.findById_modify]
      by_cases hid : sessionId = id
      · subst hid
        cases hfound.symm.trans hrow
        subst hstatus
        exact .inr ⟨fields, action, outcome, rfl, by simp [hrow]⟩
      · left
        simpa [hid] using hrow

/-- An update that finds the status it expects is made. -/
theorem perform_update {action : String} {outcome : CheckoutSession → Outcome}
    (hrow : s.sessions.findById sessionId = some row) :
    (perform e (.update sessionId fields row.status action outcome) s).1.sessions.findById sessionId
      = some (fields.apply row) := by
  have hupdate := CheckoutSessions.updateSession_eq_some.mpr
    ⟨row, hrow, rfl, rfl, (rfl : fields.apply row = fields.apply row)⟩
  unfold perform
  dsimp only
  rw [hupdate]
  rw [CheckoutSessions.findById_modify, if_pos rfl, hrow]
  rfl

/-! ## The copies that requests hold -/

/-- What a copy says of the row it was read from: a settled copy is still
right about the status and the failure. -/
def Tracks (s : Store) (sessionId : String) (session : CheckoutSession) : Prop :=
  ∃ row, s.sessions.findById sessionId = some row ∧
    (session.status ≠ .pending →
      row.status = session.status ∧ row.failureReason = session.failureReason)

def CopyOk (s : Store) : Pc → Prop
  | .start _ => True
  | .loaded _ sessionId found => ∀ session ∈ found, Tracks s sessionId session
  | .quoted sessionId session => session.status = .completed ∧ Tracks s sessionId session

/-- The row looks the same to everybody who does not read its quotes. -/
structure SameVerdict (row row' : CheckoutSession) : Prop where
  status : row'.status = row.status
  paymentToken : row'.paymentToken = row.paymentToken
  failureReason : row'.failureReason = row.failureReason

/-- The row is settled by the verdict: its status, and its token and
failure where it has one. -/
structure SettledBy (v : Verdict) (row row' : CheckoutSession) : Prop where
  status : row'.status = v.status
  paymentToken : row'.paymentToken = v.paymentToken.or row.paymentToken
  failureReason : row'.failureReason = v.failureReason.or row.failureReason

theorem SameVerdict.trans {row row' row'' : CheckoutSession} (h : SameVerdict row row')
    (h' : SameVerdict row' row'') : SameVerdict row row'' :=
  ⟨h'.status.trans h.status, h'.paymentToken.trans h.paymentToken,
    h'.failureReason.trans h.failureReason⟩

theorem SettledBy.trans {row row' row'' : CheckoutSession} (h : SettledBy v row row')
    (h' : SameVerdict row' row'') : SettledBy v row row'' :=
  ⟨h'.status.trans h.status, h'.paymentToken.trans h.paymentToken,
    h'.failureReason.trans h.failureReason⟩

theorem Verdict.status_ne_pending (v : Verdict) : v.status ≠ .pending := by
  cases v <;> exact nofun

theorem Verdict.Writes.settledBy (h : v.Writes fields) (row : CheckoutSession) :
    SettledBy v row (fields.apply row) := by
  refine ⟨h.status, by rw [← h.paymentToken]; rfl, ?_⟩
  rcases h.metadata with ⟨metadata, hmetadata, hreason, hsome⟩ | ⟨hnone, hreason⟩
  · obtain ⟨reason, hreason'⟩ := Option.isSome_iff_exists.mp hsome
    rw [CheckoutSession.failureReason, SessionFields.apply, hmetadata, hreason']
    exact hreason.trans hreason'
  · rw [CheckoutSession.failureReason, SessionFields.apply, hnone, hreason]
    rfl

/-- A stored quote changes nothing else, if the copy it was made from is
still right about the row. -/
theorem KeepsFailure.sameVerdict (h : KeepsFailure session fields)
    (hstatus : row.status = session.status) (hreason : row.failureReason = session.failureReason) :
    SameVerdict row (fields.apply row) := by
  obtain ⟨metadata, hmetadata, hkept⟩ := h.metadata
  refine ⟨h.status.trans hstatus.symm, ?_, ?_⟩
  · rw [SessionFields.apply, h.paymentToken]
    rfl
  · rw [hreason, ← hkept, CheckoutSession.failureReason, SessionFields.apply, hmetadata]
    rfl

/-- **What a step does to a row**: nothing, or it settles a pending row
with the verdict of the resumed operation, or it stores a quote. -/
theorem resume_row (hcopy : CopyOk s pc) (hrow : s.sessions.findById sessionId = some row) :
    ∃ row', (service.resume e pc s).1.sessions.findById sessionId = some row' ∧
      (row' = row ∨
      (row.status = .pending ∧ ∃ op session v, pc = .loaded op sessionId (some session) ∧
        session.status = .pending ∧ verdictOn e op session = some v ∧ SettledBy v row row') ∨
      (row.status = .completed ∧ SameVerdict row row')) := by
  rcases perform_row (e := e) (segment e pc) hrow with
    hsame | ⟨fields, action, outcome, heffect, hupdated⟩
  · exact ⟨row, hsame, .inl rfl⟩
  · refine ⟨fields.apply row, hupdated, .inr ?_⟩
    have hissues := segment_issues e pc
    rw [heffect] at hissues
    generalize hexpected : row.status = expected at hissues
    cases hissues with
    | settle _ _ hpending hverdict hwrites =>
      exact .inl ⟨rfl, _, _, _, rfl, hpending, hverdict, hwrites.settledBy row⟩
    | store _ _ hkeeps =>
      obtain ⟨hstatus, row', hrow', htracks⟩ := hcopy
      cases hrow'.symm.trans hrow
      have hright := htracks (by rw [hstatus]; decide)
      exact .inr ⟨rfl, hkeeps.sameVerdict hright.1 hright.2⟩

/-- A copy stays right whatever step is taken. -/
theorem Tracks.resume (h : Tracks s sessionId session) (hcopy : CopyOk s pc) :
    Tracks (service.resume e pc s).1 sessionId session := by
  obtain ⟨row, hrow, htracks⟩ := h
  obtain ⟨row', hrow', hcases⟩ := resume_row (e := e) hcopy hrow
  refine ⟨row', hrow', fun hsettled => ?_⟩
  obtain ⟨hstatus, hreason⟩ := htracks hsettled
  rcases hcases with rfl | ⟨hpending, -⟩ | ⟨-, hsame⟩
  · exact ⟨hstatus, hreason⟩
  · -- a settled copy of a pending row: there is none
    exact absurd (hstatus.symm.trans hpending) hsettled
  · exact ⟨hsame.status.trans hstatus, hsame.failureReason.trans hreason⟩

theorem CopyOk.resume (hcopy : CopyOk s pc) (h : CopyOk s pc') :
    CopyOk (service.resume e pc s).1 pc' := by
  cases pc' with
  | start request => trivial
  | loaded op id found => exact fun session hsession => (h session hsession).resume hcopy
  | quoted id session => exact ⟨h.1, h.2.resume hcopy⟩

/-- The copy a segment goes on with was read just now, or kept. -/
theorem CopyOk.next (hcopy : CopyOk s pc) (h : (service.resume e pc s).2 = .waiting pc') :
    CopyOk (service.resume e pc s).1 pc' := by
  change (perform e (segment e pc) s).2 = .waiting pc' at h
  change CopyOk (perform e (segment e pc) s).1 pc'
  have hissues := segment_issues e pc
  generalize segment e pc = effect at h hissues ⊢
  cases hissues with
  | finish outcome => cases h
  | find =>
    cases h
    exact fun session hsession => ⟨session, hsession, fun _ => ⟨rfl, rfl⟩⟩
  | create | settle | store =>
    unfold perform at h
    dsimp only at h
    split at h <;> cases h
  | charge =>
    unfold perform at h
    dsimp only at h
    split at h
    · cases h
    · cases h
      trivial
    · cases h
      trivial
  | quote hcompleted =>
    cases h
    exact ⟨hcompleted, hcopy _ rfl⟩

theorem held_step (h : Held CopyOk σ) (k : Cmd) : Held CopyOk (step service σ k) :=
  h.step (fun _ => trivial) (fun _ _ _ _ hcopy hnext => hcopy.next hnext)
    (fun _ _ _ _ hcopy hother => hcopy.resume hother)

theorem held_run (sessions : CheckoutSessions) (ks : List Cmd) :
    Held CopyOk (Coop.run service (opened sessions) ks) := by
  refine run_inv (I := Held CopyOk) (fun σ k h => held_step h k) ?_ ks
  intro c hc
  cases hc

/-! ## One verdict for each session -/

/-- The stored row of a session. -/
def rowOf (σ : State) (sessionId : String) : Option CheckoutSession :=
  σ.shared.sessions.findById sessionId

/-- The command runs an operation that found the session pending, to this
verdict. -/
def Decides (σ : State) (k : Cmd) (sessionId : String) (v : Verdict) : Prop :=
  ∃ e op session, resumed σ k = some (e, .loaded op sessionId (some session)) ∧
    session.status = .pending ∧ verdictOn e op session = some v

theorem step_row (h : Held CopyOk σ) (k : Cmd) (hrow : rowOf σ sessionId = some row) :
    ∃ row', rowOf (step service σ k) sessionId = some row' ∧
      (row' = row ∨
      (row.status = .pending ∧ ∃ v, Decides σ k sessionId v ∧ SettledBy v row row') ∨
      (row.status = .completed ∧ SameVerdict row row')) := by
  unfold rowOf
  rw [step_shared]
  cases hresumed : resumed σ k with
  | none => exact ⟨row, hrow, .inl rfl⟩
  | some segment =>
    obtain ⟨e, pc⟩ := segment
    obtain ⟨row', hrow', hcases⟩ := resume_row (e := e) (h.at_resumed hresumed) hrow
    refine ⟨row', hrow', hcases.imp_right (Or.imp_left ?_)⟩
    intro ⟨hpending, op, session, v, hpc, hcopy, hverdict, hsettled⟩
    exact ⟨hpending, v, ⟨e, op, session, hpc ▸ hresumed, hcopy, hverdict⟩, hsettled⟩

/-- From a state on: a settled row stays, a pending one stays as it is
until one command settles it. -/
theorem row_run (h : Held CopyOk σ) (ks : List Cmd) (hrow : rowOf σ sessionId = some row) :
    ∃ row', rowOf (Coop.run service σ ks) sessionId = some row' ∧
      (row.status ≠ .pending → SameVerdict row row') ∧
      (row.status = .pending → row' = row ∨
        ∃ ks₁ k ks₂ v, ks = ks₁ ++ k :: ks₂ ∧
          rowOf (Coop.run service σ ks₁) sessionId = some row ∧
          Decides (Coop.run service σ ks₁) k sessionId v ∧ SettledBy v row row') := by
  induction ks generalizing σ row with
  | nil => exact ⟨row, hrow, fun _ => ⟨rfl, rfl, rfl⟩, fun _ => .inl rfl⟩
  | cons k ks ih =>
    obtain ⟨row₁, hrow₁, hcases⟩ := step_row h k hrow
    obtain ⟨row', hrow', hsettled, hpending⟩ := ih (held_step h k) hrow₁
    refine ⟨row', hrow', ?_, ?_⟩
    · intro hne
      rcases hcases with rfl | ⟨hp, -⟩ | ⟨hc, hsame⟩
      · exact hsettled hne
      · exact absurd hp hne
      · exact hsame.trans (hsettled (by rw [hsame.status]; exact hne))
    · intro hp
      rcases hcases with rfl | ⟨-, v, hdecides, hby⟩ | ⟨hc, -⟩
      · refine (hpending hp).imp_right ?_
        intro ⟨ks₁, k', ks₂, v, hks, hbefore, hdecides, hby⟩
        exact ⟨k :: ks₁, k', ks₂, v, by rw [hks]; rfl, hbefore, hdecides, hby⟩
      · have hne : row₁.status ≠ .pending := by
          rw [hby.status]
          exact v.status_ne_pending
        exact .inr ⟨[], k, ks, v, rfl, hrow, hdecides, hby.trans (hsettled hne)⟩
      · rw [hc] at hp
        cases hp

/-- **A session is settled once, by the operation that won.** Wherever a
run has come to, and however it goes on: a settled session keeps its
status, token and failure; a pending one is untouched, or exactly what the
verdict of ONE command made of it, which that command reached on a copy
found pending. -/
theorem session_settled_once (sessions : CheckoutSessions) (ks ks' : List Cmd)
    (sessionId : String) (row : CheckoutSession)
    (hrow : rowOf (Coop.run service (opened sessions) ks) sessionId = some row) :
    ∃ row', rowOf (Coop.run service (opened sessions) (ks ++ ks')) sessionId = some row' ∧
      (row.status ≠ .pending → SameVerdict row row') ∧
      (row.status = .pending → row' = row ∨
        ∃ ks₁ k ks₂ v, ks' = ks₁ ++ k :: ks₂ ∧
          rowOf (Coop.run service (opened sessions) (ks ++ ks₁)) sessionId = some row ∧
          Decides (Coop.run service (opened sessions) (ks ++ ks₁)) k sessionId v ∧
          SettledBy v row row') := by
  obtain ⟨row', hrow', hsettled, hpending⟩ := row_run (held_run sessions ks) ks' hrow
  simp only [Coop.run, run_append]
  exact ⟨row', hrow', hsettled, hpending⟩

/-- A session that is due at 100. -/
def pendingSession : CheckoutSession :=
  { id := "session", payment := ⟨5000, .usd⟩, customerId := "ann", status := .pending,
    createdAt := 0, expiresAt := 100, updatedAt := 0 }

/-- One request on the session, from its call to its last step. -/
def alone (op : SessionOp) (i : Nat) (env : Env) : List Cmd :=
  [.call (.onSession op "session"), .resume i env, .resume i env]

theorem session_settled_once_cancelled :
    ∃ row', rowOf (Coop.run service (opened [pendingSession])
        ([] ++ (alone .cancelSession 0 { now := 1 } ++ alone .paySession 1 { now := 2 })))
          "session" = some row' ∧
      (pendingSession.status ≠ .pending → SameVerdict pendingSession row') ∧
      (pendingSession.status = .pending → row' = pendingSession ∨
        ∃ ks₁ k ks₂ v, alone .cancelSession 0 { now := 1 } ++ alone .paySession 1 { now := 2 }
            = ks₁ ++ k :: ks₂ ∧
          rowOf (Coop.run service (opened [pendingSession]) ([] ++ ks₁)) "session"
            = some pendingSession ∧
          Decides (Coop.run service (opened [pendingSession]) ([] ++ ks₁)) k "session" v ∧
          SettledBy v pendingSession row') :=
  session_settled_once [pendingSession] [] _ "session" pendingSession rfl

/-! ## Charges -/

/-- How often the provider has charged for the session. -/
def chargeCount (σ : State) (sessionId : String) : Nat :=
  σ.shared.charges.countP fun charge => decide (charge.1 = sessionId)

/-- The command makes a charge for the session that succeeds. -/
def Charges (σ : State) (k : Cmd) (sessionId : String) : Prop :=
  ∃ e pc providerRef, resumed σ k = some (e, pc) ∧ segment e pc = .charge sessionId ∧
    e.charge = .ok (.succeeded providerRef)

/-- What the payments of a session rely on. A charge is the first one and
finds the session pending or completed; and once there is a charge, a
pending session is settled as completed only. -/
structure ChargeSafe (sessionId : String) (σ : State) (k : Cmd) : Prop where
  first : Charges σ k sessionId → chargeCount σ sessionId = 0
  alive : Charges σ k sessionId → ∀ row ∈ rowOf σ sessionId,
    row.status = .pending ∨ row.status = .completed
  settle : 0 < chargeCount σ sessionId → ∀ v, Decides σ k sessionId v →
    ∀ row ∈ rowOf σ sessionId, row.status = .pending → v.status = .completed

/-- A charge that is made once too often or for a dead session. -/
def Overcharged (sessionId : String) (σ : State) : Prop :=
  1 < chargeCount σ sessionId ∨
    0 < chargeCount σ sessionId ∧
      ∃ row ∈ rowOf σ sessionId, row.status ≠ .pending ∧ row.status ≠ .completed

/-- **What a step charges**: nothing, or one charge, which leaves the
table alone and has the request go on to complete the session. -/
theorem perform_charges (e : Env) (effect : Effect) (s : Store) :
    (perform e effect s).1.charges = s.charges ∨
    ∃ id providerRef, effect = .charge id ∧ e.charge = .ok (.succeeded providerRef) ∧
      perform e effect s = ({ s with charges := s.charges ++ [(id, providerRef)] },
        .waiting (.start (.onSession (.completeSession (some providerRef)) id))) := by
  cases effect with
  | finish | find | quote => exact .inl rfl
  | create | update =>
    left
    unfold perform
    dsimp only
    split <;> rfl
  | charge id =>
    unfold perform
    dsimp only
    split
    · exact .inl rfl
    next providerRef hcharge => exact .inr ⟨id, providerRef, rfl, hcharge, rfl⟩
    · exact .inl rfl

theorem step_chargeCount (σ : State) (k : Cmd) (sessionId : String) :
    (¬ Charges σ k sessionId ∧ chargeCount (step service σ k) sessionId = chargeCount σ sessionId) ∨
    (Charges σ k sessionId ∧
      chargeCount (step service σ k) sessionId = chargeCount σ sessionId + 1 ∧
      rowOf (step service σ k) sessionId = rowOf σ sessionId) := by
  unfold chargeCount rowOf
  rw [step_shared]
  cases hresumed : resumed σ k with
  | none =>
    refine .inl ⟨?_, rfl⟩
    intro ⟨e, pc, ref, hresumed', _⟩
    cases hresumed.symm.trans hresumed'
  | some next =>
    obtain ⟨e, pc⟩ := next
    have hcharges : Charges σ k sessionId →
        segment e pc = .charge sessionId ∧ ∃ ref, e.charge = .ok (.succeeded ref) := by
      intro ⟨e', pc', ref, hresumed', hsegment, hcharge⟩
      cases hresumed.symm.trans hresumed'
      exact ⟨hsegment, ref, hcharge⟩
    rcases perform_charges e (segment e pc) σ.shared with
      hsame | ⟨id, ref, hsegment, hcharge, hperform⟩
    · refine .inl ⟨fun h => ?_, congrArg (List.countP _) hsame⟩
      obtain ⟨hsegment, ref, hcharge⟩ := hcharges h
      rw [hsegment, perform, hcharge] at hsame
      simp at hsame
    · have hstore : (service.resume e pc σ.shared).1
          = { σ.shared with charges := σ.shared.charges ++ [(id, ref)] } :=
        congrArg Prod.fst hperform
      simp only [hstore]
      by_cases hid : id = sessionId
      · subst hid
        exact .inr ⟨⟨e, pc, ref, hresumed, hsegment, hcharge⟩, by simp, trivial⟩
      · refine .inl ⟨fun h => ?_, by simp [hid]⟩
        exact hid (Effect.charge.inj (hsegment.symm.trans (hcharges h).1))

/-- A charge is made on a copy, so the session exists. -/
theorem Charges.exists_row (h : Held CopyOk σ) (hcharges : Charges σ k sessionId) :
    ∃ row, rowOf σ sessionId = some row := by
  obtain ⟨e, pc, providerRef, hresumed, hsegment, -⟩ := hcharges
  have hissues := segment_issues e pc
  rw [hsegment] at hissues
  cases hissues with
  | charge hpending hdue =>
    obtain ⟨row, hrow, -⟩ := h.at_resumed hresumed _ rfl
    exact ⟨row, hrow⟩

/-- A verdict on a pending row goes through. -/
theorem Decides.status (hdecides : Decides σ k sessionId v) (hrow : rowOf σ sessionId = some row)
    (hpending : row.status = .pending) :
    ∃ row', rowOf (step service σ k) sessionId = some row' ∧ row'.status = v.status := by
  obtain ⟨e, op, session, hresumed, hcopy, hverdict⟩ := hdecides
  obtain ⟨fields, action, outcome, hwrites, hsegment⟩ := segment_of_verdict sessionId hcopy hverdict
  refine ⟨fields.apply row, ?_, hwrites.status⟩
  rw [rowOf, step_shared, hresumed]
  change (perform e (segment e _) σ.shared).1.sessions.findById sessionId = _
  rw [hsegment, ← hpending]
  exact perform_update hrow

/-- An unsafe step does the damage at once. -/
theorem overcharged_of_unsafe (h : Held CopyOk σ) (hbroken : ¬ ChargeSafe sessionId σ k) :
    Overcharged sessionId (step service σ k) := by
  rcases step_chargeCount σ k sessionId with ⟨hnone, hcount⟩ | ⟨hcharges, hcount, hrowOf⟩
  · -- no charge, so a charged session was settled otherwise
    have hsettle : ¬ (0 < chargeCount σ sessionId → ∀ v, Decides σ k sessionId v →
        ∀ row ∈ rowOf σ sessionId, row.status = .pending → v.status = .completed) :=
      fun hsettle => hbroken ⟨fun hc => absurd hc hnone, fun hc => absurd hc hnone, hsettle⟩
    push Not at hsettle
    obtain ⟨hpos, v, hdecides, row, hrow, hpending, hne⟩ := hsettle
    obtain ⟨row', hrow', hstatus⟩ := hdecides.status hrow hpending
    refine .inr ⟨by omega, row', hrow', ?_, ?_⟩
    · rw [hstatus]
      exact v.status_ne_pending
    · rw [hstatus]
      exact hne
  · obtain ⟨row, hrow⟩ := hcharges.exists_row h
    by_cases hfirst : chargeCount σ sessionId = 0
    · right
      refine ⟨by omega, row, by rw [hrowOf]; exact hrow, ?_⟩
      by_contra halive
      refine hbroken ⟨fun _ => hfirst, fun _ row' hrow' => ?_, fun hpos => by omega⟩
      cases hrow.symm.trans hrow'
      by_contra hdead
      exact halive (not_or.mp hdead)
    · left
      omega

/-- The damage lasts: charges stay, and so does a dead session. -/
theorem Overcharged.step (h : Held CopyOk σ) (hover : Overcharged sessionId σ) :
    Overcharged sessionId (step service σ k) := by
  have hcount : chargeCount σ sessionId ≤ chargeCount (Coop.step service σ k) sessionId := by
    rcases step_chargeCount σ k sessionId with ⟨-, hcount⟩ | ⟨-, hcount, -⟩ <;> omega
  rcases hover with htwice | ⟨hpos, row, hrow, hpending, hcompleted⟩
  · exact .inl (by omega)
  · obtain ⟨row', hrow', rfl | ⟨hp, -⟩ | ⟨hc, -⟩⟩ := step_row h k hrow
    · exact .inr ⟨by omega, row', hrow', hpending, hcompleted⟩
    · exact absurd hp hpending
    · exact absurd hc hcompleted

/-- The continuation is that of a request out to complete the session. -/
def Completing (sessionId : String) (pc : Pc) : Prop :=
  ∃ token, pc = .start (.onSession (.completeSession token) sessionId) ∨
    ∃ session, pc = .loaded (.completeSession token) sessionId (some session)

/-- Charged at most once, and then completed or about to be. -/
structure Paid (sessionId : String) (σ : State) : Prop where
  once : chargeCount σ sessionId ≤ 1
  row : 0 < chargeCount σ sessionId → ∃ row, rowOf σ sessionId = some row ∧
    (row.status = .completed ∨ row.status = .pending ∧
      ∃ c ∈ σ.calls, ∃ pc, c.task = .waiting pc ∧ Completing sessionId pc)

/-- A request that is out to complete a session reads it, and then decides. -/
theorem Completing.resume (hcompleting : Completing sessionId pc) (hcopy : CopyOk s pc)
    (hrow : s.sessions.findById sessionId = some row) (hpending : row.status = .pending) :
    (∃ pc', (service.resume e pc s).2 = .waiting pc' ∧ Completing sessionId pc') ∨
    ∃ op session v, pc = .loaded op sessionId (some session) ∧ session.status = .pending ∧
      verdictOn e op session = some v := by
  obtain ⟨token, rfl | ⟨session, rfl⟩⟩ := hcompleting
  · left
    exact ⟨_, rfl, token, .inr ⟨row, by rw [hrow]⟩⟩
  · right
    obtain ⟨row', hrow', htracks⟩ := hcopy session rfl
    cases hrow'.symm.trans hrow
    have hcopy : session.status = .pending := by
      by_contra hsettled
      exact hsettled ((htracks hsettled).1.symm.trans hpending)
    by_cases hdue : e.now > session.expiresAt
    · exact ⟨_, session, .expire, rfl, hcopy, if_pos hdue⟩
    · exact ⟨_, session, .complete token, rfl, hcopy, if_neg hdue⟩

/-- The charging request is out to complete the session next. -/
theorem Charges.completing (hcharges : Charges σ k sessionId) :
    ∃ c ∈ (step service σ k).calls, ∃ pc, c.task = .waiting pc ∧ Completing sessionId pc := by
  obtain ⟨e, pc, providerRef, hresumed, hsegment, hcharge⟩ := hcharges
  obtain ⟨q, -, hq⟩ := resumed_call (p := service) hresumed
  refine ⟨_, hq, .start (.onSession (.completeSession (some providerRef)) sessionId), ?_,
    some providerRef, .inl rfl⟩
  change (perform e (segment e pc) σ.shared).2 = _
  rw [hsegment, perform, hcharge]

theorem Paid.step (h : Held CopyOk σ) (hpaid : Paid sessionId σ)
    (hsafe : ChargeSafe sessionId σ k) : Paid sessionId (step service σ k) := by
  rcases step_chargeCount σ k sessionId with ⟨-, hcount⟩ | ⟨hcharges, hcount, hrowOf⟩
  · refine ⟨by rw [hcount]; exact hpaid.once, ?_⟩
    rw [hcount]
    intro hpos
    obtain ⟨row, hrow, hcases⟩ := hpaid.row hpos
    obtain ⟨row', hrow', hstep⟩ := step_row h k hrow
    refine ⟨row', hrow', ?_⟩
    rcases hcases with hcompleted | ⟨hpending, c, hc, pc, hpc, hcompleting⟩
    · left
      rcases hstep with rfl | ⟨hp, -⟩ | ⟨-, hsame⟩
      · exact hcompleted
      · rw [hcompleted] at hp
        cases hp
      · exact hsame.status.trans hcompleted
    · rcases hstep with rfl | ⟨-, v, hdecides, hby⟩ | ⟨hc, -⟩
      · -- nobody settled it, so the request that will is still on its way
        refine .inr ⟨hpending, ?_⟩
        rcases mem_step_calls (p := service) hc hpc k with hmem | ⟨e, hresumed, hmem⟩
        · exact ⟨c, hmem, pc, hpc, hcompleting⟩
        · rcases hcompleting.resume (e := e) (h c hc pc hpc) hrow hpending with
            ⟨pc', hnext, hcompleting'⟩ | ⟨op, session, v, rfl, hcopy, hverdict⟩
          · exact ⟨_, hmem, pc', hnext, hcompleting'⟩
          · obtain ⟨row'', hrow'', hstatus⟩ :=
              Decides.status ⟨e, op, session, hresumed, hcopy, hverdict⟩ hrow hpending
            cases hrow'.symm.trans hrow''
            exact absurd (hstatus.symm.trans hpending) v.status_ne_pending
      · exact .inl (hby.status.trans (hsafe.settle hpos v hdecides row hrow hpending))
      · rw [hpending] at hc
        cases hc
  · have hzero := hsafe.first hcharges
    obtain ⟨row, hrow⟩ := hcharges.exists_row h
    refine ⟨by omega, fun _ => ⟨row, by rw [hrowOf]; exact hrow, ?_⟩⟩
    rcases hsafe.alive hcharges row hrow with hpending | hcompleted
    · exact .inr ⟨hpending, hcharges.completing⟩
    · exact .inl hcompleted

/-- **Paid once, and then completed.** In a run in which all calls have
returned, a session was charged at most once, and is completed if it was
charged, EXACTLY IF every step was safe. -/
theorem charged_once_iff (sessions : CheckoutSessions) (sessionId : String) (ks : List Cmd)
    (hreturned : ∀ c ∈ (Coop.run service (opened sessions) ks).calls,
      ∃ outcome, c.task = .done outcome) :
    (chargeCount (Coop.run service (opened sessions) ks) sessionId ≤ 1 ∧
      (0 < chargeCount (Coop.run service (opened sessions) ks) sessionId →
        ∃ row, rowOf (Coop.run service (opened sessions) ks) sessionId = some row ∧
          row.status = .completed)) ↔
    Along (step service) (ChargeSafe sessionId) (opened sessions) ks := by
  constructor
  · intro ⟨honce, hcompleted⟩
    refine along_of_undamaged (I := Held CopyOk) (B := Overcharged sessionId)
      (fun σ k h => held_step h k) (fun σ k h => overcharged_of_unsafe h)
      (fun σ k h => Overcharged.step h) (held_run sessions []) ?_
    intro hover
    rcases hover with htwice | ⟨hpos, row, hrow, -, hne⟩
    · exact absurd htwice (Nat.not_lt.mpr honce)
    · obtain ⟨row', hrow', hstatus⟩ := hcompleted hpos
      cases hrow'.symm.trans hrow
      exact hne hstatus
  · intro halong
    have hopened : Paid sessionId (opened sessions) := ⟨Nat.zero_le _, fun hpos => by cases hpos⟩
    obtain ⟨-, hpaid⟩ := run_inv_along
      (I := fun σ => Held CopyOk σ ∧ Paid sessionId σ)
      (fun σ k h hsafe => ⟨held_step h.1 k, Paid.step h.1 h.2 hsafe⟩)
      ⟨held_run sessions [], hopened⟩ halong
    refine ⟨hpaid.once, fun hpos => ?_⟩
    obtain ⟨row, hrow, hcompleted | ⟨-, c, hc, pc, hpc, -⟩⟩ := hpaid.row hpos
    · exact ⟨row, hrow, hcompleted⟩
    · -- no call is left that could still be on its way
      obtain ⟨outcome, hdone⟩ := hreturned c hc
      rw [hpc] at hdone
      cases hdone

/-- One payment that goes through. -/
def payOnce : List Cmd :=
  .call (.onSession .paySession "session") ::
    List.replicate 4 (.resume 0 { now := 1, charge := .ok (.succeeded "ref") })

theorem charged_once_payOnce :
    Along (step service) (ChargeSafe "session") (opened [pendingSession]) payOnce := by
  refine (charged_once_iff [pendingSession] "session" payOnce fun c hc => ?_).mp
    ⟨by decide +kernel, fun _ => ⟨_, rfl, rfl⟩⟩
  rw [List.mem_singleton.mp (show c ∈ [_] from hc)]
  exact ⟨_, rfl⟩

/-- Two payments, each of which reads the session before the other one
has recorded its charge. -/
def payTwice : List Cmd :=
  let env : Env := { now := 1, charge := .ok (.succeeded "ref") }
  [.call (.onSession .paySession "session"), .call (.onSession .paySession "session"),
    .resume 0 env, .resume 1 env, .resume 0 env, .resume 1 env,
    .resume 0 env, .resume 0 env, .resume 1 env, .resume 1 env]

/-- **Two payments at once are both charged.** All calls have returned,
the session is completed, and the money was taken twice. -/
theorem payTwice_charges_twice :
    (∀ c ∈ (Coop.run service (opened [pendingSession]) payTwice).calls,
      ∃ outcome, c.task = .done outcome) ∧
    ¬ chargeCount (Coop.run service (opened [pendingSession]) payTwice) "session" ≤ 1 := by
  refine ⟨?_, by decide +kernel⟩
  intro c hc
  rcases List.mem_cons.mp (show c ∈ [_, _] from hc) with rfl | hc
  · exact ⟨_, rfl⟩
  · rw [List.mem_singleton.mp hc]
    exact ⟨_, rfl⟩

end Checkout

end ChronoPay
