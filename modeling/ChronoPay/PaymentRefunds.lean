import ChronoPay.CheckoutSessions

/-!
# PaymentRefunds — `RefundService.createRefund`

A refund is three statements: read the session, add up what was refunded
so far, insert. Each of them is atomic, the three together are not; the
check stands between the second and the third. So the bound it is meant
to keep depends on what other refunds insert in between:
`refunds_within_captured_iff` says that a run keeps it exactly if every
insertion would still pass the check at the moment it is made.
-/

namespace ChronoPay

open Coop Machine

namespace Refunds

inductive RefundEntryStatus where
  | pending
  | completed
  | failed
  deriving DecidableEq, Repr

structure RefundEntry where
  id : String
  paymentId : String
  amountCents : Int
  currency : String
  reason : Option String
  status : RefundEntryStatus
  refundedBy : Option String
  createdAt : Int
  deriving DecidableEq, Repr

structure CreateRefundRequest where
  paymentId : String
  amountCents : Int
  currency : Option String := none
  reason : Option String := none
  refundedBy : Option String := none
  deriving DecidableEq, Repr

inductive RefundError where
  | sessionNotFound (paymentId : String)
  | invalidSessionState (currentState : CheckoutSessionStatus)
  | exceedsRemaining (capturedAmount alreadyRefunded remaining requested : Int)
  /-- The database's `CHECK (amount_cents > 0)`. -/
  | amountCheck
  deriving DecidableEq, Repr

def RefundError.message : RefundError → String
  | sessionNotFound paymentId => s!"Payment session {paymentId} not found"
  | invalidSessionState currentState =>
    s!"Cannot refund session in {currentState.text} state. " ++
      "Only completed sessions can be refunded."
  | exceedsRemaining capturedAmount alreadyRefunded remaining requested =>
    s!"Refund amount {requested} exceeds remaining refundable amount {remaining}. " ++
      s!"Captured: {capturedAmount}, Already refunded: {alreadyRefunded}"
  | amountCheck => "new row for relation refund_entries violates check constraint"

/-! ## The repository -/

/-- `INSERT INTO refund_entries …`, with the id and the time the database
generates. -/
def create (id : String) (createdAt : Int) (request : CreateRefundRequest)
    (refunds : List RefundEntry) : Option (List RefundEntry × RefundEntry) :=
  if request.amountCents > 0 then
    let entry : RefundEntry :=
      { id
        paymentId := request.paymentId
        amountCents := request.amountCents
        currency := request.currency.getD "USD"
        reason := request.reason
        status := .completed
        refundedBy := request.refundedBy
        createdAt }
    some (refunds ++ [entry], entry)
  else none

def sumRefundedCents (refunds : List RefundEntry) (paymentId : String) : Int :=
  ((refunds.filter fun entry => entry.paymentId = paymentId).map RefundEntry.amountCents).sum

/-! ## The service -/

structure Store where
  sessions : CheckoutSessions
  refunds : List RefundEntry := []

structure Env where
  id : String := ""
  createdAt : Int := 0

abbrev Outcome := Except RefundError RefundEntry

inductive Pc where
  | start (request : CreateRefundRequest)
  /-- After `await findById`. -/
  | loaded (request : CreateRefundRequest) (found : Option CheckoutSession)
  /-- After `await sumRefundedCents`. -/
  | summed (request : CreateRefundRequest) (capturedAmount currentRefunded : Int)

/-- `createRefund` from one statement to the next. -/
def resume (e : Env) : Pc → Store → Store × Coop.Task Pc Outcome
  | .start request, s => (s, .waiting (.loaded request (s.sessions.findById request.paymentId)))
  | .loaded request found, s =>
    match found with
    | none => (s, .done (.error (.sessionNotFound request.paymentId)))
    | some session =>
      if session.status ≠ .completed then
        (s, .done (.error (.invalidSessionState session.status)))
      else
        (s, .waiting (.summed request session.payment.amount
          (sumRefundedCents s.refunds request.paymentId)))
  | .summed request capturedAmount currentRefunded, s =>
    let remaining := capturedAmount - currentRefunded
    if request.amountCents > remaining then
      (s, .done (.error (.exceedsRemaining capturedAmount currentRefunded remaining
        request.amountCents)))
    else
      match create e.id e.createdAt request s.refunds with
      | none => (s, .done (.error .amountCheck))
      | some (refunds, entry) => ({ s with refunds }, .done (.ok entry))

def service : Program CreateRefundRequest Env Store Pc Outcome where
  start := .start
  resume := resume

abbrev State := Sys CreateRefundRequest Store Pc Outcome

abbrev Cmd := Coop.Cmd CreateRefundRequest Env

/-- The service over given tables, before any request. -/
def opened (sessions : CheckoutSessions) (refunds : List RefundEntry) : State :=
  { shared := { sessions, refunds } }

/-! ## What a step inserts -/

variable {sessions : CheckoutSessions} {paymentId : String} {session : CheckoutSession}
  {e : Env} {pc : Pc} {s : Store} {σ : State} {k : Cmd}

/-- What a segment adds to the refunds of a payment. -/
def insertedCents (paymentId : String) : Pc → Int
  | .start _ | .loaded _ _ => 0
  | .summed request capturedAmount currentRefunded =>
    if request.paymentId = paymentId ∧ 0 < request.amountCents ∧
        request.amountCents ≤ capturedAmount - currentRefunded then
      request.amountCents
    else 0

/-- **What a step does**: sessions are only read, and the refunds of a
payment grow by what the segment adds. -/
theorem resume_spec (e : Env) (pc : Pc) (s : Store) (paymentId : String) :
    (resume e pc s).1.sessions = s.sessions ∧
    sumRefundedCents (resume e pc s).1.refunds paymentId
      = sumRefundedCents s.refunds paymentId + insertedCents paymentId pc := by
  cases pc with
  | start request => simp [resume, insertedCents]
  | loaded request found =>
    cases found with
    | none => simp [resume, insertedCents]
    | some session =>
      simp only [resume, insertedCents]
      split <;> simp
  | summed request capturedAmount currentRefunded =>
    simp only [resume, insertedCents, create]
    by_cases hfits : request.amountCents > capturedAmount - currentRefunded
    · rw [if_pos hfits, if_neg (by omega)]
      simp
    · by_cases hpos : request.amountCents > 0
      · rw [if_neg hfits, if_pos hpos]
        by_cases hid : request.paymentId = paymentId
        · rw [if_pos ⟨hid, hpos, by omega⟩]
          simp [sumRefundedCents, hid]
        · rw [if_neg fun h => hid h.1]
          simp [sumRefundedCents, hid]
      · rw [if_neg hfits, if_neg hpos, if_neg (by omega)]
        simp

/-- What a request holds was read from the sessions. -/
def ReadOk (sessions : CheckoutSessions) : Pc → Prop
  | .start _ => True
  | .loaded request found => found = sessions.findById request.paymentId
  | .summed request capturedAmount _ =>
    ∃ session, sessions.findById request.paymentId = some session ∧
      capturedAmount = session.payment.amount

/-- The table of sessions is the one the service was opened over. -/
structure Reading (sessions : CheckoutSessions) (σ : State) : Prop where
  same : σ.shared.sessions = sessions
  held : Held (fun _ => ReadOk sessions) σ

theorem Reading.step (h : Reading sessions σ) : Reading sessions (step service σ k) := by
  refine ⟨shared_step (I := fun s : Store => s.sessions = sessions) h.same ?_,
    h.held.step (fun _ => trivial) ?_ (fun _ _ _ _ _ => id)⟩
  · intro e pc _
    exact (resume_spec e pc σ.shared "").1.trans h.same
  · intro e pc pc' _ hpc hnext
    cases pc with
    | start request =>
      cases hnext
      exact congrArg (CheckoutSessions.findById · request.paymentId) h.same
    | loaded request found =>
      cases found with
      | none => cases hnext
      | some session =>
        simp only [service, resume] at hnext
        split at hnext
        · cases hnext
        · cases hnext
          exact ⟨session, hpc.symm, rfl⟩
    | summed request capturedAmount currentRefunded =>
      simp only [service, resume] at hnext
      split at hnext
      · cases hnext
      · split at hnext <;> cases hnext

/-! ## Runs -/

/-- An insertion for the payment passes its check also on what is refunded
at that moment. -/
def StillFits (paymentId : String) (σ : State) (k : Cmd) : Prop :=
  ∀ e request capturedAmount currentRefunded,
    resumed σ k = some (e, .summed request capturedAmount currentRefunded) →
    request.paymentId = paymentId → 0 < request.amountCents →
    request.amountCents ≤ capturedAmount - currentRefunded →
    request.amountCents ≤ capturedAmount - sumRefundedCents σ.shared.refunds paymentId

/-- No more is refunded than was captured. -/
def Within (paymentId : String) (captured : Int) (σ : State) : Prop :=
  sumRefundedCents σ.shared.refunds paymentId ≤ captured

theorem step_within_iff (hsession : sessions.findById paymentId = some session)
    (h : Reading sessions σ) (hwithin : Within paymentId session.payment.amount σ) :
    Within paymentId session.payment.amount (step service σ k) ↔ StillFits paymentId σ k := by
  unfold Within at hwithin ⊢
  rw [step_shared]
  cases hresumed : resumed σ k with
  | none =>
    refine iff_of_true hwithin ?_
    intro e request capturedAmount currentRefunded hresumed'
    rw [hresumed] at hresumed'
    cases hresumed'
  | some resumed =>
    obtain ⟨e, pc⟩ := resumed
    have hread := h.held.at_resumed hresumed
    change sumRefundedCents (resume e pc σ.shared).1.refunds paymentId ≤ _ ↔ _
    rw [(resume_spec e pc σ.shared paymentId).2]
    cases pc with
    | start | loaded =>
      refine iff_of_true (by simpa [insertedCents] using hwithin) ?_
      simp [StillFits, hresumed]
    | summed request capturedAmount currentRefunded =>
      obtain ⟨session', hsession', hcaptured⟩ := hread
      have hfits : StillFits paymentId σ k ↔
          (request.paymentId = paymentId → 0 < request.amountCents →
            request.amountCents ≤ capturedAmount - currentRefunded →
            request.amountCents ≤ capturedAmount - sumRefundedCents σ.shared.refunds paymentId) := by
        refine ⟨fun hstill => hstill e request capturedAmount currentRefunded hresumed, ?_⟩
        intro hstill e' r c n hresumed'
        cases hresumed.symm.trans hresumed'
        exact hstill
      rw [hfits, insertedCents]
      split
      next hadds =>
        obtain ⟨hid, hpos, hfits⟩ := hadds
        rw [hid, hsession] at hsession'
        cases hsession'
        simp only [hid, hpos, hfits, true_implies]
        omega
      next hadds =>
        refine iff_of_true (by omega) ?_
        intro hid hpos hfits
        exact absurd ⟨hid, hpos, hfits⟩ hadds

/-- **Refunds stay within what was captured exactly if every insertion
still fits when it is made.** For every session, whatever was refunded
before within its amount, and every interleaving of refund requests. -/
theorem refunds_within_captured_iff (sessions : CheckoutSessions) (refunds : List RefundEntry)
    (paymentId : String) (session : CheckoutSession)
    (hsession : sessions.findById paymentId = some session)
    (hbefore : sumRefundedCents refunds paymentId ≤ session.payment.amount) (ks : List Cmd) :
    Always (step service) (Within paymentId session.payment.amount)
      (opened sessions refunds) ks ↔
    Along (step service) (StillFits paymentId) (opened sessions refunds) ks := by
  have hopened : Reading sessions (opened sessions refunds) := ⟨rfl, fun c hc => by cases hc⟩
  have hwithin : Within paymentId session.payment.amount (opened sessions refunds) := hbefore
  exact always_iff_along_within (I := Reading sessions)
    (Q := Within paymentId session.payment.amount) (C := fun _ _ => True) (fun σ k h _ => h.step)
    (fun σ k h _ hwithin => step_within_iff hsession h hwithin) hopened hwithin
    (along_of_forall (fun _ _ => trivial) _ ks)

/-- A session of 100 cents that was paid. -/
def paidSession : CheckoutSession :=
  { id := "payment", payment := ⟨100, .usd⟩, customerId := "ann", status := .completed,
    createdAt := 0, expiresAt := 100, updatedAt := 0 }

/-- The whole amount, once. -/
def refundAll : List Cmd :=
  [.call { paymentId := "payment", amountCents := 100 }, .resume 0 {}, .resume 0 {}, .resume 0 {}]

theorem refunds_within_captured_refundAll :
    Along (step service) (StillFits "payment") (opened [paidSession] []) refundAll :=
  (refunds_within_captured_iff [paidSession] [] "payment" paidSession rfl (by decide +kernel)
    refundAll).mp (by simp only [refundAll, Always, Within]; decide +kernel)

/-- The whole amount twice, both requests reading the sum before either
inserts. -/
def refundAllTwice : List Cmd :=
  [.call { paymentId := "payment", amountCents := 100 },
    .call { paymentId := "payment", amountCents := 100 },
    .resume 0 {}, .resume 1 {}, .resume 0 {}, .resume 1 {}, .resume 0 {}, .resume 1 {}]

/-- **Two refunds at once exceed what was captured**: 200 cents of 100. -/
theorem refundAllTwice_exceeds : paidSession.status = .completed ∧
    ¬ Always (step service) (Within "payment" paidSession.payment.amount)
      (opened [paidSession] []) refundAllTwice := by
  refine ⟨rfl, ?_⟩
  simp only [refundAllTwice, Always, Within]
  decide +kernel

end Refunds

end ChronoPay
