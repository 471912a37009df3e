import ChronoPay.Lib.Coop
import ChronoPay.Slots

/-!
# CheckoutSessions — `CheckoutSessionService` over its repository

The table of checkout sessions has two writing statements: the insertion
of a fresh row, and `updateSession`, which is conditional on the status
it expects to find. Everything the service does is a sequence of such
statements, reads by id and calls of the payment provider, each of them
ONE atomic step; between two of them any other request may run.

`segment` is the code from one such step up to the next one, which it
ends in (`Effect`); `perform` is the step itself. A continuation holds
the copy of the session that was read, which nobody updates.

The provider is part of the shared state by what it has charged.
-/

namespace ChronoPay

open Function

inductive CheckoutSessionStatus where
  | pending
  | completed
  | failed
  | expired
  | cancelled
  deriving DecidableEq, Repr

def CheckoutSessionStatus.text : CheckoutSessionStatus → String
  | pending => "pending"
  | completed => "completed"
  | failed => "failed"
  | expired => "expired"
  | cancelled => "cancelled"

inductive MetadataValue where
  | str (value : String)
  | num (value : ℚ)
  | bool (value : Bool)
  deriving DecidableEq, Repr

/-- A metadata object by its entries. -/
abbrev Metadata := String → Option MetadataValue

structure PaymentInfo where
  /-- In the smallest unit of the currency. -/
  amount : Int
  currency : SupportedCurrency
  deriving DecidableEq, Repr

structure CheckoutSession where
  id : String
  payment : PaymentInfo
  customerId : String
  status : CheckoutSessionStatus
  createdAt : Int
  expiresAt : Int
  metadata : Option Metadata := none
  successUrl : Option String := none
  cancelUrl : Option String := none
  paymentToken : Option String := none
  updatedAt : Int

/-- The entry `failSession` leaves. -/
def CheckoutSession.failureReason (session : CheckoutSession) : Option MetadataValue :=
  session.metadata.bind fun metadata => metadata "failureReason"

/-! ## The repository -/

/-- What `updateSession` sets. -/
structure SessionFields where
  status : CheckoutSessionStatus
  updatedAt : Int
  paymentToken : Option String := none
  metadata : Option Metadata := none

/-- `SET status = …, payment_token = COALESCE(…, payment_token), …`. -/
def SessionFields.apply (fields : SessionFields) (row : CheckoutSession) : CheckoutSession :=
  { row with
    status := fields.status
    updatedAt := fields.updatedAt
    paymentToken := fields.paymentToken.or row.paymentToken
    metadata := fields.metadata.or row.metadata }

abbrev CheckoutSessions := List CheckoutSession

namespace CheckoutSessions

def findById (sessions : CheckoutSessions) (id : String) : Option CheckoutSession :=
  KeyedList.get CheckoutSession.id id sessions

/-- `none` is a violation of the primary key. -/
def create (sessions : CheckoutSessions) (session : CheckoutSession) : Option CheckoutSessions :=
  if (sessions.findById session.id).isSome then none else some (sessions ++ [session])

/-- `UPDATE … WHERE id = … AND status = … RETURNING *`. -/
def updateSession (sessions : CheckoutSessions) (id : String) (fields : SessionFields)
    (expectedStatus : CheckoutSessionStatus) : Option (CheckoutSessions × CheckoutSession) :=
  match sessions.findById id with
  | none => none
  | some row =>
    if row.status = expectedStatus then
      some (KeyedList.modify CheckoutSession.id id fields.apply sessions, fields.apply row)
    else none

variable {sessions sessions' : CheckoutSessions} {session row updated : CheckoutSession}
  {id : String} {fields : SessionFields} {expectedStatus : CheckoutSessionStatus}

theorem create_eq_some :
    sessions.create session = some sessions' ↔
      sessions.findById session.id = none ∧ sessions' = sessions ++ [session] := by
  unfold create
  cases hfind : sessions.findById session.id with
  | none => simp [eq_comm]
  | some row => simp

theorem updateSession_eq_some :
    sessions.updateSession id fields expectedStatus = some (sessions', updated) ↔
      ∃ row, sessions.findById id = some row ∧ row.status = expectedStatus ∧
        sessions' = KeyedList.modify CheckoutSession.id id fields.apply sessions ∧
        updated = fields.apply row := by
  unfold updateSession
  cases hfind : sessions.findById id with
  | none => simp
  | some row =>
    by_cases hstatus : row.status = expectedStatus
    · simp [hstatus, eq_comm]
    · simp [hstatus]

theorem findById_modify (id' : String) :
    findById (KeyedList.modify CheckoutSession.id id fields.apply sessions) id'
      = if id' = id then (sessions.findById id').map fields.apply else sessions.findById id' :=
  KeyedList.get_modify fun _ => rfl

end CheckoutSessions

/-! ## Requests, errors and the environment -/

namespace Checkout

/-- What a request does with the session `getSession` returns. -/
inductive SessionOp where
  | getSession
  | completeSession (paymentToken : Option String)
  | failSession (reason : Option String)
  | cancelSession
  | paySession
  | processPartialRefundPathPayment (hasHorizonClient : Bool)
  deriving DecidableEq, Repr

structure CreateCheckoutSessionRequest where
  payment : PaymentInfo
  customerId : String
  metadata : Option Metadata := none
  successUrl : Option String := none
  cancelUrl : Option String := none

inductive Request where
  | createSession (request : CreateCheckoutSessionRequest) (hasToken : Bool)
  | onSession (op : SessionOp) (sessionId : String)

/-- The errors, with the values their texts and details report. -/
inductive CheckoutError where
  | sessionNotFound (sessionId : String)
  | sessionExpired (expiresAt : Int) (currentTime : Option Int)
  /-- "Cannot complete session in … state" and its siblings. -/
  | cannot (what : String) (currentState : CheckoutSessionStatus) (reason : Option String)
  /-- The conditional update found another status. -/
  | stateChanged (action : String) (expectedState : CheckoutSessionStatus)
  | providerUnavailable
  | invalidToken
  | tokenSubject
  | horizonClientRequired
  | pathPaymentFailed (message : String)
  /-- The provider's own rejection. -/
  | chargeThrew (message : String)
  /-- The database refused a second row with the id. -/
  | duplicateId (sessionId : String)
  deriving DecidableEq, Repr

namespace CheckoutError

/-- The error code and the HTTP status; the last two are plain errors. -/
def codeAndStatus : CheckoutError → Option (String × Nat)
  | sessionNotFound _ => some ("SESSION_NOT_FOUND", 404)
  | sessionExpired _ _ => some ("SESSION_EXPIRED", 410)
  | cannot _ _ _ | stateChanged _ _ => some ("INVALID_SESSION_STATE", 409)
  | providerUnavailable => some ("PAYMENT_PROVIDER_UNAVAILABLE", 503)
  | invalidToken => some ("UNAUTHORIZED", 401)
  | tokenSubject => some ("UNAUTHORIZED", 403)
  | horizonClientRequired => some ("INTERNAL_ERROR", 500)
  | pathPaymentFailed _ => some ("PATH_PAYMENT_FAILED", 400)
  | chargeThrew _ | duplicateId _ => none

def message : CheckoutError → String
  | sessionNotFound sessionId => s!"Session {sessionId} not found"
  | sessionExpired _ _ => "Checkout session has expired"
  | cannot what currentState _ => s!"Cannot {what} session in {currentState.text} state"
  | stateChanged action _ => s!"Session state changed before {action}"
  | providerUnavailable => "Payment provider is unavailable"
  | invalidToken => "Invalid or expired token"
  | tokenSubject => "Token subject does not match customer.customerId"
  | horizonClientRequired => "Horizon contract client is required for path payment refund"
  | pathPaymentFailed message | chargeThrew message => message
  | duplicateId sessionId => s!"duplicate key value for session {sessionId}"

end CheckoutError

inductive PaymentResult where
  | succeeded (providerRef : String)
  | declined (providerRef reason : String)
  deriving DecidableEq, Repr

structure ExecutedPathPaymentQuote where
  quoteId : String
  destinationAmount : ℚ
  deriving DecidableEq, Repr

/-- What a segment gets from outside. -/
structure Env where
  /-- The clock in seconds, as the expiry check reads it. -/
  now : Int
  /-- The clock as the update reads it. -/
  updatedAt : Int := now
  randomUUID : String := ""
  /-- The subject of the token; an error when `verifyJwt` rejects it. -/
  verifyJwt : Except Unit (Option String) := .ok none
  hasProvider : Bool := true
  charge : Except String PaymentResult := .ok (.succeeded "")
  findPathPaymentQuote : Except String ExecutedPathPaymentQuote := .ok ⟨"", 0⟩

inductive Answer where
  | session (session : CheckoutSession)
  | refunded (session : CheckoutSession) (quote : ExecutedPathPaymentQuote)

abbrev Outcome := Except CheckoutError Answer

/-! ## Segments -/

inductive Pc where
  | start (request : Request)
  /-- After `await findById`. -/
  | loaded (op : SessionOp) (sessionId : String) (found : Option CheckoutSession)
  /-- After `await findPathPaymentQuote`. -/
  | quoted (sessionId : String) (session : CheckoutSession)

/-- The atomic step a segment ends in. -/
inductive Effect where
  | finish (outcome : Outcome)
  | find (op : SessionOp) (sessionId : String)
  | create (session : CheckoutSession)
  | update (sessionId : String) (fields : SessionFields) (expectedStatus : CheckoutSessionStatus)
      (action : String) (outcome : CheckoutSession → Outcome)
  | charge (sessionId : String)
  | quote (sessionId : String) (session : CheckoutSession)

/-- 24 hours. -/
def sessionTtlSeconds : Int := 86400

def createSession (e : Env) (request : CreateCheckoutSessionRequest) (hasToken : Bool) : Effect :=
  let session : CheckoutSession :=
    { id := e.randomUUID
      payment := request.payment
      customerId := request.customerId
      status := .pending
      createdAt := e.now
      expiresAt := e.now + sessionTtlSeconds
      metadata := request.metadata
      successUrl := request.successUrl
      cancelUrl := request.cancelUrl
      updatedAt := e.now }
  if hasToken then
    match e.verifyJwt with
    | .error _ => .finish (.error .invalidToken)
    | .ok subject =>
      -- an empty subject is falsy and is not compared
      if subject.any fun s => s ≠ "" ∧ s ≠ request.customerId then .finish (.error .tokenSubject)
      else .create session
  else .create session

/-- `getSession` after its query, and what the caller does with the
session. A read of an overdue session WRITES the expiry. -/
def getSession (e : Env) (sessionId : String) (found : Option CheckoutSession)
    (next : CheckoutSession → Effect) : Effect :=
  match found with
  | none => .finish (.error (.sessionNotFound sessionId))
  | some session =>
    if e.now > session.expiresAt ∧ session.status = .pending then
      .update sessionId { status := .expired, updatedAt := e.now } .pending "expired" fun _ =>
        .error (.sessionExpired session.expiresAt (some e.now))
    else if session.status = .expired then
      .finish (.error (.sessionExpired session.expiresAt none))
    else next session

/-- A request that settles a session it has found pending. -/
def settle (what : String) (reason : Option String) (action : String) (sessionId : String)
    (fields : CheckoutSession → SessionFields) (session : CheckoutSession) : Effect :=
  if session.status ≠ .pending then .finish (.error (.cannot what session.status reason))
  else .update sessionId (fields session) .pending action fun updated => .ok (.session updated)

def completeSession (e : Env) (paymentToken : Option String) (sessionId : String) :
    CheckoutSession → Effect :=
  settle "complete" none "paid" sessionId fun _ =>
    { status := .completed, updatedAt := e.updatedAt, paymentToken }

def failSession (e : Env) (reason : Option String) (sessionId : String) :
    CheckoutSession → Effect :=
  settle "fail" reason "failed" sessionId fun session =>
    { status := .failed
      updatedAt := e.updatedAt
      metadata := some (update (session.metadata.getD fun _ => none) "failureReason"
        (some (.str (reason.getD "Unknown")))) }

def cancelSession (e : Env) (sessionId : String) : CheckoutSession → Effect :=
  settle "cancel" none "cancelled" sessionId fun _ =>
    { status := .cancelled, updatedAt := e.updatedAt }

def paySession (e : Env) (sessionId : String) (session : CheckoutSession) : Effect :=
  if session.status ≠ .pending then .finish (.error (.cannot "pay for" session.status none))
  else if e.hasProvider then .charge sessionId
  else .finish (.error .providerUnavailable)

def processPartialRefundPathPayment (hasHorizonClient : Bool) (sessionId : String)
    (session : CheckoutSession) : Effect :=
  if session.status ≠ .completed then .finish (.error (.cannot "refund" session.status none))
  else if hasHorizonClient then .quote sessionId session
  else .finish (.error .horizonClientRequired)

/-- The end of a partial refund: the quote goes into the metadata. -/
def storeQuote (e : Env) (sessionId : String) (session : CheckoutSession) : Effect :=
  match e.findPathPaymentQuote with
  | .error message => .finish (.error (.pathPaymentFailed message))
  | .ok quote =>
    let metadata := update
      (update (session.metadata.getD fun _ => none) "lastPartialRefundQuoteId"
        (some (.str quote.quoteId)))
      "lastPartialRefundDestinationAmount" (some (.num quote.destinationAmount))
    .update sessionId
      { status := session.status, updatedAt := e.updatedAt, metadata := some metadata }
      .completed "partial_refund_path_payment" fun updated => .ok (.refunded updated quote)

def applyOp (e : Env) (sessionId : String) : SessionOp → CheckoutSession → Effect
  | .getSession => fun session => .finish (.ok (.session session))
  | .completeSession paymentToken => completeSession e paymentToken sessionId
  | .failSession reason => failSession e reason sessionId
  | .cancelSession => cancelSession e sessionId
  | .paySession => paySession e sessionId
  | .processPartialRefundPathPayment hasHorizonClient =>
    processPartialRefundPathPayment hasHorizonClient sessionId

def segment (e : Env) : Pc → Effect
  | .start (.createSession request hasToken) => createSession e request hasToken
  | .start (.onSession op sessionId) => .find op sessionId
  | .loaded op sessionId found => getSession e sessionId found (applyOp e sessionId op)
  | .quoted sessionId session => storeQuote e sessionId session

/-! ## The service -/

structure Store where
  sessions : CheckoutSessions
  /-- The charges that succeeded: session and provider reference. -/
  charges : List (String × String) := []

/-- After a charge, `paySession` goes on as `completeSession` or as
`failSession`, which read the session AGAIN. -/
def perform (e : Env) : Effect → Store → Store × Coop.Task Pc Outcome
  | .finish outcome, s => (s, .done outcome)
  | .find op sessionId, s => (s, .waiting (.loaded op sessionId (s.sessions.findById sessionId)))
  | .create session, s =>
    match s.sessions.create session with
    | none => (s, .done (.error (.duplicateId session.id)))
    | some sessions => ({ s with sessions }, .done (.ok (.session session)))
  | .update sessionId fields expectedStatus action outcome, s =>
    match s.sessions.updateSession sessionId fields expectedStatus with
    | none => (s, .done (.error (.stateChanged action expectedStatus)))
    | some (sessions, updated) => ({ s with sessions }, .done (outcome updated))
  | .charge sessionId, s =>
    match e.charge with
    | .error message => (s, .done (.error (.chargeThrew message)))
    | .ok (.succeeded providerRef) =>
      ({ s with charges := s.charges ++ [(sessionId, providerRef)] },
        .waiting (.start (.onSession (.completeSession (some providerRef)) sessionId)))
    | .ok (.declined _ reason) =>
      (s, .waiting (.start (.onSession (.failSession (some reason)) sessionId)))
  | .quote sessionId session, s => (s, .waiting (.quoted sessionId session))

def service : Coop.Program Request Env Store Pc Outcome where
  start := .start
  resume e pc s := perform e (segment e pc) s

abbrev State := Coop.Sys Request Store Pc Outcome

abbrev Cmd := Coop.Cmd Request Env

/-- The service over the given table, before any request. -/
def opened (sessions : CheckoutSessions) : State := { shared := { sessions } }

end Checkout

end ChronoPay
