import ChronoPay.BookingIntents
import ChronoPay.Lib.TextScan
import ChronoPay.Lib.TicketLock

/-!
# TokenService — minting the time-token of a booking intent

`mintTimeToken` reads the intent, waits for the lock of its issuer, reads
the intent again and returns the token that is recorded there, if one is.
Otherwise it counts what the supplier has issued, checks the trustline,
submits the transaction and records the token in the intent, all with the
lock in its hands (`Stage`).

The lock is a chain of promises per issuer. The issuer is the one the
CALLER names, and the professional of the intent if it names none.

A segment is what runs from one `await` to the next. A query takes effect
in a segment of its own, before the one that goes on with its answer.
-/

namespace ChronoPay.TokenService

open TicketLock

open TicketLock (Locks Place)

/-! ## Numbers -/

inductive JsNumber where
  | nan
  | negInfinite
  | finite (q : ℚ)
  | posInfinite
  deriving DecidableEq

namespace JsNumber

def add : JsNumber → JsNumber → JsNumber
  | finite a, finite b => finite (a + b)
  | nan, _ | _, nan | posInfinite, negInfinite | negInfinite, posInfinite => nan
  | posInfinite, _ | _, posInfinite => posInfinite
  | negInfinite, _ | _, negInfinite => negInfinite

/-- `a < b` -/
def lt : JsNumber → JsNumber → Bool
  | finite a, finite b => a < b
  | negInfinite, finite _ | negInfinite, posInfinite | finite _, posInfinite => true
  | _, _ => false

/-- `a <= b` -/
def le (a b : JsNumber) : Bool := a.lt b || a = b && a ≠ nan

end JsNumber

/-! ## Types -/

structure AppError where
  message : String
  statusCode : Nat
  code : String
  deriving DecidableEq

inductive MintError where
  | app (err : AppError)
  /-- A query was rejected. -/
  | repository
  deriving DecidableEq

structure TrustlineInfo where
  assetCode : String
  assetIssuer : String
  limit : String
  isRevoked : Bool := false

inductive OpType where
  | changeTrust
  | payment
  deriving DecidableEq

structure StellarOp where
  type : OpType
  sourceAccount : Option String := none
  destinationAccount : Option String := none
  assetCode : String
  assetIssuer : String
  amountOrLimit : String
  deriving DecidableEq

/-- The ends of the period as `getTime()` gives them, absent for an invalid
date. -/
structure SupplierLimit where
  maxUnits : JsNumber
  periodStart : Option Int
  periodEnd : Option Int
  deriving DecidableEq

structure MintTimeTokenOptions where
  buyerPublicKey : Option String := none
  issuerPublicKey : Option String := none
  amount : Option String := none
  existingTrustlines : Option (List TrustlineInfo) := none
  issuerRevoked : Bool := false
  simulateFailureStep : Option OpType := none
  supplierLimit : Option SupplierLimit := none

structure MintResult where
  asset : String
  txHash : String
  trustlineCreated : Bool
  operations : Option (List StellarOp) := none
  deriving DecidableEq

/-- An intent with the record of its token. No declared type has a
`tokenAmount`; the recount reads it from the object. -/
structure TokenIntent extends BookingIntentRecord where
  tokenAsset : Option String := none
  mintTxHash : Option String := none
  tokenAmount : Option ℚ := none

/-- `intent.tokenAsset && intent.mintTxHash`: what is recorded, if neither
text is empty. -/
def TokenIntent.token (intent : TokenIntent) : Option (String × String) :=
  match intent.tokenAsset, intent.mintTxHash with
  | some asset, some txHash => if asset ≠ "" ∧ txHash ≠ "" then some (asset, txHash) else none
  | _, _ => none

/-! ## The repository -/

abbrev Intents := List TokenIntent

def Intents.findById (intents : Intents) (id : String) : Option TokenIntent :=
  KeyedList.get (fun intent : TokenIntent => intent.id) id intents

def Intents.updateTokenInfo (intents : Intents) (id tokenAsset mintTxHash : String) : Intents :=
  KeyedList.modify (fun intent : TokenIntent => intent.id) id
    (fun intent => { intent with tokenAsset := some tokenAsset, mintTxHash := some mintTxHash })
    intents

/-! ## The parts of a mint -/

/-- The service with its collaborators. -/
structure Deps where
  /-- `Number.parseFloat` -/
  parseFloat : String → JsNumber
  /-- A number in a template. -/
  numberText : JsNumber → String
  /-- `new Date(text).getTime()`, absent for an invalid date. -/
  getTime : String → Option Int
  /-- The service has a `getSupplierLimit`. -/
  getSupplierLimit : Bool
  /-- The repository has an `updateTokenInfo`. -/
  updateTokenInfo : Bool

variable (deps : Deps)

def intentNotFound : AppError := ⟨"Booking intent not found", 404, "INTENT_NOT_FOUND"⟩

def issuerRevokedError : AppError := ⟨"Issuer authorization revoked", 400, "ISSUER_REVOKED"⟩

/-- What `mapContractError` makes of a simulated failure. -/
def contractExecutionError : AppError :=
  ⟨"Unexpected contract provider error", 500, "CONTRACT_EXECUTION_FAILED"⟩

/-- Ids are ASCII: elsewhere `substring` counts code units. -/
def assetCodeOf (intentId : String) : String :=
  "CHRONO:" ++ String.ofList (TextScan.upperCase (intentId.toList.take 6))

/-- The intent was created in the period. -/
def SupplierLimit.covers (limit : SupplierLimit) (intent : TokenIntent) : Bool :=
  match deps.getTime intent.createdAt, limit.periodStart, limit.periodEnd with
  | some createdAtMs, some pStart, some pEnd => createdAtMs ≥ pStart && createdAtMs ≤ pEnd
  | _, _, _ => false

/-- A row the recount goes by. -/
def countsFor (limit : SupplierLimit) (issuerPubKey : String) (i : TokenIntent) : Bool :=
  (i.professional = issuerPubKey || i.supplierId = some issuerPubKey) && i.token.isSome &&
    limit.covers deps i

def issuedUnits (limit : SupplierLimit) (issuerPubKey : String) (allIntents : Intents) : ℚ :=
  allIntents.foldl
    (fun units i => if countsFor deps limit issuerPubKey i then units + i.tokenAmount.getD 1
      else units) 0

def checkIssuance (limit : SupplierLimit) (issuerPubKey amount : String) (allIntents : Intents) :
    Except AppError Unit :=
  let total := (JsNumber.finite (issuedUnits deps limit issuerPubKey allIntents)).add
    (deps.parseFloat amount)
  if limit.maxUnits.lt total then
    .error ⟨"Supplier " ++ issuerPubKey ++ " token issuance limit exceeded (" ++
      deps.numberText total ++ " > " ++ deps.numberText limit.maxUnits ++ ") for period",
      409, "CONFLICT"⟩
  else .ok ()

/-- `trustlineNeeded` and `trustlineLimitInsufficient`. -/
def checkTrustline (options : MintTimeTokenOptions) (assetCode issuerPubKey amount : String) :
    Except AppError (Bool × Bool) :=
  match (options.existingTrustlines.getD []).find? fun t =>
      t.assetCode = assetCode && t.assetIssuer = issuerPubKey with
  | none => .ok (true, false)
  | some existing =>
    if existing.isRevoked || options.issuerRevoked then .error issuerRevokedError
    else
      let currentLimit := deps.parseFloat (if existing.limit = "" then "0" else existing.limit)
      if (deps.parseFloat amount).le currentLimit then .ok (false, false) else .ok (true, true)

/-- What the transaction is to do. -/
structure MintPlan where
  asset : String
  amount : String
  trustlineCreated : Bool
  operations : List StellarOp

/-- From the check of the trustline to the submission. -/
def prepare (options : MintTimeTokenOptions) (intentId issuerPubKey : String)
    (intent : TokenIntent) : Except AppError MintPlan := do
  let assetCode := assetCodeOf intentId
  let buyerPubKey := options.buyerPublicKey.getD intent.customerId
  let amount := options.amount.getD "1"
  let (trustlineNeeded, trustlineLimitInsufficient) ←
    checkTrustline deps options assetCode issuerPubKey amount
  if options.issuerRevoked then .error issuerRevokedError
  else
    let changeTrust : StellarOp :=
      { type := .changeTrust, sourceAccount := some buyerPubKey, assetCode
        assetIssuer := issuerPubKey, amountOrLimit := "922337203685.4775807" }
    let payment : StellarOp :=
      { type := .payment, sourceAccount := some issuerPubKey
        destinationAccount := some buyerPubKey, assetCode, assetIssuer := issuerPubKey
        amountOrLimit := amount }
    return { asset := assetCode, amount, trustlineCreated := trustlineNeeded
             operations := (if trustlineNeeded || trustlineLimitInsufficient then [changeTrust]
               else []) ++ [payment] }

/-! ## Calls -/

structure Request where
  intentId : String
  options : MintTimeTokenOptions := {}

/-- A call on its way to the lock or inside. -/
structure Job where
  request : Request
  initialIntent : TokenIntent
  issuerPubKey : String
  ticket : Nat

/-- Where a call with the lock is suspended. -/
inductive Stage where
  /-- At the second `findById`. -/
  | rereading
  | reread (intent : TokenIntent)
  /-- At `getSupplierLimit`. -/
  | limiting (intent : TokenIntent)
  /-- At `listAll`. -/
  | listing (intent : TokenIntent) (limit : SupplierLimit)
  | listed (intent : TokenIntent) (limit : SupplierLimit) (allIntents : Intents)
  /-- At `sendTransaction`. -/
  | sending (plan : MintPlan)
  /-- At `updateTokenInfo`. -/
  | updating (result : MintResult)
  | updated (result : MintResult)

inductive Pc where
  /-- At the first `findById`. -/
  | finding (request : Request)
  | found (request : Request) (initialIntent : Option TokenIntent)
  /-- At `await previous`. -/
  | queued (job : Job)
  | inside (job : Job) (stage : Stage)

/-- A transaction that was carried out. -/
structure Mint where
  intentId : String
  amount : String
  txHash : String
  deriving DecidableEq

structure Server where
  intents : Intents
  locks : Locks String := {}
  /-- What `sendTransaction` resolved with, in order. -/
  mints : List Mint := []

/-- What a segment finds outside. -/
structure Env where
  /-- The query or the update is answered, not rejected. -/
  answered : Bool := true
  /-- What `getSupplierLimit` gives. -/
  supplierLimit : Option SupplierLimit := none
  /-- The provider takes the transaction, with the digits of
  `Math.random()`, or fails with what `sendTransaction` throws. -/
  provider : Except AppError String := .ok ""
  /-- `updateTokenInfo` takes effect, whether it is answered or not. -/
  stored : Bool := true

abbrev Outcome := Except MintError MintResult

abbrev Task := Coop.Task Pc Outcome

/-- A stage leads to another one or to the end of the call. -/
inductive Turn where
  | next (stage : Stage)
  | exit (outcome : Outcome)

def sendTransaction (e : Env) (options : MintTimeTokenOptions) (plan : MintPlan) :
    Except AppError MintResult :=
  match e.provider, options.simulateFailureStep with
  | .error err, _ => .error err
  | .ok _, some _ => .error contractExecutionError
  | .ok digits, none =>
    .ok { asset := plan.asset, txHash := "st_tx_" ++ digits
          trustlineCreated := plan.trustlineCreated, operations := some plan.operations }

def submit (job : Job) (intent : TokenIntent) : Turn :=
  match prepare deps job.request.options job.request.intentId job.issuerPubKey intent with
  | .ok plan => .next (.sending plan)
  | .error err => .exit (.error (.app err))

/-- `if (supplierLimit)` -/
def limited (job : Job) (intent : TokenIntent) : Option SupplierLimit → Turn
  | some limit => .next (.listing intent limit)
  | none => submit deps job intent

def answer (e : Env) (turn : Turn) : Turn :=
  if e.answered then turn else .exit (.error .repository)

/-- What a call with the lock does in a segment. -/
def runStage (e : Env) (job : Job) : Stage → Server → Server × Turn
  | .rereading, s =>
    (s, answer e (.next (.reread ((s.intents.findById job.request.intentId).getD
      job.initialIntent))))
  | .reread intent, s =>
    (s, match intent.token with
      | some (asset, txHash) => .exit (.ok { asset, txHash, trustlineCreated := false })
      | none =>
        match job.request.options.supplierLimit with
        | some limit => .next (.listing intent limit)
        | none =>
          if deps.getSupplierLimit then .next (.limiting intent) else submit deps job intent)
  | .limiting intent, s => (s, answer e (limited deps job intent e.supplierLimit))
  | .listing intent limit, s => (s, answer e (.next (.listed intent limit s.intents)))
  | .listed intent limit allIntents, s =>
    (s, match checkIssuance deps limit job.issuerPubKey (job.request.options.amount.getD "1")
        allIntents with
      | .ok () => submit deps job intent
      | .error err => .exit (.error (.app err)))
  | .sending plan, s =>
    match sendTransaction e job.request.options plan with
    | .ok result =>
      ({ s with mints := s.mints ++ [⟨job.request.intentId, plan.amount, result.txHash⟩] },
        if deps.updateTokenInfo then .next (.updating result) else .exit (.ok result))
    | .error err => (s, .exit (.error (.app err)))
  | .updating result, s =>
    (if e.stored then
        { s with
          intents := s.intents.updateTokenInfo job.request.intentId result.asset result.txHash }
      else s,
      answer e (.next (.updated result)))
  | .updated result, s => (s, .exit (.ok result))

def Request.issuer (request : Request) (initialIntent : TokenIntent) : String :=
  request.options.issuerPublicKey.getD initialIntent.professional

def resume (e : Env) : Pc → Server → Server × Task
  | .finding request, s =>
    (s, if e.answered then .waiting (.found request (s.intents.findById request.intentId))
      else .done (.error .repository))
  | .found _ none, s => (s, .done (.error (.app intentNotFound)))
  | .found request (some initialIntent), s =>
    ({ s with locks := s.locks.take (request.issuer initialIntent) },
      .waiting (.queued
        { request, initialIntent, issuerPubKey := request.issuer initialIntent
          ticket := s.locks.tickets.length }))
  | .queued job, s =>
    (s, .waiting (if s.locks.ready job.ticket then .inside job .rereading else .queued job))
  | .inside job stage, s =>
    match runStage deps e job stage s with
    | (s', .next stage') => (s', .waiting (.inside job stage'))
    -- the `finally` of the lock
    | (s', .exit outcome) => ({ s' with locks := s'.locks.release job.ticket }, .done outcome)

abbrev program : Coop.Program Request Env Server Pc Outcome where
  start := .finding
  resume := resume deps

abbrev State := Coop.Sys Request Server Pc Outcome

abbrev Cmd := Coop.Cmd Request Env

/-- The service when it has started, with the intents there are. -/
def started (intents : Intents) : State := { shared := { intents } }

/-! ## The lock -/

/-- Where a call is with respect to the lock of its issuer. -/
def Pc.place : Pc → Place String
  | .finding _ | .found _ _ => .outside
  | .queued job => .queued job.issuerPubKey job.ticket
  | .inside job _ => .inside job.issuerPubKey job.ticket

variable {deps} {e : Env} {job : Job} {stage : Stage} {s : Server}

theorem runStage_locks (deps : Deps) (e : Env) (job : Job) (stage : Stage) (s : Server) :
    (runStage deps e job stage s).1.locks = s.locks := by
  cases stage with
  | sending | updating =>
    rw [runStage]
    split
    · rfl
    · rfl
  | _ => rfl

theorem resume_next {stage' : Stage} (h : (runStage deps e job stage s).2 = .next stage') :
    resume deps e (.inside job stage) s
      = ((runStage deps e job stage s).1, .waiting (.inside job stage')) := by
  rw [resume]
  split
  next s' stage'' hrun =>
    rw [hrun] at h ⊢
    rw [Turn.next.inj h]
  next s' outcome hrun =>
    rw [hrun] at h
    cases h

theorem resume_exit {outcome : Outcome} (h : (runStage deps e job stage s).2 = .exit outcome) :
    resume deps e (.inside job stage) s
      = ({ (runStage deps e job stage s).1 with locks := s.locks.release job.ticket },
        .done outcome) := by
  have hlocks := runStage_locks deps e job stage s
  rw [resume]
  split
  next s' stage' hrun =>
    rw [hrun] at h
    cases h
  next s' outcome' hrun =>
    rw [hrun] at h hlocks ⊢
    rw [Turn.exit.inj h, ← hlocks]

/-- Every segment uses the lock properly. -/
theorem follows : Follows Server.locks Pc.place (program deps) where
  start _ := rfl
  moves := by
    intro e pc s
    change TicketLock.Moves s.locks pc.place (resume deps e pc s).1.locks
      (placeOf Pc.place (resume deps e pc s).2)
    cases pc with
    | finding request =>
      rw [resume]
      split
      · exact .stay _
      · exact .stay _
    | found request initialIntent =>
      cases initialIntent with
      | none => exact .stay _
      | some initialIntent => exact .take _
    | queued job =>
      rw [resume]
      split
      next hready => exact .enter _ _ hready
      · exact .stay _
    | inside job stage =>
      cases hturn : (runStage deps e job stage s).2 with
      | next stage' =>
        rw [resume_next hturn, runStage_locks]
        exact .stay _
      | exit outcome =>
        rw [resume_exit hturn]
        exact .leave _ _

end ChronoPay.TokenService
