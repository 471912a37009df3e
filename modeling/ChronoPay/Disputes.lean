import ChronoPay.Lib.Coop
import ChronoPay.RequestHash
import Mathlib.Data.Rat.Defs

/-!
# Disputes — the dispute routes and the deadline scan

The routes keep the disputes as objects in a map from id to object, so a
route that was suspended goes on with the object it found, whatever the
map holds by then. `Server.objects` are the objects, in the order they
were created, and a reference is a position among them.

Every write of `status` goes with a link of the finality chain that bears
the status, so the chain of an object tells all statuses it ever had.

A request body is a JSON value or absent; nothing in it is validated. Only
the appeal and the senior decision are suspended, each time for a write to
the audit log, whose failures are swallowed. The arbitration queue is left
out: no route reads it before it decides.
-/

namespace ChronoPay.Disputes

open JsonText

/-! ## Statuses -/

inductive DisputeStatus where
  | open
  | evidenced
  | adjudicated
  | appealed
  | seniorReview
  | final
  | closed
  | timeout
  deriving DecidableEq, Repr

/-- The status as the source spells it. -/
def DisputeStatus.text : DisputeStatus → String
  | .open => "OPEN"
  | .evidenced => "EVIDENCED"
  | .adjudicated => "ADJUDICATED"
  | .appealed => "APPEALED"
  | .seniorReview => "SENIOR_REVIEW"
  | .final => "FINAL"
  | .closed => "CLOSED"
  | .timeout => "TIMEOUT"

def disputeStateTransitions : DisputeStatus → List DisputeStatus
  | .open => [.evidenced, .timeout]
  | .evidenced => [.adjudicated, .timeout]
  | .adjudicated => [.appealed, .closed]
  | .appealed => [.seniorReview, .closed]
  | .seniorReview => [.final, .closed]
  | .final => []
  | .closed => []
  | .timeout => []

def canTransition (current target : DisputeStatus) : Bool :=
  (disputeStateTransitions current).contains target

/-! ## Records -/

structure SeniorArbiter where
  id : String
  tenantId : String
  deriving DecidableEq

structure FinalityRecord where
  prevHash : Option String
  hash : String
  status : DisputeStatus
  /-- `at` -/
  atMs : ℤ
  payload : Json

inductive FinalRuling where
  | upheld
  | overturned
  deriving DecidableEq, Repr

structure Dispute where
  id : String
  status : DisputeStatus := .open
  buyerTenantId : List Nat
  supplierTenantId : List Nat
  amount : ℚ
  evidence : List (Option Json) := []
  ruling : Option Json := none
  arbiter : Option Json := none
  adjudicatedAt : Option ℤ := none
  finalityHash : Option String := none
  finalityChain : List FinalityRecord := []
  appealWindowMs : Option ℚ := none
  appealInitiatedAt : Option ℤ := none
  panel : Option (List SeniorArbiter) := none
  panelVotes : Option (List Json) := none
  seniorDecisionAt : Option ℤ := none
  finalRuling : Option FinalRuling := none
  autoResolvedAt : Option ℤ := none
  autoResolveWindowMs : Option ℚ := none

/-- What the language and its libraries contribute. -/
structure Deps where
  sha256 : String → String
  /-- The number a JSON number stands for, if it is finite. -/
  number : List Char → Option ℚ
  /-- `Number(value)`, if it is finite. -/
  toNumber : Json → Option ℚ
  /-- The text a number prints as. -/
  numberText : ℚ → List Char
  /-- `value.toFixed(digits)` -/
  toFixed : ℚ → Nat → String
  /-- `a.localeCompare(b) <= 0` -/
  localeLe : String → String → Bool

/-! ## Values as texts -/

/-- The text of a value that is none of an array or object. -/
def leafText : Json → Option (List Nat)
  | .null => some (units "null")
  | .bool b => some (units (if b then "true" else "false"))
  | .number text => some (units (String.ofList text))
  | .string s => some s
  | _ => none

/-- `items.join(",")`; a `null` among them is the empty text. -/
def joinText (items : List (Bool × Option (List Nat))) : Option (List Nat) :=
  (items.mapM fun (item : Bool × Option (List Nat)) => if item.1 then some [] else item.2).map
    fun texts => [(',' : Char).toNat].intercalate texts

/-- `String(value)`, `none` where it throws: an object with a member
`toString` cannot be converted. The flag tells `null`. -/
def stringOf (v : Json) : Option (List Nat) :=
  (v.fold (β := Bool × Option (List Nat))
    (fun leaf => (leaf matches .null, leafText leaf))
    (fun items => (false, joinText items))
    (fun members => (false, if members.any fun m => m.1 = units "toString" then none
      else some (units "[object Object]")))).2

/-- The same for a value that may be undefined. -/
def stringOfOption : Option Json → Option (List Nat)
  | none => some (units "undefined")
  | some v => stringOf v

def member (body : Option Json) (key : String) : Option Json := body.bind (Json.get key)

def readStringField (body : Option Json) (key : String) (fallback : List Nat) : List Nat :=
  match member body key with
  | some (.string v) => if v ≠ [] then v else fallback
  | _ => fallback

def readNumber (deps : Deps) (body : Option Json) (key : String) (fallback : ℚ) : ℚ :=
  match member body key with
  | some (.number text) => (deps.number text).getD fallback
  | _ => fallback

def isString (v : Option Json) (text : String) : Bool :=
  match v with
  | some (.string s) => s = units text
  | _ => false

/-! ## Appeals -/

def defaultAppealWindowMs : ℚ := 72 * 60 * 60 * 1000

def seniorPanelMinSize : Nat := 3

def finalityGenesisHash : String := String.ofList (List.replicate 64 '0')

def isWithinAppealWindow (d : Dispute) (now : ℤ) : Bool :=
  match d.adjudicatedAt with
  | none => false
  | some adjudicatedAt =>
    ((now - adjudicatedAt : ℤ) : ℚ) ≤ d.appealWindowMs.getD defaultAppealWindowMs

def appendFinalityLink (deps : Deps) (d : Dispute) (status : DisputeStatus) (payload : Json)
    (ts : ℤ) : FinalityRecord :=
  let payloadStr := String.ofList (print (RequestHash.stableStringify payload))
  let raw := "|".intercalate
    [d.finalityHash.getD finalityGenesisHash, d.id, status.text, payloadStr, toString ts]
  { prevHash := d.finalityHash, hash := deps.sha256 raw, status, atMs := ts, payload }

/-- The three writes that go with every change of status. -/
def Dispute.advance (d : Dispute) (link : FinalityRecord) : Dispute :=
  { d with
    status := link.status
    finalityHash := some link.hash
    finalityChain := d.finalityChain ++ [link] }

inductive ExclusionReason where
  | originalArbiter
  | partyConflict
  | appealOfAppeal
  deriving DecidableEq, Repr

/-- Why a candidate may not sit on a panel. -/
def exclusionReason (d : Dispute) (candidate : SeniorArbiter) : Option ExclusionReason :=
  if isString d.arbiter candidate.id ∧ candidate.id ≠ "" then some .originalArbiter
  else if units candidate.tenantId = d.buyerTenantId
      ∨ units candidate.tenantId = d.supplierTenantId then some .partyConflict
  else if (d.panel.getD []).any fun p => p.id = candidate.id then some .appealOfAppeal
  else none

structure SeniorPanelSelection where
  panel : List SeniorArbiter
  excluded : List (String × ExclusionReason)

def selectSeniorPanel (deps : Deps) (pool : List SeniorArbiter) (d : Dispute) :
    SeniorPanelSelection :=
  let candidates := pool.filter fun candidate => (exclusionReason d candidate).isNone
  { panel := (candidates.insertionSort fun a b => deps.localeLe a.id b.id).take seniorPanelMinSize
    excluded := pool.filterMap fun candidate =>
      (exclusionReason d candidate).map fun reason => (candidate.id, reason) }

structure SeniorDecisionError where
  code : String
  message : String
  deriving DecidableEq, Repr

/-- The loop over the votes; `none` where it throws. -/
def validateVotes (validIds : List (List Nat)) :
    (seen : List (List Nat)) → List Json → Option (Option SeniorDecisionError)
  | _, [] => some none
  | _, .null :: _ => none
  | seen, v :: votes =>
    match v.get "arbiterId" with
    | some (.string id) =>
      if id ∉ validIds then
        some (some ⟨"PANEL_VOTE_MISMATCH", s!"Vote from non-panel arbiter: {textOf id}"⟩)
      else if id ∈ seen then
        some (some ⟨"DUPLICATE_VOTE", s!"Duplicate vote from arbiter {textOf id}"⟩)
      else validateVotes validIds (id :: seen) votes
    | arbiterId => (stringOfOption arbiterId).map fun text =>
        some ⟨"PANEL_VOTE_MISMATCH", s!"Vote from non-panel arbiter: {textOf text}"⟩

/-- `validateSeniorDecision`, `none` where it throws. -/
def validateSeniorDecision (d : Dispute) (votes : List Json) :
    Option (Option SeniorDecisionError) :=
  if d.status ≠ .seniorReview then
    some (some ⟨"INVALID_STATE", s!"Cannot issue senior decision from state {d.status.text}"⟩)
  else
    match d.panel with
    | none => some (some ⟨"PANEL_NOT_SET", "No senior panel assigned"⟩)
    | some [] => some (some ⟨"PANEL_NOT_SET", "No senior panel assigned"⟩)
    | some panel =>
      if votes.length ≠ panel.length then
        some (some ⟨"INSUFFICIENT_VOTES", s!"Expected {panel.length} votes, got {votes.length}"⟩)
      else validateVotes (panel.map fun p => units p.id) [] votes

inductive Verdict where
  | uphold
  | overturn
  deriving DecidableEq, Repr

def decideByMajority (votes : List Json) : Verdict :=
  let uphold := votes.countP fun v => isString (v.get "vote") "UPHOLD"
  if votes.length - uphold ≤ uphold then .uphold else .overturn

/-! ## The server -/

structure Server where
  objects : List Dispute := []
  /-- `disputes`: the object each id leads to. -/
  disputes : List (String × Nat) := []
  buyer : ℚ := 1000
  supplier : ℚ := 1000
  /-- What was added to `ledgers.buyer`, and for which object. -/
  postings : List (Nat × ℚ) := []

/-- `disputes.get(id)`, with its reference. -/
def Server.find (s : Server) (id : String) : Option (Nat × Dispute) :=
  (KeyedList.get Prod.fst id s.disputes).bind fun entry =>
    (s.objects[entry.2]?).map fun d => (entry.2, d)

def Server.write (s : Server) (ref : Nat) (d : Dispute) : Server :=
  { s with objects := s.objects.set ref d }

/-- `ledgers.buyer += amount; ledgers.supplier -= amount` -/
def Server.post (s : Server) (ref : Nat) (amount : ℚ) : Server :=
  { s with
    buyer := s.buyer + amount
    supplier := s.supplier - amount
    postings := s.postings ++ [(ref, amount)] }

/-! ## The deadline scan -/

structure ScanOptions where
  inactivityTimeoutMs : Option ℚ := none
  seniorReviewTimeoutMs : Option ℚ := none
  autoResolveWindowMs : Option ℚ := none

def dayMs : ℚ := 24 * 60 * 60 * 1000

def hourMs : ℚ := 60 * 60 * 1000

def ScanOptions.inactivityTimeout (options : ScanOptions) : ℚ :=
  options.inactivityTimeoutMs.getD (30 * dayMs)

def ScanOptions.seniorReviewTimeout (options : ScanOptions) : ℚ :=
  options.seniorReviewTimeoutMs.getD (14 * dayMs)

def ScanOptions.autoResolveWindow (options : ScanOptions) : ℚ :=
  options.autoResolveWindowMs.getD dayMs

def defaultRulingFor (d : Dispute) : Json :=
  if d.status = .adjudicated ∨ d.status = .appealed ∨ d.status = .seniorReview then
    match d.ruling with
    | none => .string (units "NO_RULING_AVAILABLE")
    | some .null => .string (units "NO_RULING_AVAILABLE")
    | some ruling => ruling
  else .string (units "TIMEOUT_NO_ACTIVITY")

def lastActivityAt (d : Dispute) : Option ℤ := d.finalityChain.getLast?.map FinalityRecord.atMs

/-- The status the scan moves a dispute to, and the reason. -/
def scanTarget (deps : Deps) (options : ScanOptions) (now : ℤ) (d : Dispute) :
    Option (DisputeStatus × String) :=
  match d.status with
  | .open | .evidenced =>
    match lastActivityAt d with
    | none => none
    | some lastActive =>
      let idle : ℚ := (now - lastActive : ℤ)
      if options.inactivityTimeout ≤ idle then
        some (.timeout,
          s!"dispute inactive for {deps.toFixed (idle / dayMs) 1} days without progress")
      else none
  | .adjudicated =>
    let appealWindow := d.appealWindowMs.getD (72 * hourMs)
    if appealWindow ≤ ((now - d.adjudicatedAt.getD 0 : ℤ) : ℚ) then
      some (.closed,
        s!"appeal window ({deps.toFixed (appealWindow / hourMs) 0}h) expired without appeal")
    else none
  | .appealed | .seniorReview =>
    if options.seniorReviewTimeout ≤ ((now - d.appealInitiatedAt.getD 0 : ℤ) : ℚ) then
      some (.closed, s!"senior review deadline ({deps.toFixed (options.seniorReviewTimeout / dayMs) 0}"
        ++ "d) elapsed without final decision")
    else none
  | .final | .closed | .timeout => none

/-- What one round of the loop in `scanAndAutoResolve` makes of a
dispute. -/
def autoResolve (deps : Deps) (options : ScanOptions) (now : ℤ) (d : Dispute) : Dispute :=
  if d.autoResolvedAt.getD 0 ≠ 0 then d
  else
    match scanTarget deps options now d with
    | none => d
    | some (targetStatus, reason) =>
      if !canTransition d.status targetStatus then d
      else
        let link := appendFinalityLink deps d targetStatus (literalObject [
          ("autoResolved", .bool true),
          ("reason", .string (units reason)),
          ("ruling", defaultRulingFor d),
          ("autoResolveWindowMs", .number (deps.numberText options.autoResolveWindow))]) now
        { d.advance link with
          autoResolvedAt := some now
          autoResolveWindowMs := some options.autoResolveWindow }

/-- The loop, over the references `Array.from(disputes.values())`. -/
def scanAndAutoResolve (deps : Deps) (options : ScanOptions) (now : ℤ) (s : Server) : Server :=
  let round (s : Server) (ref : Nat) : Server :=
    match s.objects[ref]? with
    | none => s
    | some d => s.write ref (autoResolve deps options now d)
  (s.disputes.map Prod.snd).foldl round s

/-! ## The routes -/

inductive Request where
  | create (body : Option Json)
  | evidence (id : String) (body : Option Json)
  | adjudicate (id : String) (body : Option Json)
  /-- `actor` is `req.ip`. -/
  | appeal (id : String) (actor : Option String)
  | seniorDecide (id : String) (body : Option Json)
  | timeout (id : String)
  | scan (options : ScanOptions)

/-- The status of an answer with, for a refusal, its code and text. -/
structure Reply where
  status : Nat
  code : Option String := none
  error : Option String := none

inductive Outcome where
  | replied (reply : Reply)
  /-- The handler threw. -/
  | thrown

/-- Where a request is suspended. -/
inductive Pc where
  | received (request : Request)
  /-- After the entry DISPUTE_APPEAL_INITIATED. -/
  | initiated (ref : Nat) (panel : List SeniorArbiter) (now : ℤ) (actor : String)
  /-- After the last audit entry. -/
  | answering (reply : Reply)

structure Env where
  /-- `Date.now()` -/
  now : ℤ
  /-- `newDisputeId()` -/
  newId : String
  /-- `getSeniorPool()` -/
  pool : List SeniorArbiter

abbrev Segment := Server × Coop.Task Pc Outcome

def reply (s : Server) (status : Nat) : Segment := (s, .done (.replied { status }))

def refuse (s : Server) (status : Nat) (code : Option String) (error : String) : Segment :=
  (s, .done (.replied { status, code, error := some error }))

def notFound (s : Server) : Segment := refuse s 404 none "Dispute not found"

def invalidTransition (s : Server) (what : String) (status : DisputeStatus) : Segment :=
  refuse s 409 (some "INVALID_STATE_TRANSITION") s!"Cannot {what} in state {status.text}"

/-- Go on with the dispute of an id. -/
def withDispute (s : Server) (id : String) (route : Nat → Dispute → Segment) : Segment :=
  match s.find id with
  | none => notFound s
  | some (ref, d) => route ref d

def isTruthy (v : Option Json) : Bool := v.any RequestHash.truthy

/-- `POST /disputes` -/
def create (deps : Deps) (e : Env) (body : Option Json) (s : Server) : Segment :=
  let buyerId := readStringField body "buyerId" []
  let supplierId := readStringField body "supplierId" []
  let appealWindow := member body "appealWindowMs"
  -- `Number(value)` throws where `String(value)` does
  if (stringOfOption appealWindow).isNone then (s, .done .thrown)
  else
    let d : Dispute := {
      id := e.newId
      buyerTenantId := readStringField body "buyerTenantId" buyerId
      supplierTenantId := readStringField body "supplierTenantId" supplierId
      amount := readNumber deps body "amount" 0
      appealWindowMs := (appealWindow.bind deps.toNumber).filter fun ms => 0 < ms }
    reply { s with
      objects := s.objects ++ [d]
      disputes := KeyedList.put Prod.fst (e.newId, s.objects.length) s.disputes } 201

/-- `POST /disputes/:id/evidence` -/
def evidence (deps : Deps) (e : Env) (id : String) (body : Option Json) (s : Server) : Segment :=
  withDispute s id fun ref d =>
    if isTruthy (member body "failUpload") then refuse s 500 none "Evidence upload failed"
    else if !canTransition d.status .evidenced then
      refuse s 409 (some "INVALID_STATE_TRANSITION") s!"Cannot add evidence in state {d.status.text}"
    else
      match body with
      | none => (s, .done .thrown)
      | some .null => (s, .done .thrown)
      | some body =>
        let d := { d with evidence := d.evidence ++ [body.get "evidence"] }
        let link := appendFinalityLink deps d .evidenced (literalObject
          [("evidenceCount", .number (toString d.evidence.length).toList)]) e.now
        reply (s.write ref (d.advance link)) 200

/-- The fields an adjudication writes before it converts them. -/
def Dispute.rule (d : Dispute) (body : Option Json) (now : ℤ) : Dispute :=
  { d with
    ruling := member body "ruling"
    arbiter := member body "arbiter"
    adjudicatedAt := some now }

/-- What `adjudicate` adds to `ledgers.buyer`. -/
def Dispute.award (d : Dispute) : ℚ := if isString d.ruling "BUYER_FAVOR" then d.amount else -d.amount

/-- `POST /disputes/:id/adjudicate` -/
def adjudicate (deps : Deps) (e : Env) (id : String) (body : Option Json) (s : Server) : Segment :=
  withDispute s id fun ref d =>
    if !canTransition d.status .adjudicated then invalidTransition s "adjudicate" d.status
    else
      let d := d.rule body e.now
      match stringOfOption d.ruling, stringOfOption d.arbiter with
      | some ruling, some arbiter =>
        let link := appendFinalityLink deps d .adjudicated (literalObject
          [("ruling", .string ruling), ("arbiter", .string arbiter)]) e.now
        reply ((s.write ref (d.advance link)).post ref d.award) 200
      -- the ruling, the arbiter and the time stay behind
      | _, _ => (s.write ref d, .done .thrown)

def panelJson (panel : List SeniorArbiter) : Json :=
  .array (panel.map fun p => .string (units p.id))

/-- `POST /disputes/:id/appeal`, up to the first audit entry. -/
def appeal (deps : Deps) (e : Env) (id : String) (actor : Option String) (s : Server) : Segment :=
  withDispute s id fun ref d =>
    if d.status ≠ .adjudicated then
      let code := if d.status = .appealed ∨ d.status = .seniorReview then "APPEAL_OF_APPEAL"
        else "INVALID_STATE_TRANSITION"
      (s, .waiting (.answering
        { status := 409, code := some code, error := some s!"Cannot appeal from state {d.status.text}" }))
    else if !isWithinAppealWindow d e.now then
      (s, .waiting (.answering
        { status := 410, code := some "APPEAL_WINDOW_EXPIRED",
          error := some "Appeal window has closed for this dispute" }))
    else
      let selection := selectSeniorPanel deps e.pool d
      if selection.panel.length < seniorPanelMinSize then
        (s, .waiting (.answering
          { status := 503, code := some "INSUFFICIENT_SENIOR_POOL",
            error := some <| s!"At least {seniorPanelMinSize} eligible senior arbiters required; "
              ++ s!"found {selection.panel.length}" }))
      else
        (s, .waiting (.initiated ref selection.panel e.now ((actor.filter (· ≠ "")).getD "admin")))

/-- The two changes of status an appeal makes. -/
def Dispute.appeal (deps : Deps) (d : Dispute) (panel : List SeniorArbiter) (now : ℤ)
    (actor : String) : Dispute :=
  let appealedLink := appendFinalityLink deps d .appealed (literalObject
    [("actor", .string (units actor)), ("panel", panelJson panel)]) now
  let d := { d.advance appealedLink with appealInitiatedAt := some now, panel := some panel }
  let seniorLink := appendFinalityLink deps d .seniorReview (literalObject
    [("panel", panelJson panel)]) now
  d.advance seniorLink

/-- The rest of the appeal, which does not look at the status again. -/
def initiate (deps : Deps) (ref : Nat) (panel : List SeniorArbiter) (now : ℤ) (actor : String)
    (s : Server) : Segment :=
  match s.objects[ref]? with
  | none => (s, .done .thrown)
  | some d => (s.write ref (d.appeal deps panel now actor), .waiting (.answering { status := 200 }))

/-- `{ arbiterId: v.arbiterId, vote: v.vote }` as it is printed. -/
def voteJson (v : Json) : Json :=
  literalObject ((v.get "arbiterId").toList.map (("arbiterId", ·)) ++
    (v.get "vote").toList.map (("vote", ·)))

def Verdict.text : Verdict → String
  | .uphold => "UPHOLD"
  | .overturn => "OVERTURN"

def Verdict.finalRuling : Verdict → FinalRuling
  | .uphold => .upheld
  | .overturn => .overturned

/-- A decided dispute. -/
def Dispute.decide (d : Dispute) (link : FinalityRecord) (votes : List Json) (outcome : Verdict)
    (now : ℤ) : Dispute :=
  { d.advance link with
    panelVotes := some votes
    seniorDecisionAt := some now
    finalRuling := some outcome.finalRuling }

/-- `POST /disputes/:id/senior-decide`, up to its audit entry. -/
def seniorDecide (deps : Deps) (e : Env) (id : String) (body : Option Json) (s : Server) : Segment :=
  withDispute s id fun ref d =>
    let votes := match member body "votes" with
      | some (.array votes) => votes
      | _ => []
    match validateSeniorDecision d votes with
    | none => (s, .done .thrown)
    | some (some validation) =>
      (s, .waiting (.answering
        { status := 400, code := some validation.code, error := some validation.message }))
    | some none =>
      let outcome := decideByMajority votes
      let link := appendFinalityLink deps d .final (literalObject
        [("outcome", .string (units outcome.text)), ("votes", .array (votes.map voteJson))]) e.now
      let d := d.decide link votes outcome e.now
      let s := s.write ref d
      let s := if outcome = .overturn ∧ isTruthy d.ruling then s.post ref (-d.award) else s
      (s, .waiting (.answering { status := 200 }))

/-- `POST /disputes/:id/timeout` -/
def timeout (deps : Deps) (e : Env) (id : String) (s : Server) : Segment :=
  withDispute s id fun ref d =>
    if !canTransition d.status .timeout then invalidTransition s "timeout" d.status
    else
      let link := appendFinalityLink deps d .timeout (literalObject []) e.now
      reply (s.write ref (d.advance link)) 200

def receive (deps : Deps) (e : Env) : Request → Server → Segment
  | .create body, s => create deps e body s
  | .evidence id body, s => evidence deps e id body s
  | .adjudicate id body, s => adjudicate deps e id body s
  | .appeal id actor, s => appeal deps e id actor s
  | .seniorDecide id body, s => seniorDecide deps e id body s
  | .timeout id, s => timeout deps e id s
  | .scan options, s => reply (scanAndAutoResolve deps options e.now s) 200

def resume (deps : Deps) (e : Env) : Pc → Server → Segment
  | .received request, s => receive deps e request s
  | .initiated ref panel now actor, s => initiate deps ref panel now actor s
  | .answering reply, s => (s, .done (.replied reply))

def routes (deps : Deps) : Coop.Program Request Env Server Pc Outcome where
  start := .received
  resume := resume deps

/-! ## What a segment does -/

/-- A dispute nothing has happened to. -/
structure Dispute.Fresh (d : Dispute) : Prop where
  status : d.status = .open
  chain : d.finalityChain = []
  hash : d.finalityHash = none
  finalRuling : d.finalRuling = none
  resolvedAt : d.autoResolvedAt = none

/-- Everything a segment can do to the server. -/
inductive Changes (deps : Deps) (e : Env) (s : Server) : Pc → Server → Prop
  | stay {pc : Pc} : Changes deps e s pc s
  | create {body : Option Json} {d : Dispute} (fresh : d.Fresh) :
    Changes deps e s (.received (.create body))
      { s with
        objects := s.objects ++ [d]
        disputes := KeyedList.put Prod.fst (e.newId, s.objects.length) s.disputes }
  | evidence {id : String} {body : Option Json} {ref : Nat} {d : Dispute}
    (found : s.objects[ref]? = some d) (allowed : canTransition d.status .evidenced = true)
    (items : List (Option Json)) (payload : Json) :
    Changes deps e s (.received (.evidence id body))
      (s.write ref (Dispute.advance { d with evidence := items }
        (appendFinalityLink deps d .evidenced payload e.now)))
  | spoil {id : String} {body : Option Json} {ref : Nat} {d : Dispute}
    (found : s.objects[ref]? = some d) (allowed : canTransition d.status .adjudicated = true) :
    Changes deps e s (.received (.adjudicate id body)) (s.write ref (d.rule body e.now))
  | adjudicate {id : String} {body : Option Json} {ref : Nat} {d : Dispute}
    (found : s.objects[ref]? = some d) (allowed : canTransition d.status .adjudicated = true)
    (payload : Json) :
    Changes deps e s (.received (.adjudicate id body))
      ((s.write ref ((d.rule body e.now).advance
        (appendFinalityLink deps d .adjudicated payload e.now))).post ref
          (d.rule body e.now).award)
  | appeal {ref : Nat} {panel : List SeniorArbiter} {now : ℤ} {actor : String} {d : Dispute}
    (found : s.objects[ref]? = some d) :
    Changes deps e s (.initiated ref panel now actor) (s.write ref (d.appeal deps panel now actor))
  | decide {id : String} {body : Option Json} {ref : Nat} {d : Dispute}
    (found : s.objects[ref]? = some d) (reviewed : d.status = .seniorReview) (votes : List Json)
    (outcome : Verdict) (payload : Json) :
    Changes deps e s (.received (.seniorDecide id body))
      (if outcome = .overturn ∧ isTruthy d.ruling then
        (s.write ref (d.decide (appendFinalityLink deps d .final payload e.now) votes outcome
          e.now)).post ref (-d.award)
      else s.write ref (d.decide (appendFinalityLink deps d .final payload e.now) votes outcome e.now))
  | timeout {id : String} {ref : Nat} {d : Dispute}
    (found : s.objects[ref]? = some d) (allowed : canTransition d.status .timeout = true)
    (payload : Json) :
    Changes deps e s (.received (.timeout id))
      (s.write ref (d.advance (appendFinalityLink deps d .timeout payload e.now)))
  | scan {options : ScanOptions} :
    Changes deps e s (.received (.scan options)) (scanAndAutoResolve deps options e.now s)

theorem find_eq_some {s : Server} {id : String} {ref : Nat} {d : Dispute}
    (h : s.find id = some (ref, d)) : s.objects[ref]? = some d := by
  obtain ⟨entry, -, h⟩ := Option.bind_eq_some_iff.mp h
  obtain ⟨d', hd', heq⟩ := Option.map_eq_some_iff.mp h
  cases heq
  exact hd'

theorem withDispute_changes {deps : Deps} {e : Env} {s : Server} {pc : Pc} {id : String}
    {route : Nat → Dispute → Segment}
    (h : ∀ ref d, s.objects[ref]? = some d → Changes deps e s pc (route ref d).1) :
    Changes deps e s pc (withDispute s id route).1 := by
  unfold withDispute
  split
  · exact .stay
  next ref d hfind => exact h ref d (find_eq_some hfind)

theorem receive_changes (deps : Deps) (e : Env) (request : Request) (s : Server) :
    Changes deps e s (.received request) (receive deps e request s).1 := by
  cases request with
  | create body =>
    simp only [receive, create]
    split
    · exact .stay
    · exact .create ⟨rfl, rfl, rfl, rfl, rfl⟩
  | evidence id body =>
    refine withDispute_changes fun ref d found => ?_
    split
    · exact .stay
    · split
      · exact .stay
      next hallowed =>
        split
        · exact .stay
        · exact .stay
        · exact .evidence found (by simpa using hallowed) _ _
  | adjudicate id body =>
    refine withDispute_changes fun ref d found => ?_
    split
    · exact .stay
    next hallowed =>
      have hallowed : canTransition d.status .adjudicated = true := by simpa using hallowed
      dsimp only
      split
      · exact .adjudicate found hallowed _
      · exact .spoil found hallowed
  | appeal id actor =>
    refine withDispute_changes fun ref d found => ?_
    dsimp only
    split
    · exact .stay
    · split
      · exact .stay
      · split
        · exact .stay
        · exact .stay
  | seniorDecide id body =>
    refine withDispute_changes fun ref d found => ?_
    dsimp only
    split
    · exact .stay
    · exact .stay
    next hvalid =>
      have hreview : d.status = .seniorReview := by
        by_contra hne
        rw [validateSeniorDecision, if_pos hne] at hvalid
        cases hvalid
      exact .decide found hreview _ _ _
  | timeout id =>
    refine withDispute_changes fun ref d found => ?_
    split
    · exact .stay
    next hallowed => exact .timeout found (by simpa using hallowed) _
  | scan options => exact .scan

theorem resume_changes (deps : Deps) (e : Env) (pc : Pc) (s : Server) :
    Changes deps e s pc (resume deps e pc s).1 := by
  cases pc with
  | received request => exact receive_changes deps e request s
  | initiated ref panel now actor =>
    simp only [resume, initiate]
    split
    · exact .stay
    next d found => exact .appeal found
  | answering reply => exact .stay

end ChronoPay.Disputes
