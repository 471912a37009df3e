import Mathlib.Data.Nat.Digits.Defs
import ChronoPay.JsText
import ChronoPay.Lib.CoopTotal
import ChronoPay.Lib.KeyedList

/-!
# PartialRefundApproval — a second admin signs off a large refund

`approve` looks a request up, marks it expired if its time has passed,
checks that it is pending and that the approver did not initiate it, and
stores it as approved; only then it waits for the audit log. Everything
up to the store happens without a suspension, so of any number of racing
`approve` and `deny` calls one finds the request pending.

What a call has stored stays when the audit log rejects and the call with
it, or while the log takes its time. `Unsettled` is such a call: a request
is approved with exactly one resolved `approve` precisely in the states
where no `approve` of it is unsettled (`approved_once_iff`).

`Math.random` may repeat itself. A request whose id is in use takes the
other one's place in the store, so the results are about runs in which
ids are drawn fresh. The clock is read as often as the source reads it,
and may show anything.
-/

namespace ChronoPay.PartialRefundApproval

open Coop KeyedList List Machine Option

/-! ## Types -/

inductive ApprovalStatus where
  | pending
  | approved
  | denied
  | expired
  deriving DecidableEq, Repr

def ApprovalStatus.text : ApprovalStatus → String
  | .pending => "pending"
  | .approved => "approved"
  | .denied => "denied"
  | .expired => "expired"

structure CreateRefundRequest where
  paymentId : String
  amountCents : Int
  currency : Option String
  reason : Option String
  refundedBy : Option String
  deriving DecidableEq

structure PendingApprovalRequest where
  id : String
  refundRequest : CreateRefundRequest
  initiatorId : String
  status : ApprovalStatus
  createdAt : Int
  expiresAt : Int
  approverId : Option String := none
  deniedById : Option String := none
  deniedReason : Option String := none
  resolvedAt : Option Int := none
  deriving DecidableEq

inductive InitiateApprovalResult where
  /-- `requiresApproval: false` -/
  | autoApproved (refundRequest : CreateRefundRequest)
  /-- `requiresApproval: true` -/
  | pendingRequest (request : PendingApprovalRequest)
  deriving DecidableEq

structure ApproveResult where
  approvedRequest : PendingApprovalRequest
  refundRequest : CreateRefundRequest
  deriving DecidableEq

inductive ErrorCode where
  | invalidInput
  | selfApproval
  | notFound
  | expired
  | alreadyResolved
  deriving DecidableEq

structure RefundApprovalError where
  message : String
  code : ErrorCode
  deriving DecidableEq

/-- What is sent to the audit log. -/
inductive AuditEntry where
  | autoApproved (paymentId : String) (currency : Option String) (initiatorId : String)
  | initiated (approvalId paymentId : String) (currency : Option String) (initiatorId : String)
      (expiresAt : Int)
  | approved (approvalId paymentId initiatorId approverId : String)
  | denied (approvalId paymentId initiatorId deniedById : String) (reason : Option String)
  deriving DecidableEq

structure Options where
  thresholds : List (String × Int) := []
  approvalTtlMs : Int := 30 * 60 * 1000
  toUpperCase : String → String := String.toUpper

def defaultThresholds : List (String × Int) :=
  [("USD", 1000000), ("EUR", 1000000), ("GBP", 800000), ("XLM", 100000000000)]

/-- `none` is `Infinity`. -/
def Options.thresholdFor (options : Options) (currency : String) : Option Int :=
  (options.thresholds ++ defaultThresholds).lookup (options.toUpperCase currency)

def Options.requiresApproval (options : Options) (request : CreateRefundRequest) : Bool :=
  match options.thresholdFor (request.currency.getD "USD") with
  | some threshold => threshold ≤ request.amountCents
  | none => false

/-! ## The store -/

structure Service where
  store : List PendingApprovalRequest := []
  /-- The entries sent to the audit log so far. -/
  sent : List AuditEntry := []

namespace Service

def get (s : Service) (approvalId : String) : Option PendingApprovalRequest :=
  KeyedList.get PendingApprovalRequest.id approvalId s.store

def set (s : Service) (request : PendingApprovalRequest) : Service :=
  { s with store := KeyedList.put PendingApprovalRequest.id request s.store }

def send (s : Service) (entry : AuditEntry) : Service := { s with sent := s.sent ++ [entry] }

/-- `getById`, with the reading of the clock it makes for a pending
request. -/
def getById (s : Service) (now : Int) (approvalId : String) :
    Service × Option PendingApprovalRequest :=
  match s.get approvalId with
  | none => (s, none)
  | some request =>
    if request.status = .pending ∧ now ≥ request.expiresAt then
      let expired := { request with status := .expired, resolvedAt := some request.expiresAt }
      (s.set expired, some expired)
    else (s, some request)

/-- The loop of `list` over the keys of the store; `now` has a reading for
each of them. -/
def listLoop (now : Nat → Int) (status : Option ApprovalStatus) :
    List String → Nat → Service → Service × List PendingApprovalRequest
  | [], _, s => (s, [])
  | approvalId :: ids, n, s =>
    let (s, request) := s.getById (now n) approvalId
    let (s, results) := listLoop now status ids (n + 1) s
    (s, (request.filter fun r => status.all (· = r.status)).toList ++ results)

def list (s : Service) (now : Nat → Int) (status : Option ApprovalStatus) :
    Service × List PendingApprovalRequest :=
  listLoop now status (s.store.map PendingApprovalRequest.id) 0 s

def requirePending (s : Service) (now : Int) (approvalId : String) :
    Service × Except RefundApprovalError PendingApprovalRequest :=
  match s.getById now approvalId with
  | (s, none) => (s, .error ⟨"Approval request " ++ approvalId ++ " not found", .notFound⟩)
  | (s, some request) =>
    match request.status with
    | .pending => (s, .ok request)
    | .expired => (s, .error ⟨"Approval request " ++ approvalId ++ " has expired", .expired⟩)
    | status =>
      (s, .error ⟨"Approval request " ++ approvalId ++ " is already " ++ status.text,
        .alreadyResolved⟩)

end Service

/-! ## Calls -/

/-- A digit of `toString(36)`. -/
def digit36 (n : Nat) : Char := if n < 10 then Char.ofNat (48 + n) else Char.ofNat (87 + n)

/-- `n.toString(36)` -/
def toString36 (n : Int) : String :=
  if n = 0 then "0"
  else (if n < 0 then "-" else "") ++ String.ofList ((Nat.digits 36 n.natAbs).reverse.map digit36)

inductive Request where
  | initiate (refundRequest : CreateRefundRequest) (initiatorId : String)
  | approve (approvalId approverId : String)
  | deny (approvalId deniedById : String) (reason : Option String)
  | getById (approvalId : String)
  | list (status : Option ApprovalStatus)

/-- What a segment finds outside. -/
structure Env where
  /-- The readings of the clock, in the order they are made. -/
  now : Nat → Int
  /-- `Math.random().toString(36).slice(2, 10)` -/
  rand : String
  /-- Whether the audit log the call waits for rejects. -/
  auditRejects : Bool

inductive Pc where
  | start (request : Request)
  /-- At the audit log, with what is returned after it. -/
  | autoApproved (refundRequest : CreateRefundRequest)
  | initiated (pending : PendingApprovalRequest)
  /-- `checkedAt` is the reading that found the request pending. -/
  | approved (result : ApproveResult) (checkedAt : Int)
  | denied (resolved : PendingApprovalRequest)

inductive Answer where
  | initiated (result : InitiateApprovalResult)
  /-- The caller does not see `checkedAt`. -/
  | approved (result : ApproveResult) (checkedAt : Int)
  | denied (resolved : PendingApprovalRequest)
  | found (request : Option PendingApprovalRequest)
  | listed (requests : List PendingApprovalRequest)

inductive Failure where
  | refused (error : RefundApprovalError)
  /-- The audit log rejected, with the call at this point. -/
  | auditRejected (pc : Pc)

abbrev Outcome := Except Failure Answer

abbrev Task := Coop.Task Pc Outcome

/-- After the audit log. -/
def logged (e : Env) (pc : Pc) (answer : Answer) : Task :=
  if e.auditRejects then .done (.error (.auditRejected pc)) else .done (.ok answer)

def generateId (e : Env) : String := "rap_" ++ toString36 (e.now 0) ++ "_" ++ e.rand

/-- The request `initiate` stores. -/
def newRequest (options : Options) (e : Env) (refundRequest : CreateRefundRequest)
    (initiatorId : String) : PendingApprovalRequest :=
  { id := generateId e, refundRequest, initiatorId, status := .pending, createdAt := e.now 1
    expiresAt := e.now 1 + options.approvalTtlMs }

def initiate (options : Options) (e : Env) (refundRequest : CreateRefundRequest)
    (initiatorId : String) (s : Service) : Service × Task :=
  if trim initiatorId = "" then
    (s, .done (.error (.refused ⟨"initiatorId is required", .invalidInput⟩)))
  else if ¬ options.requiresApproval refundRequest then
    (s.send (.autoApproved refundRequest.paymentId refundRequest.currency initiatorId),
      .waiting (.autoApproved refundRequest))
  else
    let pending := newRequest options e refundRequest initiatorId
    ((s.set pending).send (.initiated pending.id refundRequest.paymentId refundRequest.currency
      initiatorId pending.expiresAt), .waiting (.initiated pending))

def approve (e : Env) (approvalId approverId : String) (s : Service) : Service × Task :=
  match s.requirePending (e.now 0) approvalId with
  | (s, .error error) => (s, .done (.error (.refused error)))
  | (s, .ok request) =>
    if approverId = request.initiatorId then
      (s, .done (.error (.refused
        ⟨"The approver cannot be the same admin who initiated the request", .selfApproval⟩)))
    else
      let resolved := { request with
        status := .approved, approverId := some approverId, resolvedAt := some (e.now 1) }
      ((s.set resolved).send (.approved approvalId request.refundRequest.paymentId
        request.initiatorId approverId),
        .waiting (.approved ⟨resolved, request.refundRequest⟩ (e.now 0)))

def deny (e : Env) (approvalId deniedById : String) (reason : Option String) (s : Service) :
    Service × Task :=
  match s.requirePending (e.now 0) approvalId with
  | (s, .error error) => (s, .done (.error (.refused error)))
  | (s, .ok request) =>
    let resolved := { request with
      status := .denied, deniedById := some deniedById, deniedReason := reason
      resolvedAt := some (e.now 1) }
    ((s.set resolved).send (.denied approvalId request.refundRequest.paymentId
      request.initiatorId deniedById reason), .waiting (.denied resolved))

/-- A call from one `await` to the next. -/
def resume (options : Options) (e : Env) : Pc → Service → Service × Task
  | .start (.initiate refundRequest initiatorId), s =>
    initiate options e refundRequest initiatorId s
  | .start (.approve approvalId approverId), s => approve e approvalId approverId s
  | .start (.deny approvalId deniedById reason), s => deny e approvalId deniedById reason s
  | .start (.getById approvalId), s =>
    let (s, request) := s.getById (e.now 0) approvalId
    (s, .done (.ok (.found request)))
  | .start (.list status), s =>
    let (s, requests) := s.list e.now status
    (s, .done (.ok (.listed requests)))
  | pc@(.autoApproved refundRequest), s =>
    (s, logged e pc (.initiated (.autoApproved refundRequest)))
  | pc@(.initiated pending), s => (s, logged e pc (.initiated (.pendingRequest pending)))
  | pc@(.approved result checkedAt), s => (s, logged e pc (.approved result checkedAt))
  | pc@(.denied resolved), s => (s, logged e pc (.denied resolved))

def service (options : Options) : Program Request Env Service Pc Outcome where
  start := .start
  resume := resume options

abbrev State := Sys Request Service Pc Outcome

abbrev Cmd := Coop.Cmd Request Env

/-- A service without requests. -/
def opened : State := { shared := {} }

/-! ## What a segment does -/

variable {options : Options} {s s' : Service} {e : Env} {id : String}

theorem Service.get_set (s : Service) (request : PendingApprovalRequest) (id : String) :
    (s.set request).get id = if request.id = id then some request else s.get id :=
  get_put request s.store

variable {request r : PendingApprovalRequest}

/-- A request is read under its own id. -/
theorem Service.get_id (h : s.get id = some request) : s.get request.id = some request :=
  get_key h ▸ h

/-- Resolved requests stay as they are, and none is approved. -/
structure Ages (s s' : Service) : Prop where
  kept : ∀ id r, s.get id = some r → r.status ≠ .pending → s'.get id = some r
  approved : ∀ id r, s'.get id = some r → r.status = .approved → s.get id = some r

theorem Ages.refl (s : Service) : Ages s s := ⟨fun _ _ h _ => h, fun _ _ h _ => h⟩

theorem Ages.trans {s'' : Service} (h : Ages s s') (h' : Ages s' s'') : Ages s s'' :=
  ⟨fun id r hr hne => h'.kept id r (h.kept id r hr hne) hne,
    fun id r hr ha => h.approved id r (h'.approved id r hr ha) ha⟩

/-- A request takes the place of a pending one, or of none. -/
theorem kept_set (hold : ∀ r, s.get request.id = some r → r.status = .pending)
    (hr : s.get id = some r) (hne : r.status ≠ .pending) : (s.set request).get id = some r := by
  rw [Service.get_set, if_neg, hr]
  rintro rfl
  exact hne (hold r hr)

theorem ages_set (hold : ∀ r, s.get request.id = some r → r.status = .pending)
    (hnew : request.status ≠ .approved) : Ages s (s.set request) := by
  refine ⟨fun id r hr hne => kept_set hold hr hne, fun id r hr ha => ?_⟩
  rw [Service.get_set] at hr
  split at hr
  · cases hr
    exact absurd ha hnew
  · exact hr

theorem Ages.send (h : Ages s s') (entry : AuditEntry) : Ages s (s'.send entry) :=
  ⟨h.kept, h.approved⟩

theorem getById_ages (s : Service) (now : Int) (id : String) : Ages s (s.getById now id).1 := by
  rw [Service.getById]
  split
  · exact Ages.refl s
  next request hget =>
    split
    next hpending =>
      refine ages_set (fun r hr => ?_) (by simp)
      exact Option.some.inj ((Service.get_id hget).symm.trans hr) ▸ hpending.1
    · exact Ages.refl s

theorem listLoop_ages (now : Nat → Int) (status : Option ApprovalStatus) (ids : List String)
    (n : Nat) (s : Service) : Ages s (Service.listLoop now status ids n s).1 := by
  induction ids generalizing n s with
  | nil => exact Ages.refl s
  | cons id ids ih => exact (getById_ages s (now n) id).trans (ih _ _)

/-- `requirePending` finds a pending request in time and changes nothing,
or refuses. -/
theorem requirePending_cases (s : Service) (now : Int) (id : String) :
    (∃ s' error, s.requirePending now id = (s', .error error) ∧ Ages s s') ∨
      ∃ request, s.requirePending now id = (s, .ok request) ∧ s.get id = some request ∧
        request.status = .pending ∧ now < request.expiresAt := by
  have hages := getById_ages s now id
  rw [Service.requirePending]
  split
  next s' hfound =>
    rw [hfound] at hages
    exact .inl ⟨s', _, rfl, hages⟩
  next s' request hfound =>
    split
    next hpending =>
      right
      rw [Service.getById] at hfound
      split at hfound
      · cases (Prod.mk.inj hfound).2
      next old hget =>
        split at hfound
        · obtain ⟨-, hrequest⟩ := Prod.mk.inj hfound
          rw [← Option.some.inj hrequest] at hpending
          cases hpending
        next hlate =>
          obtain ⟨rfl, hrequest⟩ := Prod.mk.inj hfound
          obtain rfl := Option.some.inj hrequest
          exact ⟨old, rfl, hget, hpending, Int.not_le.mp fun hle => hlate ⟨hpending, hle⟩⟩
    · rw [hfound] at hages
      exact .inl ⟨s', _, rfl, hages⟩
    · rw [hfound] at hages
      exact .inl ⟨s', _, rfl, hages⟩

/-- The approval a call has stored, whether it has resolved or not. -/
def approval : Task → Option (ApproveResult × Int)
  | .waiting (.approved result checkedAt) => some (result, checkedAt)
  | .done (.error (.auditRejected (.approved result checkedAt))) => some (result, checkedAt)
  | .done (.ok (.approved result checkedAt)) => some (result, checkedAt)
  | _ => none

/-- The request of a call that has not run yet. -/
def unstarted : Task → Option Request
  | .waiting (.start request) => some request
  | _ => none

/-- The request an `approve` stores. -/
def PendingApprovalRequest.approvedBy (request : PendingApprovalRequest) (approverId : String)
    (resolvedAt : Int) : PendingApprovalRequest :=
  { request with
    status := .approved, approverId := some approverId, resolvedAt := some resolvedAt }

/-- The segment stores a new request. -/
def stores (options : Options) : Pc → Bool
  | .start (.initiate refundRequest initiatorId) =>
    trim initiatorId ≠ "" && options.requiresApproval refundRequest
  | _ => false

/-- The audit log leaves the approval to the call whether it rejects or
not. -/
theorem approval_logged {pc : Pc} {answer : Answer}
    (h : approval (.done (.ok answer)) = approval (.waiting pc)) (e : Env) :
    approval (logged e pc answer) = approval (.waiting pc) ∧
      unstarted (logged e pc answer) = none := by
  rw [logged]
  split
  · exact ⟨by cases pc <;> rfl, rfl⟩
  · exact ⟨h, rfl⟩

/-- **What a segment can do**: nothing to what is resolved or to its own
call's approval; or store the approval of a request it found pending, in
time and initiated by someone else. -/
theorem resume_cases (options : Options) (e : Env) (pc : Pc) (s : Service)
    (hfresh : stores options pc = true → s.get (generateId e) = none) :
    (Ages s (resume options e pc s).1 ∧
      approval (resume options e pc s).2 = approval (.waiting pc) ∧
      unstarted (resume options e pc s).2 = none) ∨
    ∃ id who request, pc = .start (.approve id who) ∧ s.get id = some request ∧
      request.status = .pending ∧ e.now 0 < request.expiresAt ∧ who ≠ request.initiatorId ∧
      (∀ id', (resume options e pc s).1.get id'
        = (s.set (request.approvedBy who (e.now 1))).get id') ∧
      (resume options e pc s).2
        = .waiting (.approved ⟨request.approvedBy who (e.now 1), request.refundRequest⟩
            (e.now 0)) := by
  cases pc with
  | start request =>
    cases request with
    | initiate refundRequest initiatorId =>
      left
      rw [resume, initiate]
      split
      · exact ⟨Ages.refl s, rfl, rfl⟩
      next hblank =>
        split
        · exact ⟨(Ages.refl s).send _, rfl, rfl⟩
        next hlarge =>
          have hnone := hfresh (by simp [stores, hblank, not_not.mp hlarge])
          refine ⟨(ages_set (fun r hr => ?_) (by simp [newRequest])).send _, rfl, rfl⟩
          cases hnone.symm.trans hr
    | approve id who =>
      rw [resume, approve]
      rcases requirePending_cases s (e.now 0) id with
        ⟨s', error, hrefused, hages⟩ | ⟨request, hfound, hget, hpending, hintime⟩
      · rw [hrefused]
        exact .inl ⟨hages, rfl, rfl⟩
      · rw [hfound]
        by_cases hself : who = request.initiatorId
        · dsimp only
          rw [if_pos hself]
          exact .inl ⟨Ages.refl s, rfl, rfl⟩
        · dsimp only
          rw [if_neg hself]
          exact .inr ⟨id, who, request, rfl, hget, hpending, hintime, hself, fun _ => rfl, rfl⟩
    | deny id deniedById reason =>
      left
      rw [resume, deny]
      rcases requirePending_cases s (e.now 0) id with
        ⟨s', error, hrefused, hages⟩ | ⟨request, hfound, hget, hpending, -⟩
      · rw [hrefused]
        exact ⟨hages, rfl, rfl⟩
      · rw [hfound]
        refine ⟨(ages_set (fun r hr => ?_) (by simp)).send _, rfl, rfl⟩
        exact Option.some.inj ((Service.get_id hget).symm.trans hr) ▸ hpending
    | getById id => exact .inl ⟨getById_ages s _ id, rfl, rfl⟩
    | list status => exact .inl ⟨listLoop_ages _ _ _ _ _, rfl, rfl⟩
  | autoApproved | initiated | approved | denied => exact .inl ⟨Ages.refl s, approval_logged rfl e⟩

/-! ## Runs -/

variable {σ : State} {k : Cmd}

/-- A new request gets an id that no other has. -/
def DrawsFresh (options : Options) (σ : State) (k : Cmd) : Prop :=
  match resumed σ k with
  | some (e, pc) => stores options pc = true → σ.shared.get (generateId e) = none
  | none => True

instance (options : Options) (σ : State) (k : Cmd) : Decidable (DrawsFresh options σ k) := by
  unfold DrawsFresh
  exact match resumed σ k with
    | some (_, _) => inferInstanceAs (Decidable (_ → _))
    | none => .isTrue trivial

theorem DrawsFresh.segment {pc : Pc} (h : DrawsFresh options σ k)
    (hk : resumed σ k = some (e, pc)) :
    stores options pc = true → σ.shared.get (generateId e) = none := by
  rw [DrawsFresh, hk] at h
  exact h

/-- A resolved request stays as it is. -/
theorem resume_kept {pc : Pc} (hfresh : stores options pc = true → s.get (generateId e) = none)
    (hr : s.get id = some r) (hne : r.status ≠ .pending) :
    (resume options e pc s).1.get id = some r := by
  rcases resume_cases options e pc s hfresh with
    ⟨hages, -⟩ | ⟨id', who, request, -, hget, hpending, -, -, hstored, -⟩
  · exact hages.kept id r hr hne
  · rw [hstored]
    refine kept_set (fun r' hr' => ?_) hr hne
    exact Option.some.inj ((Service.get_id hget).symm.trans hr') ▸ hpending

/-- What is known of a call: it runs its request; and what it has approved
is stored so, was in time, and was initiated by someone else. -/
structure Granted (s : Service) (request : Request) (task : Task) : Prop where
  own : ∀ request', unstarted task = some request' → request' = request
  stored : ∀ result checkedAt, approval task = some (result, checkedAt) →
    s.get result.approvedRequest.id = some result.approvedRequest ∧
    result.approvedRequest.status = .approved
  proper : ∀ result checkedAt, approval task = some (result, checkedAt) →
    result.refundRequest = result.approvedRequest.refundRequest ∧
    checkedAt < result.approvedRequest.expiresAt ∧
    ∃ who, request = .approve result.approvedRequest.id who ∧
      who ≠ result.approvedRequest.initiatorId

theorem granted_start (s : Service) (request : Request) :
    Granted s request (.waiting (.start request)) := by
  have hnone : approval (.waiting (.start request)) = none := rfl
  refine ⟨fun _ h => (Option.some.inj h).symm, fun _ _ h => ?_, fun _ _ h => ?_⟩
  · rw [hnone] at h
    cases h
  · rw [hnone] at h
    cases h

theorem Granted.kept {request : Request} {task : Task} (h : Granted s request task)
    (hkept : ∀ id r, s.get id = some r → r.status ≠ .pending → s'.get id = some r) :
    Granted s' request task := by
  refine ⟨h.own, fun result checkedAt hresult => ?_, h.proper⟩
  obtain ⟨hget, hstatus⟩ := h.stored result checkedAt hresult
  exact ⟨hkept _ _ hget (by rw [hstatus]; nofun), hstatus⟩

theorem granted_step (h : Each Granted σ) (hfresh : DrawsFresh options σ k) :
    Each Granted (step (service options) σ k) := by
  refine h.step (fun q => granted_start _ q) ?_ ?_
  · intro e q pc hk hpc
    have hkept : ∀ id r, σ.shared.get id = some r → r.status ≠ .pending →
        (resume options e pc σ.shared).1.get id = some r :=
      fun id r => resume_kept (hfresh.segment hk)
    rcases resume_cases options e pc σ.shared (hfresh.segment hk) with
      ⟨-, happroval, hstart⟩ | ⟨id, who, request, rfl, hget, hpending, hintime, hself, hstored, htask⟩
    · obtain ⟨-, hstored, hproper⟩ := hpc.kept hkept
      rw [← happroval] at hstored hproper
      exact ⟨fun q' hq' => absurd (hstart.symm.trans hq') (by simp), hstored, hproper⟩
    · obtain rfl := hpc.own _ rfl
      show Granted (resume options e _ σ.shared).1 _ (resume options e _ σ.shared).2
      rw [htask]
      refine ⟨fun q' hq' => ?_, fun result checkedAt hresult => ?_, fun result checkedAt hresult => ?_⟩
      · cases (show none = some q' from hq')
      · cases hresult
        exact ⟨by rw [hstored, Service.get_set, if_pos rfl], rfl⟩
      · cases hresult
        exact ⟨rfl, hintime, who, congrArg (Request.approve · who) (get_key hget).symm, hself⟩
  · intro e pc q task hk htask
    exact htask.kept fun id r => resume_kept (hfresh.segment hk)

/-! ## One approval -/

/-- The call has stored the approval of the request. -/
def wrote (id : String) (task : Task) : Bool :=
  (approval task).any fun grant => grant.1.approvedRequest.id = id

def Service.approved (s : Service) (id : String) : Bool :=
  (s.get id).any fun r => r.status = .approved

theorem Ages.approved_eq (h : Ages s s') (id : String) : s'.approved id = s.approved id := by
  rw [Bool.eq_iff_iff, Service.approved, Service.approved, Option.any_eq_true, Option.any_eq_true]
  constructor
  · rintro ⟨r, hr, ha⟩
    exact ⟨r, h.approved id r hr (of_decide_eq_true ha), ha⟩
  · rintro ⟨r, hr, ha⟩
    refine ⟨r, h.kept id r hr ?_, ha⟩
    rw [of_decide_eq_true ha]
    nofun

/-- One or nothing. -/
def count (b : Bool) : ℤ := if b then 1 else 0

/-- A segment approves a request when its own call becomes the one that
approved it. -/
theorem resume_approved {pc : Pc}
    (hfresh : stores options pc = true → s.get (generateId e) = none) (id : String) :
    count ((resume options e pc s).1.approved id) - count (s.approved id)
      = count (wrote id (resume options e pc s).2) - count (wrote id (.waiting pc)) := by
  rcases resume_cases options e pc s hfresh with
    ⟨hages, happroval, -⟩ | ⟨id', who, request, rfl, hget, hpending, -, -, hstored, htask⟩
  · rw [hages.approved_eq, wrote, happroval, wrote, Int.sub_self, Int.sub_self]
  · rw [htask]
    simp only [Service.approved, hstored, Service.get_set, wrote, approval, any_some, any_none]
    by_cases hid : request.id = id
    · have hold : s.get id = some request := hid ▸ Service.get_id hget
      simp [PendingApprovalRequest.approvedBy, hid, hold, hpending, count]
    · simp [PendingApprovalRequest.approvedBy, hid, count]

/-- As many calls have approved a request as it is approved: one, or none. -/
def Counted (σ : State) : Prop :=
  ∀ id, total (fun task => count (wrote id task)) σ = count (σ.shared.approved id)

theorem counted_step (h : Counted σ) (hfresh : DrawsFresh options σ k) :
    Counted (step (service options) σ k) := by
  intro id
  rw [total_step fun _ => rfl, h id, step_shared]
  cases hk : resumed σ k with
  | none => exact Int.add_zero _
  | some segment =>
    have hsegment := resume_approved (hfresh.segment hk) id
    show _ + (count (wrote id (resume options segment.1 segment.2 σ.shared).2) - _)
      = count ((resume options segment.1 segment.2 σ.shared).1.approved id)
    omega

/-- The calls that have approved a request. -/
theorem filter_wrote_length (h : Counted σ) (id : String) :
    (σ.calls.filter fun c => wrote id c.task).length = if σ.shared.approved id then 1 else 0 := by
  have hcount := h id
  simp only [count, total_indicator] at hcount
  split at hcount
  next happroved =>
    rw [if_pos happroved]
    omega
  next happroved =>
    rw [if_neg happroved]
    omega

/-! ## Approved, and resolved once -/

/-- Who approved the request, what they were given and when the request
was found pending, if this is a resolved `approve` of it. -/
def resolvedApprove (id : String) (c : Call Request Pc Outcome) :
    Option (String × ApproveResult × Int) :=
  match c.request, c.task with
  | .approve approvalId approverId, .done (.ok (.approved result checkedAt)) =>
    if approvalId = id then some (approverId, result, checkedAt) else none
  | _, _ => none

/-- Exactly one `approve` of the request has resolved: with its refund, by
someone else than its initiator and before it expired. -/
def ApprovedOnce (r : PendingApprovalRequest) (σ : State) : Prop :=
  ∃ approverId result checkedAt,
    σ.calls.filterMap (resolvedApprove r.id) = [(approverId, result, checkedAt)] ∧
    result.refundRequest = r.refundRequest ∧ approverId ≠ r.initiatorId ∧
    checkedAt < r.expiresAt

/-- An `approve` that has stored its approval of the request and waits for
the audit log, or was rejected by it. -/
def Unsettled (id : String) : Task → Prop
  | .waiting (.approved result _) => result.approvedRequest.id = id
  | .done (.error (.auditRejected (.approved result _))) => result.approvedRequest.id = id
  | _ => False

theorem approval_eq_some {task : Task} {result : ApproveResult} {checkedAt : Int}
    (h : approval task = some (result, checkedAt)) :
    task = .done (.ok (.approved result checkedAt)) ∨
      task = .waiting (.approved result checkedAt) ∨
      task = .done (.error (.auditRejected (.approved result checkedAt))) := by
  unfold approval at h
  split at h
  · cases h
    exact .inr (.inl rfl)
  · cases h
    exact .inr (.inr rfl)
  · cases h
    exact .inl rfl
  · cases h

/-- A call that has approved the request has resolved or is unsettled. -/
theorem wrote_cases {c : Call Request Pc Outcome} (hgranted : Granted s c.request c.task)
    (hwrote : wrote id c.task = true) :
    (∃ approverId result checkedAt, resolvedApprove id c = some (approverId, result, checkedAt) ∧
      s.get id = some result.approvedRequest ∧
      result.refundRequest = result.approvedRequest.refundRequest ∧
      approverId ≠ result.approvedRequest.initiatorId ∧
      checkedAt < result.approvedRequest.expiresAt ∧ ¬ Unsettled id c.task) ∨
    (resolvedApprove id c = none ∧ Unsettled id c.task) := by
  obtain ⟨⟨result, checkedAt⟩, happroval, hid⟩ := Option.any_eq_true _ _ |>.mp hwrote
  obtain ⟨hget, -⟩ := hgranted.stored result checkedAt happroval
  obtain ⟨hrefund, hintime, who, hrequest, hself⟩ := hgranted.proper result checkedAt happroval
  obtain rfl : result.approvedRequest.id = id := of_decide_eq_true hid
  obtain ⟨request, task⟩ := c
  obtain rfl : request = _ := hrequest
  rcases approval_eq_some happroval with hdone | hwaiting | hrejected
  · obtain rfl : task = _ := hdone
    exact .inl ⟨who, result, checkedAt, if_pos rfl, hget, hrefund, hself, hintime, id⟩
  · obtain rfl : task = _ := hwaiting
    exact .inr ⟨rfl, rfl⟩
  · obtain rfl : task = _ := hrejected
    exact .inr ⟨rfl, rfl⟩

theorem wrote_of_resolvedApprove {c : Call Request Pc Outcome}
    (hgranted : Granted s c.request c.task) {x : String × ApproveResult × Int}
    (h : resolvedApprove id c = some x) : wrote id c.task = true := by
  obtain ⟨request, task⟩ := c
  unfold resolvedApprove at h
  split at h
  next approvalId approverId result checkedAt hcall htask =>
    obtain rfl : request = _ := hcall
    obtain rfl : task = _ := htask
    obtain ⟨-, -, who, hrequest, -⟩ := hgranted.proper result checkedAt rfl
    obtain ⟨rfl, -⟩ := Request.approve.inj hrequest
    split at h
    next hid => exact decide_eq_true hid
    · cases h
  · cases h

theorem wrote_of_unsettled {task : Task} (h : Unsettled id task) : wrote id task = true := by
  unfold Unsettled at h
  split at h
  · exact decide_eq_true h
  · exact decide_eq_true h
  · exact h.elim

/-- Only the calls that have approved it count. -/
theorem filterMap_resolvedApprove (hgranted : Each Granted σ) (id : String) :
    σ.calls.filterMap (resolvedApprove id)
      = (σ.calls.filter fun c => wrote id c.task).filterMap (resolvedApprove id) := by
  rw [filterMap_filter]
  refine filterMap_congr fun c hc => ?_
  cases hresolved : resolvedApprove id c with
  | none => rw [ite_self]
  | some x => rw [if_pos (wrote_of_resolvedApprove (hgranted c hc) hresolved)]

/-- The two sides agree exactly when no `approve` is unsettled. -/
theorem approvedOnce_iff (hgranted : Each Granted σ) (hcounted : Counted σ)
    (hr : σ.shared.get id = some r) :
    (r.status = .approved ↔ ApprovedOnce r σ) ↔ ∀ c ∈ σ.calls, ¬ Unsettled id c.task := by
  obtain rfl := get_key hr
  have hlength := filter_wrote_length hcounted r.id
  have happroved : σ.shared.approved r.id = decide (r.status = .approved) := by
    rw [Service.approved, hr, any_some]
  rw [happroved] at hlength
  unfold ApprovedOnce
  rw [filterMap_resolvedApprove hgranted]
  by_cases hstatus : r.status = .approved
  · -- one call has approved it
    simp only [hstatus, decide_true, if_true] at hlength
    obtain ⟨c, hone⟩ := length_eq_one_iff.mp hlength
    have hc : c ∈ σ.calls ∧ wrote r.id c.task = true := mem_filter.mp (hone ▸ mem_singleton_self c)
    have honly : ∀ c' ∈ σ.calls, Unsettled r.id c'.task → c' = c := by
      intro c' hc' hunsettled
      rw [← mem_singleton, ← hone, mem_filter]
      exact ⟨hc', wrote_of_unsettled hunsettled⟩
    rw [hone]
    rcases wrote_cases (hgranted c hc.1) hc.2 with
      ⟨who, result, checkedAt, hresolved, hget, hrefund, hself, hintime, hsettled⟩ |
      ⟨hresolved, hunsettled⟩
    · cases hr.symm.trans hget
      refine iff_of_true (iff_of_true hstatus ?_) fun c' hc' hunsettled => ?_
      · exact ⟨who, result, checkedAt, by simp [hresolved], hrefund, hself, hintime⟩
      · exact hsettled (honly c' hc' hunsettled ▸ hunsettled)
    · refine iff_of_false (fun h => ?_) fun h => h c hc.1 hunsettled
      obtain ⟨who, result, checkedAt, hresult, -⟩ := h.mp hstatus
      simp [hresolved] at hresult
  · -- no call has
    simp only [hstatus, decide_false, Bool.false_eq_true, if_false] at hlength
    have hnone := eq_nil_of_length_eq_zero hlength
    rw [hnone]
    refine iff_of_true (iff_of_false hstatus ?_) fun c hc hunsettled => ?_
    · rintro ⟨who, result, checkedAt, hresult, -⟩
      cases hresult
    · have hmem : c ∈ σ.calls.filter fun c => wrote r.id c.task :=
        mem_filter.mpr ⟨hc, wrote_of_unsettled hunsettled⟩
      rw [hnone] at hmem
      cases hmem

/-- In every state of a run, a request is approved if and only if exactly
one `approve` of it has resolved properly, unless an `approve` of it is
unsettled; and a request that is denied or expired stays as it is. -/
theorem approved_once_iff (options : Options) (ks : List Cmd)
    (hfresh : Along (step (service options)) (DrawsFresh options) opened ks)
    (id : String) (r : PendingApprovalRequest)
    (hr : (Coop.run (service options) opened ks).shared.get id = some r) :
    ((r.status = .approved ↔ ApprovedOnce r (Coop.run (service options) opened ks)) ↔
      ∀ c ∈ (Coop.run (service options) opened ks).calls, ¬ Unsettled id c.task) ∧
    (r.status = .denied ∨ r.status = .expired →
      ∀ later, Along (step (service options)) (DrawsFresh options)
          (Coop.run (service options) opened ks) later →
        (Coop.run (service options) (Coop.run (service options) opened ks) later).shared.get id
          = some r) := by
  have hgranted : Each Granted (Coop.run (service options) opened ks) :=
    run_inv_along (fun _ _ h hfresh => granted_step h hfresh)
      (forall_mem_nil _) hfresh
  have hcounted : Counted (Coop.run (service options) opened ks) :=
    run_inv_along (fun _ _ h hfresh => counted_step h hfresh) (fun _ => rfl) hfresh
  refine ⟨approvedOnce_iff hgranted hcounted hr, fun hresolved later hlater => ?_⟩
  have hne : r.status ≠ .pending := by
    rcases hresolved with hdenied | hexpired
    · rw [hdenied]
      nofun
    · rw [hexpired]
      nofun
  exact run_inv_along (I := fun σ : State => σ.shared.get id = some r)
    (fun _ _ h hfresh => shared_step (I := fun s => s.get id = some r) h
      fun _ _ hk => resume_kept (hfresh.segment hk) h hne) hr hlater

/-- A refund of 20,000 dollars. -/
def largeRefund : CreateRefundRequest :=
  { paymentId := "pay_1", amountCents := 2000000, currency := some "USD", reason := none
    refundedBy := none }

/-- A clock that stands still, and the draw "x". -/
def quietly (auditRejects : Bool) : Env := { now := fun _ => 0, rand := "x", auditRejects }

/-- One admin initiates the refund and another approves it; the audit log
answers the approval so. -/
def signOff (auditRejects : Bool) : List Cmd :=
  [.call (.initiate largeRefund "ann"), .resume 0 (quietly false), .resume 0 (quietly false),
    .call (.approve "rap_0_x" "ben"), .resume 1 (quietly false), .resume 1 (quietly auditRejects)]

/-- The request they approve. -/
def signedOff : PendingApprovalRequest :=
  { id := "rap_0_x", refundRequest := largeRefund, initiatorId := "ann", status := .approved
    createdAt := 0, expiresAt := 1800000, approverId := some "ben", resolvedAt := some 0 }

theorem signOff_approved_once :
    (signedOff.status = .approved ↔
        ApprovedOnce signedOff (Coop.run (service {}) opened (signOff false))) ↔
      ∀ c ∈ (Coop.run (service {}) opened (signOff false)).calls, ¬ Unsettled "rap_0_x" c.task :=
  (approved_once_iff {} (signOff false) (by decide +kernel) "rap_0_x" signedOff
    (by decide +kernel)).1

/-- The request is denied. -/
def denial : List Cmd :=
  [.call (.initiate largeRefund "ann"), .resume 0 (quietly false),
    .call (.deny "rap_0_x" "ben" none), .resume 1 (quietly false)]

/-- Its id is drawn once more, in the same millisecond, and approved. -/
def drawnAgain : List Cmd :=
  [.call (.initiate largeRefund "ann"), .resume 2 (quietly false),
    .call (.approve "rap_0_x" "ben"), .resume 3 (quietly false)]

/-- The audit log rejects: the request is approved, and no `approve` of it
has resolved. And what has the id of a denied request is approved once the
id is drawn again. -/
theorem signOff_unaudited :
    (Coop.run (service {}) opened (signOff true)).shared.get "rap_0_x" = some signedOff ∧
      signedOff.status = .approved ∧
      (Coop.run (service {}) opened (signOff true)).calls.filterMap (resolvedApprove "rap_0_x")
        = [] ∧
    ((Coop.run (service {}) opened denial).shared.get "rap_0_x").map
        PendingApprovalRequest.status = some .denied ∧
      ((Coop.run (service {}) opened (denial ++ drawnAgain)).shared.get "rap_0_x").map
        PendingApprovalRequest.status = some .approved := by
  decide +kernel

end ChronoPay.PartialRefundApproval
