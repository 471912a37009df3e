import ChronoPay.EscrowProjector

/-!
# EscrowListener — `runEscrowListenerTick`

One tick reads the cursor and the tip, fetches ONE PAGE of events from
the ledger after the cursor, claims and projects those that are final,
and writes the highest ledger it has seen as the new cursor. The chain
is a sorted list that grows; `getEvents` is a prefix of what it has from
a ledger on. What can fail from outside (the two contract calls, a
claim, a projection, the cursor write) is part of the tick's input; a
failed projection gives its claim back.

Pages are cut by event COUNT while the cursor counts ledgers.
-/

namespace ChronoPay

open Function

namespace EscrowListener

/-! ## The chain -/

/-- Order of events on the chain: by ledger, then by index. -/
def Before (e e' : EscrowEvent) : Prop :=
  e.ledgerSeq < e'.ledgerSeq ∨ e.ledgerSeq = e'.ledgerSeq ∧ e.eventIndex ≤ e'.eventIndex

instance (e e' : EscrowEvent) : Decidable (Before e e') :=
  inferInstanceAs (Decidable (_ ∨ _))

structure Chain where
  events : List EscrowEvent
  sorted : events.Pairwise Before

/-- Append events; a chain that would not be sorted does not grow. -/
def Chain.grow (chain : Chain) (events : List EscrowEvent) : Chain :=
  if h : (chain.events ++ events).Pairwise Before then ⟨chain.events ++ events, h⟩
  else chain

structure GetEventsArgs where
  startLedger : Nat
  limit : Nat
  deriving DecidableEq, Repr

/-- The events from a ledger on. -/
def Chain.from (chain : Chain) (startLedger : Nat) : List EscrowEvent :=
  chain.events.filter fun event => startLedger ≤ event.ledgerSeq

def Chain.getEvents (chain : Chain) (args : GetEventsArgs) : List EscrowEvent :=
  (chain.from args.startLedger).take args.limit

/-! ## Options, failures and results -/

structure EscrowListenerOptions where
  instanceId : String
  pageLimit : Int := 100
  finalityDepth : Int := 2
  freshnessSloSeconds : ℚ := 60
  /-- The allow-list of the projector. -/
  contractAddressAllowList : List String := []
  deriving DecidableEq, Repr

inductive EventFault where
  | claim
  | projection
  deriving DecidableEq, Repr

/-- What a tick gets from outside. -/
structure TickEnv where
  /-- The tip `getLatestLedger` reports; `none` when the call fails. -/
  latestLedgerSeq : Option Int
  /-- `getEvents` fails, or the batch it returns is not valid. -/
  fetchFails : Bool := false
  /-- What fails at the i-th event of the page. -/
  fault : Nat → Option EventFault := fun _ => none
  cursorWriteFails : Bool := false
  now : Int := 0

inductive ListenerError where
  | pageLimit (received : Int)
  | finalityDepth (received : Int)
  | getLatestLedger
  | invalidLatestLedger (latestLedgerSeq : Int)
  | getEvents
  | claim (key : String)
  | projection (key : String) (err : ProjectionError)
  | cursorWrite
  deriving DecidableEq, Repr

abbrev ProjectionCounts := ProjectionResultKind → Nat

def emptyProjectionCounts : ProjectionCounts := fun _ => 0

structure EscrowListenerTickResult where
  instanceId : String
  cursorBefore : Option Nat
  cursorAfter : Option Nat
  tipLedgerSeq : Nat
  safeTipLedgerSeq : Nat
  fetchedEvents : Nat
  appliedEvents : Nat
  duplicateIdempotencyHits : Nat
  projectionCounts : ProjectionCounts
  freshestAppliedCloseTime : Option Int
  freshnessSeconds : Option ℚ
  freshnessExceededSlo : Bool
  lagSequences : Nat

/-- The listener's stores and the booking state, next to the chain. -/
structure ListenerState where
  chain : Chain
  cursors : String → Option Nat := fun _ => none
  claims : String → Bool := fun _ => false
  store : Store

/-! ## The loop over a page -/

structure Progress where
  claims : String → Bool
  store : Store
  maxProcessedSeq : Nat
  appliedEvents : Nat := 0
  duplicateIdempotencyHits : Nat := 0
  projectionCounts : ProjectionCounts := emptyProjectionCounts
  freshestAppliedCloseTime : Option Int := none

def incrementProjectionCount (counts : ProjectionCounts) (kind : ProjectionResultKind) :
    ProjectionCounts :=
  update counts kind (counts kind + 1)

/-- The bookkeeping of a projected event. -/
def Progress.record (p : Progress) (event : EscrowEvent) (outcome : ProjectionOutcome) : Progress :=
  let p := { p with projectionCounts := incrementProjectionCount p.projectionCounts outcome.result }
  if outcome.result = .applied then
    { p with
      appliedEvents := p.appliedEvents + 1
      freshestAppliedCloseTime :=
        match p.freshestAppliedCloseTime with
        | none => some event.closeTime
        | some freshest => some (if event.closeTime > freshest then event.closeTime else freshest) }
  else p

/-- `project`, which throws when its repositories are not available. -/
def projectOrThrow (contractAddressAllowList : List String) (fault : Option EventFault)
    (event : EscrowEvent) (store : Store) : Except ProjectionError (Store × ProjectionOutcome) :=
  if fault = some .projection then .error .unavailable
  else EscrowStateProjector.project contractAddressAllowList event store

/-- One event of the page. An event past the finality window is skipped
for now; every other one moves `maxProcessedSeq`, whatever becomes of it. -/
def applyEvent (contractAddressAllowList : List String) (safeTipSeq : Nat)
    (fault : Option EventFault) (event : EscrowEvent) (p : Progress) :
    Progress × Option ListenerError :=
  if event.ledgerSeq > safeTipSeq then (p, none)
  else
    let p := { p with maxProcessedSeq := max p.maxProcessedSeq event.ledgerSeq }
    let key := eventKey event
    if fault = some .claim then (p, some (.claim key))
    else if p.claims key then
      ({ p with
          duplicateIdempotencyHits := p.duplicateIdempotencyHits + 1
          projectionCounts := incrementProjectionCount p.projectionCounts .noopSlotAlready }, none)
    else
      let claimed := update p.claims key true
      match projectOrThrow contractAddressAllowList fault event p.store with
      | .error err => ({ p with claims := update claimed key false }, some (.projection key err))
      | .ok (store, outcome) => ({ p with claims := claimed, store }.record event outcome, none)

/-- The events of a page in order, the i-th one of the rest with `fault i`. -/
def applyEvents (contractAddressAllowList : List String) (safeTipSeq : Nat)
    (fault : Nat → Option EventFault) : Nat → List EscrowEvent → Progress →
    Progress × Option ListenerError
  | _, [], p => (p, none)
  | i, event :: rest, p =>
    match applyEvent contractAddressAllowList safeTipSeq (fault i) event p with
    | (p', some err) => (p', some err)
    | (p', none) => applyEvents contractAddressAllowList safeTipSeq fault (i + 1) rest p'

/-! ## The tick -/

/-- `cursorStore.set`, which refuses to go back. -/
def setCursor (cursors : String → Option Nat) (instanceId : String) (value : Nat) :
    Option (String → Option Nat) :=
  if (cursors instanceId).any fun current => decide (value < current) then none
  else some (update cursors instanceId (some value))

/-- The highest ledger that counts as final for a tip. -/
def safeTip (finalityDepth tipLedgerSeq : Int) : Nat := (tipLedgerSeq - finalityDepth).toNat

/-- Where the next page starts. -/
def nextPage (options : EscrowListenerOptions) (cursor : Option Nat) : GetEventsArgs :=
  { startLedger := cursor.getD 0 + 1, limit := options.pageLimit.toNat }

def finalizeTickResult (options : EscrowListenerOptions) (now : Int)
    (cursorBefore cursorAfter : Option Nat) (tipLedgerSeq safeTipSeq fetchedEvents : Nat)
    (p : Progress) (lagSequences : Nat) : EscrowListenerTickResult :=
  let freshnessSeconds : Option ℚ :=
    p.freshestAppliedCloseTime.map fun closeTime => max 0 ((now - closeTime) / 1000)
  { instanceId := options.instanceId
    cursorBefore
    cursorAfter
    tipLedgerSeq
    safeTipLedgerSeq := safeTipSeq
    fetchedEvents
    appliedEvents := p.appliedEvents
    duplicateIdempotencyHits := p.duplicateIdempotencyHits
    projectionCounts := p.projectionCounts
    freshestAppliedCloseTime := p.freshestAppliedCloseTime
    freshnessSeconds
    freshnessExceededSlo :=
      freshnessSeconds.any fun seconds => decide (seconds > options.freshnessSloSeconds)
    lagSequences }

/-- The checks at the head of the tick, and the tip. -/
def readTip (options : EscrowListenerOptions) (env : TickEnv) : Except ListenerError Nat :=
  if options.pageLimit ≤ 0 then .error (.pageLimit options.pageLimit)
  else if options.finalityDepth < 0 then .error (.finalityDepth options.finalityDepth)
  else match env.latestLedgerSeq with
    | none => .error .getLatestLedger
    | some tip => if tip < 0 then .error (.invalidLatestLedger tip) else .ok tip.toNat

/-- Write the cursor when the page moved it, and report. -/
def finishTick (options : EscrowListenerOptions) (env : TickEnv) (tipLedgerSeq safeTipSeq : Nat)
    (fetchedEvents : Nat) (p : Progress) (s : ListenerState) :
    ListenerState × Except ListenerError EscrowListenerTickResult :=
  let cursorBefore := s.cursors options.instanceId
  let result := finalizeTickResult options env.now cursorBefore (some p.maxProcessedSeq)
    tipLedgerSeq safeTipSeq fetchedEvents p (safeTipSeq - p.maxProcessedSeq)
  if p.maxProcessedSeq > cursorBefore.getD 0 then
    if env.cursorWriteFails then (s, .error .cursorWrite)
    else match setCursor s.cursors options.instanceId p.maxProcessedSeq with
      | none => (s, .error .cursorWrite)
      | some cursors => ({ s with cursors }, .ok result)
  else (s, .ok result)

def runEscrowListenerTick (options : EscrowListenerOptions) (env : TickEnv) (s : ListenerState) :
    ListenerState × Except ListenerError EscrowListenerTickResult :=
  match readTip options env with
  | .error err => (s, .error err)
  | .ok tipLedgerSeq =>
    let cursorBefore := s.cursors options.instanceId
    let safeTipSeq := safeTip options.finalityDepth tipLedgerSeq
    let idle : Progress :=
      { claims := s.claims, store := s.store, maxProcessedSeq := cursorBefore.getD 0 }
    if cursorBefore.any fun cursor => decide (cursor ≥ safeTipSeq) then
      (s, .ok (finalizeTickResult options env.now cursorBefore cursorBefore tipLedgerSeq
        safeTipSeq 0 idle 0))
    else if env.fetchFails then (s, .error .getEvents)
    else
      let page := s.chain.getEvents (nextPage options cursorBefore)
      match applyEvents options.contractAddressAllowList safeTipSeq env.fault 0 page idle with
      | (p, some err) => ({ s with claims := p.claims, store := p.store }, .error err)
      | (p, none) =>
        finishTick options env tipLedgerSeq safeTipSeq page.length p
          { s with claims := p.claims, store := p.store }

/-! ## Runs -/

inductive ListenerCmd where
  | grow (events : List EscrowEvent)
  | tick (options : EscrowListenerOptions) (env : TickEnv)

def step (s : ListenerState) : ListenerCmd → ListenerState
  | .grow events => { s with chain := s.chain.grow events }
  | .tick options env => (runEscrowListenerTick options env s).1

end EscrowListener

end ChronoPay
