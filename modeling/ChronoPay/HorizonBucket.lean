import Mathlib.Tactic.Common
import ChronoPay.Lib.Machine

/-!
# HorizonBucket — the token bucket in front of Horizon

`fetchJson` acquires a token, sends its request and feeds the rate-limit
headers of the answer back into the bucket. A request that finds the
bucket empty waits in a queue, and the queue is looked at in two places
only: when an answer arrives (`update`), and when the timer that a 429
armed fires (`backoff`).

`Served` is what the queue relies on: whoever waits, waits for a request
in flight or for a timer. No event of the bucket's own re-establishes it,
so a request that is queued when nothing is under way, or left behind by
the last request to end, waits for ever; `served_iff` says these two
(`Strands`) are the only ways to lose it.
-/

namespace ChronoPay.HorizonBucket

open List Machine

/-! ## The bucket -/

/-- An answer of Horizon; a header is the number `parseInt` finds in it,
`none` where it is absent or holds none. -/
structure Answer where
  status : Nat
  rateLimitRemaining : Option Int := none
  rateLimitReset : Option Int := none
  /-- `none` where the header is absent. -/
  retryAfter : Option (Option Int) := none

/-- How `fetchJson` settles. -/
inductive Outcome where
  | json
  /-- "Horizon returned malformed JSON response" -/
  | malformed
  /-- The error of `fetch`. -/
  | networkError
  /-- `HorizonHttpError` -/
  | httpError (status : Nat)
  /-- `ContractRateLimitError` -/
  | queueFull (depth : Nat)
  deriving DecidableEq

/-- Where a call of `fetchJson` is. -/
inductive Phase where
  /-- Waiting for a token. -/
  | queued
  /-- It has a token, and waits for `fetch`. -/
  | sent
  /-- It has the headers, and waits for the body. -/
  | reading (answer : Answer)
  | settled (outcome : Outcome)

structure Bucket where
  /-- `-1`: unknown. -/
  remaining : Int := 10
  resetAtMs : Int := 0
  maxQueueDepth : Nat := 200
  /-- The waiting calls, first come first. -/
  queue : List Nat := []

namespace Bucket

/-- `this.remaining > 0 || this.remaining === -1`. -/
def Available (remaining : Int) : Prop := 0 < remaining ∨ remaining = -1

instance (remaining : Int) : Decidable (Available remaining) :=
  inferInstanceAs (Decidable (_ ∨ _))

/-- What taking a token leaves. -/
def spend (remaining : Int) : Int := if 0 < remaining then remaining - 1 else remaining

/-- `acquire` by the call with a number. -/
def acquire (b : Bucket) (now : Int) (call : Nat) : Bucket × Phase :=
  if Available b.remaining then ({ b with remaining := spend b.remaining }, .sent)
  else if 0 < b.resetAtMs ∧ b.resetAtMs ≤ now then ({ b with remaining := -1 }, .sent)
  else if b.maxQueueDepth ≤ b.queue.length then (b, .settled (.queueFull b.maxQueueDepth))
  else ({ b with queue := b.queue ++ [call] }, .queued)

/-- The loop of `drain`: the calls it resolves, and what is left. -/
def drainLoop : Int → List Nat → List Nat × Int × List Nat
  | remaining, [] => ([], remaining, [])
  | remaining, call :: queue =>
    if Available remaining then
      let rest := drainLoop (spend remaining) queue
      (call :: rest.1, rest.2)
    else ([], remaining, call :: queue)

/-- The new headers, before the queue is drained. -/
def learn (b : Bucket) (remaining resetEpoch : Option Int) : Bucket :=
  { b with
    remaining := match remaining with
      | some n => if 0 ≤ n then n else b.remaining
      | none => b.remaining
    resetAtMs := match resetEpoch with
      | some epoch => if 0 < epoch then epoch * 1000 else b.resetAtMs
      | none => b.resetAtMs }

/-- How long `backoff` waits. -/
def waitMs (b : Bucket) (now : Int) (retryAfterMs : Option Int) : Int :=
  match retryAfterMs with
  | some ms => if 0 < ms then ms else fallback
  | none => fallback
where
  fallback : Int := if now < b.resetAtMs then b.resetAtMs - now else 1000

end Bucket

/-- The bucket of a host, the calls of `fetchJson` on it in the order they
were made, and the armed timers of `backoff`. -/
structure State where
  bucket : Bucket
  calls : List Phase := []
  timers : List Int := []

namespace State

/-- Resolve the promises of the calls. -/
def grant (granted : List Nat) (calls : List Phase) : List Phase :=
  granted.foldl (fun calls call => calls.set call .sent) calls

/-- `drain`; its guard against re-entry never applies, as a resolved call
goes on later. -/
def drain (s : State) : State :=
  let drained := Bucket.drainLoop s.bucket.remaining s.bucket.queue
  { s with
    bucket := { s.bucket with remaining := drained.2.1, queue := drained.2.2 }
    calls := grant drained.1 s.calls }

/-- `update` -/
def update (s : State) (remaining resetEpoch : Option Int) : State :=
  drain { s with bucket := s.bucket.learn remaining resetEpoch }

end State

/-- The delay `fetchJson` asks for after a 429. -/
def retryAfterMs (answer : Answer) (now : Int) : Option Int :=
  match answer.retryAfter with
  | some (some seconds) => if 0 < seconds then some (seconds * 1000) else none
  | some none => none
  | none =>
    match answer.rateLimitReset with
    | some epoch => if 0 < epoch then some (max 0 (epoch * 1000 - now)) else none
    | none => none

def Answer.ok (answer : Answer) : Prop := 200 ≤ answer.status ∧ answer.status ≤ 299

instance (answer : Answer) : Decidable answer.ok := inferInstanceAs (Decidable (_ ∧ _))

/-! ## Events -/

inductive Event where
  /-- A call is made. -/
  | fetchJson (now : Int)
  | networkError (call : Nat)
  | answered (call : Nat) (answer : Answer)
  /-- The body of an answer has arrived. -/
  | bodyRead (call : Nat) (now : Int) (wellFormed : Bool)
  /-- A timer fires. -/
  | timeout (timer : Nat)

/-- How a call goes on with the body of its answer. -/
def settle (s : State) (call : Nat) (answer : Answer) (now : Int) (wellFormed : Bool) : State :=
  if answer.ok then
    { s with calls := s.calls.set call (.settled (if wellFormed then .json else .malformed)) }
  else
    { s with
      calls := s.calls.set call (.settled (.httpError answer.status))
      timers := if answer.status = 429 then
          s.timers ++ [s.bucket.waitMs now (retryAfterMs answer now)]
        else s.timers }

/-- An event of a call that is not in the phase for it, or of a timer that
is not armed, is none. -/
def step (s : State) : Event → State
  | .fetchJson now =>
    let acquired := s.bucket.acquire now s.calls.length
    { s with bucket := acquired.1, calls := s.calls ++ [acquired.2] }
  | .networkError call =>
    match s.calls[call]? with
    | some .sent => { s with calls := s.calls.set call (.settled .networkError) }
    | _ => s
  | .answered call answer =>
    match s.calls[call]? with
    | some .sent =>
      State.update { s with calls := s.calls.set call (.reading answer) }
        answer.rateLimitRemaining answer.rateLimitReset
    | _ => s
  | .bodyRead call now wellFormed =>
    match s.calls[call]? with
    | some (.reading answer) => settle s call answer now wellFormed
    | _ => s
  | .timeout timer =>
    match s.timers[timer]? with
    | some _ =>
      State.drain { s with
        bucket := { s.bucket with remaining := -1 }
        timers := s.timers.eraseIdx timer }
    | none => s

/-- A bucket no call has used yet. -/
def opened (initialCapacity : Int) (maxQueueDepth : Nat) : State :=
  { bucket := { remaining := initialCapacity, maxQueueDepth } }

/-! ## Who is waited for -/

/-- The call has acquired a token and is not settled. -/
def Phase.InFlight : Phase → Prop
  | .sent => True
  | .reading _ => True
  | .queued => False
  | .settled _ => False

instance : DecidablePred Phase.InFlight := fun phase =>
  match phase with
  | .sent => .isTrue trivial
  | .reading _ => .isTrue trivial
  | .queued => .isFalse id
  | .settled _ => .isFalse id

/-- Some call is in flight. -/
def Busy (calls : List Phase) : Prop := ∃ phase ∈ calls, phase.InFlight

instance (calls : List Phase) : Decidable (Busy calls) :=
  inferInstanceAs (Decidable (∃ phase ∈ calls, phase.InFlight))

/-- Some other call is in flight. -/
def BusyBeside (call : Nat) (calls : List Phase) : Prop :=
  ∃ other phase, other ≠ call ∧ calls[other]? = some phase ∧ phase.InFlight

/-- Whoever waits, waits for a call in flight or for a timer. -/
def Served (s : State) : Prop := s.bucket.queue ≠ [] → Busy s.calls ∨ s.timers ≠ []

/-- The call that ends is the last one the queue could wait for. -/
def EndsLast (s : State) (call : Nat) : Prop :=
  s.bucket.queue ≠ [] ∧ ¬ BusyBeside call s.calls ∧ s.timers = []

/-- The event leaves a call waiting for nothing: it queues one when nothing
is under way, or it ends the last call without a 429. -/
def Strands (s : State) : Event → Prop
  | .fetchJson now =>
    (s.bucket.acquire now s.calls.length).2 = .queued ∧ ¬ Busy s.calls ∧ s.timers = []
  | .networkError call => s.calls[call]? = some .sent ∧ EndsLast s call
  | .bodyRead call _ _ =>
    ∃ answer, s.calls[call]? = some (.reading answer) ∧ answer.status ≠ 429 ∧ EndsLast s call
  | .answered _ _ => False
  | .timeout _ => False

variable {s : State} {calls : List Phase} {call : Nat}

theorem busy_append_singleton {phase : Phase} :
    Busy (calls ++ [phase]) ↔ Busy calls ∨ phase.InFlight := by
  simp [Busy, or_and_right, exists_or]

theorem busy_iff_getElem? :
    Busy calls ↔ ∃ (i : Nat) (phase : Phase), calls[i]? = some phase ∧ phase.InFlight := by
  constructor
  · rintro ⟨phase, hmem, hflight⟩
    obtain ⟨i, hi⟩ := mem_iff_getElem?.mp hmem
    exact ⟨i, phase, hi, hflight⟩
  · rintro ⟨i, phase, hi, hflight⟩
    exact ⟨phase, mem_of_getElem? hi, hflight⟩

theorem busy_set_settled {outcome : Outcome} :
    Busy (calls.set call (.settled outcome)) ↔ BusyBeside call calls := by
  rw [busy_iff_getElem?, BusyBeside]
  constructor
  · rintro ⟨i, phase, hi, hflight⟩
    by_cases hcall : call = i
    · subst hcall
      rw [getElem?_set_self'] at hi
      obtain ⟨_, -, rfl⟩ := Option.map_eq_some_iff.mp hi
      exact absurd hflight id
    · rw [getElem?_set_ne hcall] at hi
      exact ⟨i, phase, Ne.symm hcall, hi, hflight⟩
  · rintro ⟨i, phase, hne, hi, hflight⟩
    exact ⟨i, phase, by rw [getElem?_set_ne (Ne.symm hne)]; exact hi, hflight⟩

theorem Busy.set_of_inFlight {phase : Phase} (h : Busy calls) (hphase : phase.InFlight) :
    Busy (calls.set call phase) := by
  obtain ⟨i, old, hi, hflight⟩ := busy_iff_getElem?.mp h
  have hlt := (List.getElem?_eq_some_iff.mp hi).1
  by_cases hcall : call = i
  · subst hcall
    exact busy_iff_getElem?.mpr ⟨call, phase, getElem?_set_self hlt, hphase⟩
  · exact busy_iff_getElem?.mpr ⟨i, old, by rw [getElem?_set_ne hcall]; exact hi, hflight⟩

theorem Busy.grant {granted : List Nat} (h : Busy calls) : Busy (State.grant granted calls) := by
  induction granted generalizing calls with
  | nil => exact h
  | cons call granted ih => exact ih (h.set_of_inFlight trivial)

/-- Without a count, everyone is let through. -/
theorem drainLoop_unknown (queue : List Nat) : Bucket.drainLoop (-1) queue = (queue, -1, []) := by
  induction queue with
  | nil => rfl
  | cons call queue ih =>
    show (call :: (Bucket.drainLoop (-1) queue).1, (Bucket.drainLoop (-1) queue).2) = _
    rw [ih]

/-- A call that ends leaves the others served unless it was the last. -/
theorem served_settled {outcome : Outcome} :
    Served { s with calls := s.calls.set call (.settled outcome) } ↔ ¬ EndsLast s call := by
  simp only [Served, EndsLast, busy_set_settled]
  tauto

/-- What the bucket does to a call that asks for a token. -/
theorem acquire_cases (b : Bucket) (now : Int) (call : Nat) :
    ((b.acquire now call).2 = .sent ∧ (b.acquire now call).1.queue = b.queue) ∨
    (∃ depth, (b.acquire now call).2 = .settled (.queueFull depth) ∧ (b.acquire now call).1 = b) ∨
    ((b.acquire now call).2 = .queued ∧ ¬ Bucket.Available b.remaining ∧
      (b.acquire now call).1 = { b with queue := b.queue ++ [call] }) := by
  unfold Bucket.acquire
  split
  · exact .inl ⟨rfl, rfl⟩
  next hnone =>
    split
    · exact .inl ⟨rfl, rfl⟩
    · split
      · exact .inr (.inl ⟨_, rfl, rfl⟩)
      · exact .inr (.inr ⟨rfl, hnone, rfl⟩)

/-- **One event**: the queue stays served exactly if the event does not
strand a call. -/
theorem step_served (s : State) (e : Event) (h : Served s) : Served (step s e) ↔ ¬ Strands s e := by
  cases e with
  | fetchJson now =>
    simp only [Served, step, Strands, busy_append_singleton]
    rcases acquire_cases s.bucket now s.calls.length with
      ⟨hphase, hqueue⟩ | ⟨depth, hphase, hbucket⟩ | ⟨hphase, -, hbucket⟩
    · simp [hphase, Phase.InFlight]
    · simp only [hphase, hbucket, Phase.InFlight, or_false]
      exact ⟨fun _ hstrands => by simp at hstrands, fun _ => h⟩
    · simp only [hphase, hbucket, Phase.InFlight]
      simp
      tauto
  | networkError call =>
    simp only [step, Strands]
    split
    next hsent =>
      rw [served_settled, hsent]
      simp
    next hother => exact ⟨fun _ hstrands => hother hstrands.1, fun _ => h⟩
  | answered call answer =>
    simp only [step, Strands, not_false_eq_true, iff_true]
    split
    next hsent =>
      have hbusy : Busy (s.calls.set call (.reading answer)) :=
        Busy.set_of_inFlight ⟨.sent, mem_of_getElem? hsent, trivial⟩ trivial
      exact fun _ => .inl hbusy.grant
    · exact h
  | bodyRead call now wellFormed =>
    simp only [step, Strands]
    split
    next answer hreading =>
      unfold settle
      split
      next hok =>
        have hstatus : answer.status ≠ 429 := by
          intro h429
          have := hok.2
          omega
        rw [served_settled, hreading]
        simp [hstatus]
      · by_cases h429 : answer.status = 429
        · simp [Served, h429, hreading]
        · simp only [if_neg h429]
          rw [served_settled, hreading]
          simp [h429]
    next hother =>
      refine ⟨fun _ hstrands => ?_, fun _ => h⟩
      obtain ⟨answer, hreading, -⟩ := hstrands
      exact hother answer hreading
  | timeout timer =>
    simp only [step, Strands, not_false_eq_true, iff_true]
    split
    · intro hqueue
      simp [State.drain, drainLoop_unknown] at hqueue
    · exact h

/-- Along every run of a bucket, whoever waits has a request in flight or a
timer to wait for, exactly if no event of the run strands a call. -/
theorem served_iff (initialCapacity : Int) (maxQueueDepth : Nat) (events : List Event) :
    Always step Served (opened initialCapacity maxQueueDepth) events ↔
      Along step (fun s e => ¬ Strands s e) (opened initialCapacity maxQueueDepth)
        events :=
  always_iff_along step_served (fun h => absurd rfl h) events

/-- Horizon grants no more, until a reset that is still to come; the next
request is queued behind nobody. -/
def emptyUntilReset : List Event :=
  [.fetchJson 0,
    .answered 0 { status := 200, rateLimitRemaining := some 0, rateLimitReset := some 60 },
    .bodyRead 0 1000 true, .fetchJson 2000]

theorem emptyUntilReset_stranded :
    (Machine.run step (opened 10 200) emptyUntilReset).bucket.queue = [1] ∧
      ¬ Busy (Machine.run step (opened 10 200) emptyUntilReset).calls ∧
      (Machine.run step (opened 10 200) emptyUntilReset).timers = [] := by
  decide

end ChronoPay.HorizonBucket
