import ChronoPay.Lib.KeyedList
import ChronoPay.Lib.Machine

/-!
# TicketQueue — mutual exclusion by a chain of promises

A caller makes a ticket, remembers the promise at the end of the queue
and puts `queue.then(() => ticket)` in its place. It suspends on the
promise it remembers; once that is fulfilled its body runs without a
further suspension, and a `finally` resolves the ticket, whether the
body returned or threw.

Nothing here says that bodies run in the order of the calls: that is
`Lined`, which every command keeps. From it come the two things a client
needs. A run is a run of the bodies one after the other (`run_history`),
and in a fair schedule every call gets its turn (`eventually_ended`).

Operations that do not use the queue act directly, at any time.
-/

namespace TicketQueue

open List Machine Option

inductive Promise where
  | resolved
  /-- `before.then(() => ticket)`. -/
  | thenTicket (before : Promise) (ticket : Nat)
  deriving DecidableEq

/-- A promise by the tickets that are resolved. -/
def Promise.fulfilled (released : Nat → Bool) : Promise → Bool
  | resolved => true
  | thenTicket before ticket => before.fulfilled released && released ticket

/-- A call of the queued operation; its ticket is its position. -/
structure Job (Q R : Type*) where
  request : Q
  previous : Promise
  result : Option R := none

structure Sys (S Q R : Type*) where
  shared : S
  queue : Promise := .resolved
  jobs : List (Job Q R) := []

structure Program (S Q A E R : Type*) where
  /-- What a call does in its turn, from its `await` to its `finally`. -/
  body : E → Q → S → S × R
  direct : A → S → S

inductive Cmd (Q A E : Type*) where
  | call (q : Q)
  | direct (a : A)
  | resume (i : Nat) (e : E)

variable {S Q A E R : Type*}

/-- A ticket is resolved when its job has ended. -/
def Sys.released (σ : Sys S Q R) (ticket : Nat) : Bool :=
  (σ.jobs[ticket]?).any fun job => job.result.isSome

def step (p : Program S Q A E R) (σ : Sys S Q R) : Cmd Q A E → Sys S Q R
  | .call q =>
    { σ with
      queue := .thenTicket σ.queue σ.jobs.length
      jobs := σ.jobs ++ [{ request := q, previous := σ.queue }] }
  | .direct a => { σ with shared := p.direct a σ.shared }
  | .resume i e =>
    match σ.jobs[i]? with
    | some ⟨q, previous, none⟩ =>
      if previous.fulfilled σ.released then
        { σ with
          shared := (p.body e q σ.shared).1
          jobs := σ.jobs.set i ⟨q, previous, some (p.body e q σ.shared).2⟩ }
      else σ
    | _ => σ

abbrev run (p : Program S Q A E R) (σ : Sys S Q R) (ks : List (Cmd Q A E)) : Sys S Q R :=
  Machine.run (step p) σ ks

/-- The jobs that have ended, with what they ended in. -/
def history (σ : Sys S Q R) : List (Q × R) :=
  σ.jobs.filterMap fun job => job.result.map fun r => (job.request, r)

/-! ## The order of turns -/

/-- The promise at the end of the queue after `n` calls. -/
def promiseOf : Nat → Promise
  | 0 => .resolved
  | n + 1 => .thenTicket (promiseOf n) n

theorem fulfilled_promiseOf {released : Nat → Bool} {n : Nat} :
    (promiseOf n).fulfilled released = true ↔ ∀ i < n, released i = true := by
  induction n with
  | zero => simp [promiseOf, Promise.fulfilled]
  | succ n ih => rw [promiseOf, Promise.fulfilled, Bool.and_eq_true, ih, Nat.forall_lt_succ_right]

/-- Every call waits for all calls before it, and those that have ended
are the first ones. -/
structure Lined (σ : Sys S Q R) : Prop where
  queue : σ.queue = promiseOf σ.jobs.length
  previous : ∀ i job, σ.jobs[i]? = some job → job.previous = promiseOf i
  ended : ∀ i job, σ.jobs[i]? = some job → (job.result.isSome = true ↔ i < (history σ).length)
  bound : (history σ).length ≤ σ.jobs.length

variable {p : Program S Q A E R} {σ : Sys S Q R} {k : Cmd Q A E} {i : Nat} {job : Job Q R}
  {I : S → List (Q × R) → Prop}

theorem lined_empty (s : S) : Lined ({ shared := s } : Sys S Q R) where
  queue := rfl
  previous := by simp
  ended := by simp
  bound := by simp [history]

/-- Ending the first job that has not, adds to the end of the history. -/
theorem filterMap_set_first {α β : Type*} {f : α → Option β} {l : List α} {a : α} {b : β}
    {i : Nat} (hi : i < l.length) (hbefore : ∀ j x, l[j]? = some x → j < i → (f x).isSome = true)
    (hafter : ∀ j x, l[j]? = some x → i ≤ j → f x = none) (ha : f a = some b) :
    (l.set i a).filterMap f = l.filterMap f ++ [b] := by
  induction l generalizing i with
  | nil => cases hi
  | cons x l ih =>
    cases i with
    | zero =>
      have hx : f x = none := hafter 0 x rfl (Nat.le_refl 0)
      have hl : l.filterMap f = [] := by
        refine filterMap_eq_nil_iff.mpr fun y hy => ?_
        obtain ⟨j, hj⟩ := mem_iff_getElem?.mp hy
        exact hafter (j + 1) y hj (Nat.zero_le _)
      simp [ha, hx, hl]
    | succ i =>
      obtain ⟨y, hy⟩ := isSome_iff_exists.mp (hbefore 0 x rfl (Nat.succ_pos i))
      have := ih (Nat.lt_of_succ_lt_succ hi)
        (fun j z hj hlt => hbefore (j + 1) z hj (by omega))
        (fun j z hj hle => hafter (j + 1) z hj (by omega))
      simp [hy, this]

theorem Lined.result_eq_none (h : Lined σ)
    (hjob : σ.jobs[i]? = some job) : job.result = none ↔ (history σ).length ≤ i := by
  rw [← Nat.not_lt, ← h.ended i job hjob]
  simp

theorem Lined.released_iff (h : Lined σ) : σ.released i = true ↔ i < (history σ).length := by
  rw [Sys.released]
  cases hi : σ.jobs[i]? with
  | none =>
    have := List.getElem?_eq_none_iff.mp hi
    have := h.bound
    simp only [any_none, Bool.false_eq_true, false_iff]
    omega
  | some job => exact h.ended i job hi

/-- **Whose turn it is**: of the calls that have not ended, the promise of
the first one is fulfilled, and no other. -/
theorem Lined.ready_iff (h : Lined σ) (hjob : σ.jobs[i]? = some job) :
    job.previous.fulfilled σ.released = true ↔ i ≤ (history σ).length := by
  rw [h.previous i job hjob, fulfilled_promiseOf]
  constructor
  · intro hall
    apply Nat.le_of_not_lt
    intro hafter
    exact Nat.lt_irrefl _ (h.released_iff.mp (hall _ hafter))
  · intro hle j hj
    exact h.released_iff.mpr (by omega)

theorem Lined.history_end (h : Lined σ) {r : R} {s : S}
    (hjob : σ.jobs[(history σ).length]? = some job) :
    history { σ with
      shared := s
      jobs := σ.jobs.set (history σ).length { job with result := some r } }
      = history σ ++ [(job.request, r)] := by
  refine filterMap_set_first (List.getElem?_eq_some_iff.mp hjob).1 ?_ ?_ rfl
  · intro j job' hjob' hj
    obtain ⟨r, hr⟩ := isSome_iff_exists.mp ((h.ended j job' hjob').mpr hj)
    simp [hr]
  · intro j job' hjob' hj
    simp [(h.result_eq_none hjob').mpr hj]

/-- **What a command does to a lined-up queue**: a call joins, an operation
acts directly, the FIRST call that has not ended runs its body, or nothing
happens. -/
theorem Lined.step_cases (h : Lined σ) (k : Cmd Q A E) :
    (∃ q, k = .call q ∧ (step p σ k).shared = σ.shared ∧ history (step p σ k) = history σ) ∨
    (∃ a, k = .direct a ∧ (step p σ k).shared = p.direct a σ.shared ∧
      history (step p σ k) = history σ) ∨
    (∃ e job, k = .resume (history σ).length e ∧ σ.jobs[(history σ).length]? = some job ∧
      (step p σ k).shared = (p.body e job.request σ.shared).1 ∧
      (step p σ k).jobs = σ.jobs.set (history σ).length
        { job with result := some (p.body e job.request σ.shared).2 } ∧
      (step p σ k).queue = σ.queue ∧
      history (step p σ k)
        = history σ ++ [(job.request, (p.body e job.request σ.shared).2)]) ∨
    ((∀ e, k = .resume (history σ).length e → σ.jobs.length ≤ (history σ).length) ∧
      step p σ k = σ) := by
  cases k with
  | call q =>
    left
    exact ⟨q, rfl, rfl, by simp [history, step]⟩
  | direct a =>
    right; left
    exact ⟨a, rfl, rfl, rfl⟩
  | resume i e =>
    right; right
    cases hjob : σ.jobs[i]? with
    | none =>
      right
      refine ⟨fun e' he' => ?_, by simp only [step, hjob]⟩
      rw [← (Cmd.resume.inj he').1]
      exact List.getElem?_eq_none_iff.mp hjob
    | some job =>
      obtain ⟨q, previous, result⟩ := job
      rcases Nat.lt_trichotomy i (history σ).length with hbefore | rfl | hafter
      · -- it has ended
        right
        obtain ⟨r, rfl⟩ := isSome_iff_exists.mp ((h.ended i _ hjob).mpr hbefore)
        refine ⟨fun e' he' => ?_, by simp only [step, hjob]⟩
        have := (Cmd.resume.inj he').1
        omega
      · -- it is its turn
        left
        obtain rfl : result = none := (h.result_eq_none hjob).mpr (Nat.le_refl _)
        have hready : previous.fulfilled σ.released = true := (h.ready_iff hjob).mpr (Nat.le_refl _)
        have hstep : step p σ (.resume (history σ).length e) =
            { σ with
              shared := (p.body e q σ.shared).1
              jobs := σ.jobs.set (history σ).length
                ⟨q, previous, some (p.body e q σ.shared).2⟩ } := by
          simp only [step, hjob, hready, if_true]
        rw [hstep]
        exact ⟨e, _, rfl, hjob, rfl, rfl, rfl, h.history_end hjob⟩
      · -- it is not ready
        right
        obtain rfl : result = none := (h.result_eq_none hjob).mpr (Nat.le_of_lt hafter)
        have hready : ¬ previous.fulfilled σ.released = true :=
          fun hready => Nat.not_le.mpr hafter ((h.ready_iff hjob).mp hready)
        refine ⟨fun e' he' => ?_, by simp only [step, hjob, if_neg hready]⟩
        have := (Cmd.resume.inj he').1
        omega

theorem Lined.step (h : Lined σ) (k : Cmd Q A E) : Lined (step p σ k) := by
  obtain ⟨q, rfl, -, hhist⟩ | ⟨a, rfl, -, hhist⟩ | ⟨e, job, -, hjob, -, hjobs, hqueue, hhist⟩ |
    ⟨-, heq⟩ := h.step_cases (p := p) k
  · refine ⟨?_, ?_, ?_, ?_⟩
    · simp [TicketQueue.step, promiseOf, h.queue]
    · intro i job hi
      rcases KeyedList.getElem?_concat_some hi with hold | ⟨rfl, rfl⟩
      · exact h.previous i job hold
      · exact h.queue
    · intro i job hi
      rw [hhist]
      rcases KeyedList.getElem?_concat_some hi with hold | ⟨rfl, rfl⟩
      · exact h.ended i job hold
      · simpa using h.bound
    · rw [hhist]
      exact Nat.le_trans h.bound (by simp [TicketQueue.step])
  · exact ⟨h.queue, h.previous, h.ended, h.bound⟩
  · have hlt := (List.getElem?_eq_some_iff.mp hjob).1
    refine ⟨?_, ?_, ?_, ?_⟩
    · rw [hqueue, hjobs, length_set, h.queue]
    · intro i job' hi
      rw [hjobs, getElem?_set, if_pos hlt] at hi
      split at hi
      next hieq =>
        cases hi
        rw [← hieq]
        exact h.previous _ job hjob
      · exact h.previous i job' hi
    · intro i job' hi
      rw [hjobs, getElem?_set, if_pos hlt] at hi
      rw [hhist, length_append, length_singleton]
      split at hi
      next hieq =>
        cases hi
        simp [← hieq]
      next hne =>
        rw [h.ended i job' hi]
        omega
    · rw [hhist, hjobs, length_set, length_append, length_singleton]
      omega
  · rw [heq]
    exact h

theorem lined_run (s : S) (ks : List (Cmd Q A E)) :
    Lined (run p ({ shared := s } : Sys S Q R) ks) :=
  run_inv (I := Lined) (fun _ k h => h.step k) (lined_empty s) ks

/-- A property of the shared state and the history is kept by a command if
it is kept by the body or the direct operation behind it. -/
theorem Lined.step_history (h : Lined σ)
    (hbody : ∀ e q, I (p.body e q σ.shared).1 (history σ ++ [(q, (p.body e q σ.shared).2)]))
    (hdirect : ∀ a, k = .direct a → I (p.direct a σ.shared) (history σ))
    (hI : I σ.shared (history σ)) :
    I (TicketQueue.step p σ k).shared (history (TicketQueue.step p σ k)) := by
  obtain ⟨q, -, hshared, hhist⟩ | ⟨a, hk, hshared, hhist⟩ |
    ⟨e, job, -, -, hshared, -, -, hhist⟩ | ⟨-, heq⟩ := h.step_cases (p := p) k
  · rwa [hshared, hhist]
  · rw [hshared, hhist]
    exact hdirect a hk
  · rw [hshared, hhist]
    exact hbody e job.request
  · rwa [heq]

/-- A condition on the operations that act directly. -/
def OnDirect (C : S → List (Q × R) → A → Prop) (σ : Sys S Q R) : Cmd Q A E → Prop
  | .direct a => C σ.shared (history σ) a
  | _ => True

instance (C : S → List (Q × R) → A → Prop) [∀ s l a, Decidable (C s l a)] (σ : Sys S Q R)
    (k : Cmd Q A E) : Decidable (OnDirect C σ k) :=
  match k with
  | .direct a => inferInstanceAs (Decidable (C σ.shared (history σ) a))
  | .call _ => .isTrue trivial
  | .resume _ _ => .isTrue trivial

/-- **A run is a run of the bodies**: what every body keeps of the shared
state and the history, and every direct operation that meets a condition,
holds all along the runs whose direct operations meet it. -/
theorem always_history {C : S → List (Q × R) → A → Prop}
    (hbody : ∀ e q s l, I s l → I (p.body e q s).1 (l ++ [(q, (p.body e q s).2)]))
    (hdirect : ∀ a s l, I s l → C s l a → I (p.direct a s) l) {s : S} (hs : I s [])
    {ks : List (Cmd Q A E)}
    (hks : Along (step p) (OnDirect C) ({ shared := s } : Sys S Q R) ks) :
    Always (step p) (fun σ => Lined σ ∧ I σ.shared (history σ)) { shared := s } ks := by
  refine always_of_along ?_ ⟨lined_empty s, hs⟩ hks
  intro σ k ⟨hlined, hI⟩ hk
  refine ⟨hlined.step k, hlined.step_history (fun e q => hbody e q _ _ hI) ?_ hI⟩
  rintro a rfl
  exact hdirect a _ _ hI hk

theorem run_history
    (hbody : ∀ e q s l, I s l → I (p.body e q s).1 (l ++ [(q, (p.body e q s).2)]))
    (hdirect : ∀ a s l, I s l → I (p.direct a s) l) {s : S} (hs : I s [])
    (ks : List (Cmd Q A E)) :
    I (run p { shared := s } ks).shared (history (run p ({ shared := s } : Sys S Q R) ks)) :=
  (always_history (C := fun _ _ _ => True) hbody (fun a s l h _ => hdirect a s l h) hs
    (along_of_forall (fun _ k => by cases k <;> trivial) _ ks)).last.2

/-! ## Every call gets its turn -/

/-- The state after the first `n` commands of a schedule. -/
def trace (p : Program S Q A E R) (σ : Sys S Q R) (sched : Nat → Cmd Q A E) : Nat → Sys S Q R
  | 0 => σ
  | n + 1 => step p (trace p σ sched n) (sched n)

/-- The scheduler never forgets a call: each one is looked at again and
again. It need not be looked at when its turn has come. -/
def Fair (sched : Nat → Cmd Q A E) : Prop := ∀ i n, ∃ m, n ≤ m ∧ ∃ e, sched m = .resume i e

variable (p) (sched : Nat → Cmd Q A E)

theorem lined_trace (h : Lined σ) (n : Nat) : Lined (trace p σ sched n) := by
  induction n with
  | zero => exact h
  | succ n ih => exact ih.step _

variable {p} in
/-- Calls stay, and what has ended has ended. -/
theorem Lined.step_grows (h : Lined σ) (k : Cmd Q A E) :
    (history σ).length ≤ (history (TicketQueue.step p σ k)).length ∧
      σ.jobs.length ≤ (TicketQueue.step p σ k).jobs.length := by
  obtain ⟨q, rfl, -, hhist⟩ | ⟨a, rfl, -, hhist⟩ | ⟨e, job, -, -, -, hjobs, -, hhist⟩ |
    ⟨-, heq⟩ := h.step_cases (p := p) k
  · rw [hhist]
    simp [TicketQueue.step]
  · exact ⟨Nat.le_refl _, Nat.le_refl _⟩
  · rw [hhist, hjobs]
    simp
  · rw [heq]
    exact ⟨Nat.le_refl _, Nat.le_refl _⟩

theorem trace_grows (h : Lined σ) {n m : Nat} (hnm : n ≤ m) :
    (history (trace p σ sched n)).length ≤ (history (trace p σ sched m)).length ∧
      (trace p σ sched n).jobs.length ≤ (trace p σ sched m).jobs.length := by
  induction hnm with
  | refl => exact ⟨Nat.le_refl _, Nat.le_refl _⟩
  | @step m _ ih =>
    have := (lined_trace p sched h m).step_grows (p := p) (sched m)
    exact ⟨Nat.le_trans ih.1 this.1, Nat.le_trans ih.2 this.2⟩

variable {p sched} in
/-- **No call starves**: in a fair schedule every call that was made ends. -/
theorem eventually_ended (h : Lined σ) (hfair : Fair sched) {n i : Nat}
    (hi : i < (trace p σ sched n).jobs.length) :
    ∃ m, n ≤ m ∧ (trace p σ sched m).released i = true := by
  -- the turn passes from each call to the next: j ≤ i of them have ended
  have hturn : ∀ j, j ≤ i + 1 → ∃ m, n ≤ m ∧ j ≤ (history (trace p σ sched m)).length := by
    intro j
    induction j with
    | zero => exact fun _ => ⟨n, Nat.le_refl n, Nat.zero_le _⟩
    | succ j ih =>
      intro hj
      obtain ⟨m, hnm, hm⟩ := ih (by omega)
      obtain ⟨m', hmm', e, hm'⟩ := hfair j m
      have hgrow := (trace_grows p sched h hmm').1
      have hjobs := (trace_grows p sched h (Nat.le_trans hnm hmm')).2
      refine ⟨m' + 1, by omega, ?_⟩
      have hlined := lined_trace p sched h m'
      rcases Nat.lt_or_ge j (history (trace p σ sched m')).length with hlt | hge
      · exact Nat.le_trans hlt (hlined.step_grows _).1
      · have hnow : j = (history (trace p σ sched m')).length := by omega
        obtain ⟨q, hk, -⟩ | ⟨a, hk, -⟩ | ⟨e, job, -, -, -, -, -, hhist⟩ | ⟨hidle, -⟩ :=
          hlined.step_cases (p := p) (sched m')
        · cases hm'.symm.trans hk
        · cases hm'.symm.trans hk
        · rw [trace, hhist, length_append, length_singleton]
          omega
        · have := hidle e (by rw [hm', hnow])
          omega
  obtain ⟨m, hnm, hm⟩ := hturn (i + 1) (Nat.le_refl _)
  exact ⟨m, hnm, (lined_trace p sched h m).released_iff.mpr hm⟩

end TicketQueue
