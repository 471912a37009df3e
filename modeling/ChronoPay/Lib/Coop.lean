import ChronoPay.Lib.Machine

/-!
# Coop — cooperative calls over one shared state

The execution model of an event loop: a call runs without interruption
from one suspension point to the next, and between two such segments
any other call may run. A `Program` gives the first continuation of a
request and, for each continuation, the effect of resuming it once.

`Sys` is the shared state with the list of calls made so far, in the
order they were made; a finished call keeps its result. The commands
are "a client makes a call" and "call `i` is resumed", the latter with
the reading `E` of everything outside the system during that segment.
Resuming a finished or unknown call does nothing.
-/

namespace Coop

open List Machine

variable {Q E S L R : Type*}

/-- Where a call is: suspended at a continuation, or finished. -/
inductive Task (L R : Type*) where
  | waiting (pc : L)
  | done (result : R)
  deriving DecidableEq

structure Program (Q E S L R : Type*) where
  start : Q → L
  /-- Run one segment: new shared state, and where the call is now. -/
  resume : E → L → S → S × Task L R

structure Call (Q L R : Type*) where
  request : Q
  task : Task L R
  deriving DecidableEq

structure Sys (Q S L R : Type*) where
  shared : S
  calls : List (Call Q L R) := []

inductive Cmd (Q E : Type*) where
  | call (q : Q)
  | resume (i : Nat) (e : E)

def step (p : Program Q E S L R) (σ : Sys Q S L R) : Cmd Q E → Sys Q S L R
  | .call q => { σ with calls := σ.calls ++ [⟨q, .waiting (p.start q)⟩] }
  | .resume i e =>
    match σ.calls[i]? with
    | some ⟨q, .waiting pc⟩ =>
      { shared := (p.resume e pc σ.shared).1,
        calls := σ.calls.set i ⟨q, (p.resume e pc σ.shared).2⟩ }
    | _ => σ

/-- Every interleaving: the state after any list of commands. -/
abbrev run (p : Program Q E S L R) (σ : Sys Q S L R) (ks : List (Cmd Q E)) : Sys Q S L R :=
  Machine.run (step p) σ ks

/-- The continuation command `k` resumes in `σ`, if it resumes one. -/
def resumed (σ : Sys Q S L R) : Cmd Q E → Option (E × L)
  | .call _ => none
  | .resume i e =>
    match σ.calls[i]? with
    | some ⟨_, .waiting pc⟩ => some (e, pc)
    | _ => none

variable {p : Program Q E S L R} {σ : Sys Q S L R}

/-- Everything one command can do: add a call, run one segment of a
suspended call, or nothing. -/
theorem step_cases (σ : Sys Q S L R) (k : Cmd Q E) :
    (∃ q, k = .call q ∧ step p σ k = { σ with calls := σ.calls ++ [⟨q, .waiting (p.start q)⟩] }) ∨
    (∃ i e q pc, k = .resume i e ∧ σ.calls[i]? = some ⟨q, .waiting pc⟩ ∧
      resumed σ k = some (e, pc) ∧
      step p σ k = { shared := (p.resume e pc σ.shared).1,
                     calls := σ.calls.set i ⟨q, (p.resume e pc σ.shared).2⟩ }) ∨
    (resumed σ k = none ∧ step p σ k = σ) := by
  cases k with
  | call q => exact .inl ⟨q, rfl, rfl⟩
  | resume i e =>
    right
    simp only [resumed, step]
    split
    next q pc h => exact .inl ⟨i, e, q, pc, rfl, h, rfl, rfl⟩
    · exact .inr ⟨rfl, rfl⟩

/-- The shared state after one command is that of the resumed segment. -/
theorem step_shared (σ : Sys Q S L R) (k : Cmd Q E) :
    (step p σ k).shared = match resumed σ k with
      | some (e, pc) => (p.resume e pc σ.shared).1
      | none => σ.shared := by
  rcases step_cases (p := p) σ k with ⟨q, rfl, h⟩ | ⟨i, e, q, pc, rfl, hi, hr, h⟩ | ⟨hr, h⟩
  · simp [h, resumed]
  · simp [h, hr]
  · simp [h, hr]

variable {k : Cmd Q E} {pc : L} {e : E} {J : S → L → Prop}

/-- What the resumed segment keeps of the shared state, the command keeps. -/
theorem shared_step {I : S → Prop} (h : I σ.shared)
    (hseg : ∀ e pc, resumed σ k = some (e, pc) → I (p.resume e pc σ.shared).1) :
    I (step p σ k).shared := by
  rw [step_shared]
  split
  next e pc hresumed => exact hseg e pc hresumed
  · exact h

/-- A suspended call is still there after a command, or it is the one
that was resumed. -/
theorem mem_step_calls {c : Call Q L R} (hc : c ∈ σ.calls) (hpc : c.task = .waiting pc)
    (k : Cmd Q E) :
    c ∈ (step p σ k).calls ∨ ∃ e, resumed σ k = some (e, pc) ∧
      ⟨c.request, (p.resume e pc σ.shared).2⟩ ∈ (step p σ k).calls := by
  rcases step_cases (p := p) σ k with ⟨q, rfl, hk⟩ | ⟨i, e, q, pc', rfl, hi, hr, hk⟩ | ⟨-, hk⟩
  · rw [hk]
    exact .inl (mem_append_left _ hc)
  · rw [hk]
    obtain ⟨j, hj⟩ := mem_iff_getElem?.mp hc
    by_cases hij : i = j
    · right
      subst hij
      cases hi.symm.trans hj
      cases hpc
      have hlt : i < σ.calls.length := (List.getElem?_eq_some_iff.mp hi).1
      exact ⟨e, hr, mem_of_getElem? (i := i) (by simp [hlt])⟩
    · left
      exact mem_of_getElem? (i := j) (by rw [getElem?_set_ne hij]; exact hj)
  · rw [hk]
    exact .inl hc

theorem resumed_eq_some (h : resumed σ k = some (e, pc)) :
    ∃ i q, k = .resume i e ∧ σ.calls[i]? = some ⟨q, .waiting pc⟩ := by
  cases k with
  | call q => cases h
  | resume i e' =>
    simp only [resumed] at h
    split at h
    next q pc' hi =>
      cases h
      exact ⟨i, q, rfl, hi⟩
    · cases h

/-- The resumed call is in the list with the outcome of its segment. -/
theorem resumed_call (hk : resumed σ k = some (e, pc)) :
    ∃ q, ⟨q, .waiting pc⟩ ∈ σ.calls ∧ ⟨q, (p.resume e pc σ.shared).2⟩ ∈ (step p σ k).calls := by
  obtain ⟨i, q, rfl, hi⟩ := resumed_eq_some hk
  have hlt : i < σ.calls.length := (List.getElem?_eq_some_iff.mp hi).1
  refine ⟨q, mem_of_getElem? hi, mem_of_getElem? (i := i) ?_⟩
  simp only [step, hi, getElem?_set_self hlt]

theorem getElem?_set_eq_some {α : Type*} {l : List α} {i j : Nat} {a b : α}
    (h : (l.set i a)[j]? = some b) : (j = i ∧ b = a) ∨ (j ≠ i ∧ l[j]? = some b) := by
  by_cases hij : i = j
  · subst hij
    rw [getElem?_set_self'] at h
    obtain ⟨-, -, rfl⟩ := Option.map_eq_some_iff.mp h
    exact .inl ⟨rfl, rfl⟩
  · rw [getElem?_set_ne hij] at h
    exact .inr ⟨Ne.symm hij, h⟩

/-- Every suspended call is at a continuation that fits the shared state. -/
def Held (J : S → L → Prop) (σ : Sys Q S L R) : Prop :=
  ∀ c ∈ σ.calls, ∀ pc, c.task = .waiting pc → J σ.shared pc

theorem Held.at_resumed (h : Held J σ) (hk : resumed σ k = some (e, pc)) : J σ.shared pc := by
  obtain ⟨i, q, -, hi⟩ := resumed_eq_some hk
  exact h _ (mem_of_getElem? hi) pc rfl

/-- **Frame rule**: a call that is made meets the condition; the segment
that runs re-establishes it for its own call, and does not spoil it for
the OTHER calls. -/
theorem Held.step_others (h : Held J σ)
    (hstart : ∀ q, k = .call q → J σ.shared (p.start q))
    (hself : ∀ e pc pc', resumed σ k = some (e, pc) → J σ.shared pc →
      (p.resume e pc σ.shared).2 = .waiting pc' → J (p.resume e pc σ.shared).1 pc')
    (hframe : ∀ i e q pc j q' pc', k = .resume i e → σ.calls[i]? = some ⟨q, .waiting pc⟩ →
      j ≠ i → σ.calls[j]? = some ⟨q', .waiting pc'⟩ → J σ.shared pc → J σ.shared pc' →
      J (p.resume e pc σ.shared).1 pc') : Held J (step p σ k) := by
  rcases step_cases (p := p) σ k with ⟨q, rfl, hk⟩ | ⟨i, e, q, pc, rfl, hi, hr, hk⟩ | ⟨-, hk⟩
  · rw [hk]
    refine forall_mem_append.mpr ⟨h, forall_mem_singleton.mpr fun pc hpc => ?_⟩
    cases hpc
    exact hstart q rfl
  · have hpc : J σ.shared pc := h _ (mem_of_getElem? hi) pc rfl
    rw [hk]
    intro c hc pc' hpc'
    obtain ⟨j, hj⟩ := mem_iff_getElem?.mp hc
    rcases getElem?_set_eq_some hj with ⟨rfl, rfl⟩ | ⟨hji, hj⟩
    · exact hself e pc pc' hr hpc hpc'
    · obtain ⟨q', task⟩ := c
      obtain rfl := hpc'
      exact hframe i e q pc j q' pc' rfl hi hji hj hpc (h _ (mem_of_getElem? hj) pc' rfl)
  · rwa [hk]

/-- The frame rule for a condition no segment spoils. -/
theorem Held.step (h : Held J σ)
    (hstart : ∀ q, J σ.shared (p.start q))
    (hself : ∀ e pc pc', resumed σ k = some (e, pc) → J σ.shared pc →
      (p.resume e pc σ.shared).2 = .waiting pc' → J (p.resume e pc σ.shared).1 pc')
    (hframe : ∀ e pc pc', resumed σ k = some (e, pc) → J σ.shared pc → J σ.shared pc' →
      J (p.resume e pc σ.shared).1 pc') : Held J (step p σ k) := by
  refine h.step_others (fun q _ => hstart q) hself ?_
  intro i e q pc j q' pc' hk hi _ _
  exact hframe e pc pc' (by subst hk; simp [resumed, hi])

/-- Every call, suspended or finished, fits the shared state. -/
def Each (J : S → Q → Task L R → Prop) (σ : Sys Q S L R) : Prop :=
  ∀ c ∈ σ.calls, J σ.shared c.request c.task

/-- The frame rule for calls whether suspended or finished. -/
theorem Each.step {J : S → Q → Task L R → Prop} (h : Each J σ)
    (hstart : ∀ q, J σ.shared q (.waiting (p.start q)))
    (hself : ∀ e q pc, resumed σ k = some (e, pc) → J σ.shared q (.waiting pc) →
      J (p.resume e pc σ.shared).1 q (p.resume e pc σ.shared).2)
    (hframe : ∀ e pc q task, resumed σ k = some (e, pc) → J σ.shared q task →
      J (p.resume e pc σ.shared).1 q task) : Each J (step p σ k) := by
  rcases step_cases (p := p) σ k with ⟨q, rfl, hk⟩ | ⟨i, e, q, pc, rfl, hi, hr, hk⟩ | ⟨-, hk⟩
  · rw [hk]
    exact forall_mem_append.mpr ⟨h, forall_mem_singleton.mpr (hstart q)⟩
  · rw [hk]
    intro c hc
    rcases mem_or_eq_of_mem_set hc with hc | rfl
    · exact hframe e pc _ _ hr (h c hc)
    · exact hself e q pc hr (h _ (mem_of_getElem? hi))
  · rwa [hk]

/-- Every finished call has a result that fits the shared state. -/
def Ended (K : S → R → Prop) (σ : Sys Q S L R) : Prop :=
  ∀ c ∈ σ.calls, ∀ r, c.task = .done r → K σ.shared r

/-- The frame rule for results: the segment that finishes a call
establishes the condition, and no segment spoils it later. -/
theorem Ended.step {K : S → R → Prop} (h : Ended K σ)
    (hself : ∀ e pc r, resumed σ k = some (e, pc) → (p.resume e pc σ.shared).2 = .done r →
      K (p.resume e pc σ.shared).1 r)
    (hframe : ∀ e pc r, resumed σ k = some (e, pc) → K σ.shared r →
      K (p.resume e pc σ.shared).1 r) : Ended K (step p σ k) :=
  Each.step (J := fun s _ task => ∀ r, task = .done r → K s r) h (fun _ _ hr => by cases hr)
    (fun e _ pc hk _ r => hself e pc r hk)
    fun e pc _ _ hk hcall r hr => hframe e pc r hk (hcall r hr)

/-! ## What only one call at a time holds -/

section

variable {T : Type*} {token : L → Option T}

/-- The token a call holds at its suspension point. -/
def heldBy (token : L → Option T) (c : Call Q L R) : Option T :=
  match c.task with
  | .waiting pc => token pc
  | .done _ => none

theorem heldBy_eq_some {c : Call Q L R} {t : T} :
    heldBy token c = some t ↔ ∃ pc, c.task = .waiting pc ∧ token pc = some t := by
  obtain ⟨q, pc | r⟩ := c
  · simp [heldBy]
  · simp [heldBy]

/-- No two calls hold the same token. -/
def Exclusive (token : L → Option T) (σ : Sys Q S L R) : Prop :=
  ∀ (i j : Nat) (c c' : Call Q L R) (t : T), σ.calls[i]? = some c → σ.calls[j]? = some c' →
    heldBy token c = some t → heldBy token c' = some t → i = j

/-- No call holds the token. -/
def Free (token : L → Option T) (t : T) (σ : Sys Q S L R) : Prop :=
  ∀ c ∈ σ.calls, heldBy token c ≠ some t

instance [DecidableEq T] (t : T) (σ : Sys Q S L R) : Decidable (Free token t σ) :=
  inferInstanceAs (Decidable (∀ c ∈ σ.calls, _))

/-- A token that is free after a command was free before, unless it was
the resumed call that held it. -/
theorem Free.of_step {t : T} (h : Free token t (step p σ k))
    (hk : ∀ e pc, resumed σ k = some (e, pc) → token pc ≠ some t) : Free token t σ := by
  intro c hc hheld
  obtain ⟨pc, hpc, htoken⟩ := heldBy_eq_some.mp hheld
  rcases mem_step_calls (p := p) hc hpc k with hmem | ⟨e, hresumed, -⟩
  · exact h c hmem hheld
  · exact hk e pc hresumed htoken

/-- Nor does the resumed call hold it where it stops. -/
theorem Free.next {t : T} {pc' : L} (h : Free token t (step p σ k))
    (hk : resumed σ k = some (e, pc)) (hnext : (p.resume e pc σ.shared).2 = .waiting pc') :
    token pc' ≠ some t := by
  obtain ⟨q, -, hmem⟩ := resumed_call (p := p) hk
  rw [hnext] at hmem
  exact h _ hmem

/-- **Exclusion rule**: a token is only taken when no call holds it. -/
theorem Exclusive.step (h : Exclusive token σ)
    (hstart : ∀ q, token (p.start q) = none)
    (htake : ∀ e pc pc' t, resumed σ k = some (e, pc) →
      (p.resume e pc σ.shared).2 = .waiting pc' → token pc' = some t →
      token pc = some t ∨ Free token t σ) :
    Exclusive token (step p σ k) := by
  rcases step_cases (p := p) σ k with ⟨q, rfl, hk⟩ | ⟨n, e, q, pc, rfl, hn, hr, hk⟩ | ⟨-, hk⟩
  · -- a fresh call holds nothing
    have hold : ∀ (i : Nat) c t, (Coop.step p σ (.call q)).calls[i]? = some c →
        heldBy token c = some t → σ.calls[i]? = some c := by
      intro i c t hi ht
      rw [hk] at hi
      rw [getElem?_append] at hi
      split at hi
      · exact hi
      · obtain rfl := mem_singleton.mp (mem_of_getElem? hi)
        exact absurd ((hstart q).symm.trans ht) nofun
    intro i j c c' t hi hj ht ht'
    exact h i j c c' t (hold i c t hi ht) (hold j c' t hj ht') ht ht'
  · -- what the resumed call holds now, no other call held before
    have hfree : ∀ (j : Nat) c t, j ≠ n → σ.calls[j]? = some c → heldBy token c = some t →
        heldBy token ⟨q, (p.resume e pc σ.shared).2⟩ ≠ some t := by
      intro j c t hjn hj ht hnew
      cases hnext : (p.resume e pc σ.shared).2 with
      | done r =>
        rw [hnext] at hnew
        cases hnew
      | waiting pc' =>
        rw [hnext] at hnew
        rcases htake e pc pc' t hr hnext hnew with hpc | hnone
        · exact hjn (h j n c ⟨q, .waiting pc⟩ t hj hn ht hpc)
        · exact hnone c (mem_of_getElem? hj) ht
    intro i j c c' t hi hj ht ht'
    rw [hk] at hi hj
    rcases getElem?_set_eq_some hi with ⟨hin, rfl⟩ | ⟨hin, hi⟩
    · rcases getElem?_set_eq_some hj with ⟨hjn, -⟩ | ⟨hjn, hj⟩
      · exact hin.trans hjn.symm
      · exact absurd ht (hfree j c' t hjn hj ht')
    · rcases getElem?_set_eq_some hj with ⟨-, rfl⟩ | ⟨hjn, hj⟩
      · exact absurd ht' (hfree i c t hin hi ht)
      · exact h i j c c' t hi hj ht ht'
  · rwa [hk]

end

/-! ## Calls that come to an end -/

/-- Segments left to run, for a program whose continuations are ranked. -/
def Task.fuel (rank : L → Nat) : Task L R → Nat
  | .waiting pc => rank pc + 1
  | .done _ => 0

theorem Task.fuel_eq_zero {rank : L → Nat} {task : Task L R} :
    task.fuel rank = 0 ↔ ∃ r, task = .done r := by
  cases task with
  | waiting | done => simp [Task.fuel]

/-- **Progress**: if every segment lowers the rank, a call that is
resumed often enough is finished, whatever the other calls did before. -/
theorem resumed_done {rank : L → Nat}
    (hrank : ∀ e pc s pc', (p.resume e pc s).2 = .waiting pc' → rank pc' < rank pc)
    {i : Nat} {c : Call Q L R} (hi : σ.calls[i]? = some c) (es : List E)
    (hes : c.task.fuel rank ≤ es.length) :
    ∃ r, (run p σ (es.map (.resume i))).calls[i]? = some ⟨c.request, .done r⟩ := by
  induction es generalizing σ c with
  | nil =>
    obtain ⟨q, pc | r⟩ := c
    · simp [Task.fuel] at hes
    · exact ⟨r, hi⟩
  | cons e es ih =>
    obtain ⟨q, pc | r⟩ := c
    · have hlt : i < σ.calls.length := (List.getElem?_eq_some_iff.mp hi).1
      have hstep : step p σ (.resume i e) = ⟨(p.resume e pc σ.shared).1,
          σ.calls.set i ⟨q, (p.resume e pc σ.shared).2⟩⟩ := by simp only [step, hi]
      rw [map_cons, run, run_cons, hstep]
      refine ih (c := ⟨q, (p.resume e pc σ.shared).2⟩) (by simp [hlt]) ?_
      cases hnext : (p.resume e pc σ.shared).2 with
      | done r => simp [Task.fuel]
      | waiting pc' =>
        have := hrank e pc σ.shared pc' hnext
        simp only [Task.fuel, length_cons] at hes ⊢
        omega
    · have hstep : step p σ (.resume i e) = σ := by simp only [step, hi]
      rw [map_cons, run, run_cons, hstep]
      exact ih hi (by simp [Task.fuel])

/-! ## A call on its own -/

/-- Run a call without interruption for at most `n` segments. -/
def finish (p : Program Q E S L R) (e : E) : Nat → L → S → S × Task L R
  | 0, pc, s => (s, .waiting pc)
  | n + 1, pc, s =>
    match p.resume e pc s with
    | (s', .waiting pc') => finish p e n pc' s'
    | (s', .done r) => (s', .done r)

/-- What every segment keeps of the shared state and of the place the call
goes on at, a call on its own keeps. -/
theorem finish_inv {I : S → Prop}
    (hseg : ∀ pc s, I s → J s pc → I (p.resume e pc s).1 ∧
      ∀ pc', (p.resume e pc s).2 = .waiting pc' → J (p.resume e pc s).1 pc')
    (n : Nat) {s : S} (hI : I s) (hJ : J s pc) : I (finish p e n pc s).1 := by
  induction n generalizing pc s with
  | zero => exact hI
  | succ n ih =>
    obtain ⟨hI', hJ'⟩ := hseg pc s hI hJ
    rw [finish]
    split
    next s' pc' hnext =>
      rw [hnext] at hI' hJ'
      exact ih hI' (hJ' pc' rfl)
    next s' r hnext =>
      rw [hnext] at hI'
      exact hI'

/-- **Total correctness**: if every segment keeps a condition on where the
call goes on and lowers the rank, a call on its own comes to an end, with
what the last segment establishes. -/
theorem finish_spec (rank : L → Nat) {J : S → L → Prop} {K : S → R → Prop} {e : E}
    (hnext : ∀ pc s pc', J s pc → (p.resume e pc s).2 = .waiting pc' →
      J (p.resume e pc s).1 pc' ∧ rank pc' < rank pc)
    (hdone : ∀ pc s r, J s pc → (p.resume e pc s).2 = .done r → K (p.resume e pc s).1 r)
    {n : Nat} {pc : L} {s : S} (hJ : J s pc) (hn : rank pc < n) :
    ∃ r, (finish p e n pc s).2 = .done r ∧ K (finish p e n pc s).1 r := by
  induction n generalizing pc s with
  | zero => exact absurd hn (Nat.not_lt_zero _)
  | succ n ih =>
    rw [finish]
    split
    next s' pc' hresume =>
      obtain ⟨hJ', hlt⟩ := hnext pc s pc' hJ (by rw [hresume])
      rw [hresume] at hJ'
      exact ih hJ' (by omega)
    next s' r hresume =>
      have hK := hdone pc s r hJ (by rw [hresume])
      rw [hresume] at hK
      exact ⟨r, rfl, hK⟩

/-- If every segment lowers the rank, a call on its own comes to an end. -/
theorem finish_done (rank : L → Nat)
    (hrank : ∀ pc s pc', (p.resume e pc s).2 = .waiting pc' → rank pc' < rank pc) {n : Nat} {s : S}
    (hn : rank pc < n) : ∃ r, (finish p e n pc s).2 = .done r := by
  obtain ⟨r, hr, -⟩ := finish_spec (J := fun _ _ => True) (K := fun _ _ => True) rank
    (fun pc s pc' _ h => ⟨trivial, hrank pc s pc' h⟩) (fun _ _ _ _ _ => trivial) trivial hn
  exact ⟨r, hr⟩

end Coop
