import Mathlib.Tactic.TypeStar

/-!
# Fallible — computations on a state that may throw

What a computation has done to the state stays when it throws: there is no
rollback but the one it performs itself. `Triple P x Q E` says of both
ways out what holds there: started with `P`, the computation returns with
`Q` or throws with `E`. The rules follow the shape of the program, and the
failure of every step is answered by the same `E`.
-/

universe u

abbrev Fallible (ε σ α : Type u) := ExceptT ε (StateM σ) α

namespace Fallible

variable {ε σ α β : Type u}

/-- What comes of the computation, and the state it leaves. -/
def outcome (x : Fallible ε σ α) (s : σ) : Except ε α × σ := Id.run (StateT.run (ExceptT.run x) s)

def ofFun (f : σ → Except ε α × σ) : Fallible ε σ α := ExceptT.mk fun s => pure (f s)

def Triple (P : σ → Prop) (x : Fallible ε σ α) (Q : α → σ → Prop) (E : ε → σ → Prop) : Prop :=
  ∀ s, P s → match outcome x s with
    | (.ok a, s') => Q a s'
    | (.error e, s') => E e s'

section

variable {P P' : σ → Prop} {Q Q' : α → σ → Prop} {E E' : ε → σ → Prop} {x : Fallible ε σ α}

theorem outcome_bind (x : Fallible ε σ α) (f : α → Fallible ε σ β) (s : σ) :
    outcome (x >>= f) s = match outcome x s with
      | (.ok a, s') => outcome (f a) s'
      | (.error e, s') => (.error e, s') := by
  show Id.run (ExceptT.bindCont f (outcome x s).1 (outcome x s).2) = _
  rcases outcome x s with ⟨_ | _, _⟩ <;> rfl

theorem outcome_tryCatch (x : Fallible ε σ α) (handle : ε → Fallible ε σ α) (s : σ) :
    outcome (tryCatch x handle) s = match outcome x s with
      | (.ok a, s') => (.ok a, s')
      | (.error e, s') => outcome (handle e) s' := by
  show Id.run ((match (outcome x s).1 with
    | .ok a => pure (.ok a)
    | .error e => handle e : StateM σ (Except ε α)) (outcome x s).2) = _
  rcases outcome x s with ⟨_ | _, _⟩ <;> rfl

theorem Triple.ok (h : Triple P x Q E) {s s' : σ} {a : α} (hs : P s)
    (hx : outcome x s = (.ok a, s')) : Q a s' := by
  have := h s hs
  rwa [hx] at this

theorem Triple.error (h : Triple P x Q E) {s s' : σ} {e : ε} (hs : P s)
    (hx : outcome x s = (.error e, s')) : E e s' := by
  have := h s hs
  rwa [hx] at this

theorem Triple.mono (h : Triple P x Q E) (hP : ∀ s, P' s → P s) (hQ : ∀ a s, Q a s → Q' a s)
    (hE : ∀ e s, E e s → E' e s) : Triple P' x Q' E' := by
  intro s hs
  rcases hx : outcome x s with ⟨e | a, s'⟩
  · exact hE e s' (h.error (hP s hs) hx)
  · exact hQ a s' (h.ok (hP s hs) hx)

theorem Triple.pure {a : α} (h : ∀ s, P s → Q a s) : Triple P (Pure.pure a) Q E := h

theorem Triple.throw {e : ε} (h : ∀ s, P s → E e s) : Triple P (throw e : Fallible ε σ α) Q E := h

theorem Triple.ite {c : Prop} [Decidable c] {y : Fallible ε σ α} (hx : c → Triple P x Q E)
    (hy : ¬ c → Triple P y Q E) : Triple P (if c then x else y) Q E := by
  split
  · exact hx (by assumption)
  · exact hy (by assumption)

/-- What does not depend on the state may be assumed. -/
theorem Triple.given {p : Prop} (h : p → Triple P x Q E) : Triple (fun s => p ∧ P s) x Q E :=
  fun s hs => h hs.1 s hs.2

theorem Triple.given_exists {ι : Sort*} {P : ι → σ → Prop} (h : ∀ i, Triple (P i) x Q E) :
    Triple (fun s => ∃ i, P i s) x Q E := by
  intro s hs
  obtain ⟨i, hs⟩ := hs
  exact h i s hs

theorem Triple.bind {R : α → σ → Prop} {Q : β → σ → Prop} {f : α → Fallible ε σ β}
    (hx : Triple P x R E) (hf : ∀ a, Triple (R a) (f a) Q E) : Triple P (x >>= f) Q E := by
  intro s hs
  rw [outcome_bind]
  rcases hs' : outcome x s with ⟨e | a, s'⟩
  · exact hx.error hs hs'
  · exact hf a s' (hx.ok hs hs')

/-- The handler starts from what holds where the computation throws. -/
theorem Triple.tryCatch {R : ε → σ → Prop} {handle : ε → Fallible ε σ α} (hx : Triple P x Q R)
    (hhandle : ∀ e, Triple (R e) (handle e) Q E) : Triple P (tryCatch x handle) Q E := by
  intro s hs
  rw [outcome_tryCatch]
  rcases hs' : outcome x s with ⟨e | a, s'⟩
  · exact hhandle e s' (hx.error hs hs')
  · exact hx.ok hs hs'

end

end Fallible
