import Mathlib.Tactic.TypeStar

/-!
# Result — peeling `Except` computations apart

A `do` block over `Except` is taken apart one bind at a time with
`bind_eq_ok`; the guards of the source (`if … throw`) are `require`.
-/

namespace Result

open List

universe u v

variable {ε : Type u} {α β : Type v}

theorem bind_eq_ok {x : Except ε α} {f : α → Except ε β} {b : β} :
    (x >>= f) = .ok b ↔ ∃ a, x = .ok a ∧ f a = .ok b := by
  cases x with
  | error | ok => simp [Bind.bind, Except.bind]

/-- `if (!p) throw err`. -/
def require (p : Prop) [Decidable p] (err : ε) : Except ε Unit :=
  if p then .ok () else .error err

@[simp] theorem require_eq_ok {p : Prop} [Decidable p] {err : ε} {u : Unit} :
    require p err = .ok u ↔ p := by
  unfold require
  split <;> simp [*]

/-- The computation returned rather than threw. -/
def Ok (x : Except ε α) : Prop := ∃ a, x = .ok a

@[simp] theorem ok_ok (a : α) : Ok (.ok a : Except ε α) := ⟨a, rfl⟩

@[simp] theorem not_ok_error (e : ε) : ¬ Ok (.error e : Except ε α) := by
  rintro ⟨a, h⟩
  cases h

@[simp] theorem ok_require {p : Prop} [Decidable p] {err : ε} : Ok (require p err) ↔ p := by
  unfold require
  split <;> simp [*]

theorem mapError_eq_ok {ε' : Type u} {x : Except ε α} {f : ε → ε'} {a : α} :
    x.mapError f = .ok a ↔ x = .ok a := by
  cases x with
  | error e => exact ⟨nofun, nofun⟩
  | ok b =>
    constructor
    · rintro ⟨⟩; rfl
    · rintro ⟨⟩; rfl

/-- Partial correctness: the computation returns something with `P`, or
throws something with `E`. -/
def Meets (E : ε → Prop) (P : α → Prop) : Except ε α → Prop
  | .ok a => P a
  | .error e => E e

section

variable {E : ε → Prop} {P : α → Prop} {Q : β → Prop} {x : Except ε α} {f : α → Except ε β}

theorem Meets.bind (hx : Meets E P x) (hf : ∀ a, P a → Meets E Q (f a)) : Meets E Q (x >>= f) := by
  cases x with
  | error e => exact hx
  | ok a => exact hf a hx

theorem Meets.mono {P' : α → Prop} (hP : ∀ a, P a → P' a) (hx : Meets E P x) : Meets E P' x := by
  cases x with
  | error e => exact hx
  | ok a => exact hP a hx

/-- **Loops**: `I` says what holds after the elements gone through. -/
theorem Meets.foldlM {γ : Type*} {I : List γ → α → Prop} {f : α → γ → Except ε α} {l : List γ}
    {a : α} (hstep : ∀ past c a, c ∈ l → I past a → Meets E (I (past ++ [c])) (f a c))
    (ha : I [] a) : Meets E (I l) (l.foldlM f a) := by
  have hall : ∀ (rest past : List γ) (a : α), (∀ c ∈ rest, c ∈ l) → I past a →
      Meets E (I (past ++ rest)) (rest.foldlM f a) := by
    intro rest
    induction rest with
    | nil =>
      intro past a _ hpast
      rw [append_nil]
      exact hpast
    | cons c rest ih =>
      intro past a hrest hpast
      obtain ⟨hc, hrest⟩ := forall_mem_cons.mp hrest
      rw [foldlM_cons, append_cons]
      exact (hstep past c a hc hpast).bind fun a' ha' => ih (past ++ [c]) a' hrest ha'
  exact hall l [] a (fun _ hc => hc) ha

/-- What the computation returns is also its result. -/
theorem Meets.with_eq (hx : Meets E P x) : Meets E (fun a => x = .ok a ∧ P a) x := by
  cases x with
  | error e => exact hx
  | ok a => exact ⟨rfl, hx⟩

theorem meets_require {p : Prop} [Decidable p] {err : ε} {P : Unit → Prop} (herr : ¬ p → E err)
    (hp : p → P ()) : Meets E P (require p err) := by
  unfold require
  split
  · exact hp (by assumption)
  · exact herr (by assumption)

end

instance (x : Except ε α) : Decidable (Ok x) :=
  match x with
  | .ok a => .isTrue ⟨a, rfl⟩
  | .error e => .isFalse (not_ok_error e)

end Result
