import Mathlib.Tactic.TypeStar

/-!
# Machine — runs of a deterministic machine

A machine is a step function `σ → κ → σ`: everything the outside world
decides (which request moves, what a clock reads, whether a call fails)
is part of the command, so "every run" is "every list of commands".

Two ways to speak about a run: `Always` is about the states it visits,
`Along` about the commands it executes, each judged in the state before
it. The rules below pass from a fact about one step to a fact about all
runs; nothing else in the development does an induction over commands.
-/

namespace Machine

variable {σ κ : Type*} (step : σ → κ → σ)

/-- The state after the commands `ks`, executed in order. -/
def run (s : σ) (ks : List κ) : σ := ks.foldl step s

/-- `Q` holds in every state the run visits, the first one included. -/
def Always (Q : σ → Prop) : σ → List κ → Prop
  | s, [] => Q s
  | s, k :: ks => Q s ∧ Always Q (step s k) ks

/-- `P` holds of every command of the run in the state it is executed in. -/
def Along (P : σ → κ → Prop) : σ → List κ → Prop
  | _, [] => True
  | s, k :: ks => P s k ∧ Along P (step s k) ks

instance (P : σ → κ → Prop) [∀ s k, Decidable (P s k)] (s : σ) :
    (ks : List κ) → Decidable (Along step P s ks)
  | [] => .isTrue trivial
  | k :: ks =>
    have := instDecidableAlong P (step s k) ks
    inferInstanceAs (Decidable (P s k ∧ Along step P (step s k) ks))

variable {step} {I Q : σ → Prop} {P R : σ → κ → Prop}

@[simp] theorem run_nil (s : σ) : run step s [] = s := rfl

@[simp] theorem run_cons (s : σ) (k : κ) (ks : List κ) :
    run step s (k :: ks) = run step (step s k) ks := rfl

theorem run_append (s : σ) (ks ks' : List κ) :
    run step s (ks ++ ks') = run step (run step s ks) ks' :=
  List.foldl_append ..

variable {s : σ} {ks : List κ}

/-- **Invariant rule**: what every step keeps, every run keeps. -/
theorem run_inv (hstep : ∀ s k, I s → I (step s k)) (hs : I s) (ks : List κ) :
    I (run step s ks) := by
  induction ks generalizing s with
  | nil => exact hs
  | cons k ks ih => exact ih (hstep s k hs)

theorem Always.head (h : Always step Q s ks) : Q s := by
  cases ks with
  | nil => exact h
  | cons k ks => exact h.1

theorem Always.last (h : Always step Q s ks) : Q (run step s ks) := by
  induction ks generalizing s with
  | nil => exact h
  | cons k ks ih => exact ih h.2

theorem along_of_forall (h : ∀ s k, P s k) (s : σ) (ks : List κ) : Along step P s ks := by
  induction ks generalizing s with
  | nil => trivial
  | cons k ks ih => exact ⟨h s k, ih _⟩

/-- The invariant rule for runs whose commands all meet a condition, for
all states the run visits. -/
theorem always_of_along (hstep : ∀ s k, I s → P s k → I (step s k)) (hs : I s)
    (hks : Along step P s ks) : Always step I s ks := by
  induction ks generalizing s with
  | nil => exact hs
  | cons k ks ih => exact ⟨hs, ih (hstep s k hs hks.1) hks.2⟩

/-- The same for the last state. -/
theorem run_inv_along (hstep : ∀ s k, I s → P s k → I (step s k)) (hs : I s)
    (hks : Along step P s ks) : I (run step s ks) :=
  (always_of_along hstep hs hks).last

theorem always_of_inv (hstep : ∀ s k, I s → I (step s k)) (hs : I s) (ks : List κ) :
    Always step I s ks :=
  always_of_along (fun s k hs _ => hstep s k hs) hs (along_of_forall (fun _ _ => trivial) s ks)

theorem Along.append {ks' : List κ} :
    Along step P s (ks ++ ks') ↔ Along step P s ks ∧ Along step P (run step s ks) ks' := by
  induction ks generalizing s with
  | nil => simp [Along]
  | cons k ks ih => simp [Along, ih, and_assoc]

/-- What an invariant implies of every command that meets the condition
holds along every run whose commands meet it. -/
theorem along_of_inv (hstep : ∀ s k, I s → P s k → I (step s k)) (himp : ∀ s k, I s → P s k → R s k)
    (hs : I s) (hks : Along step P s ks) : Along step R s ks := by
  induction ks generalizing s with
  | nil => trivial
  | cons k ks ih => exact ⟨himp s k hs hks.1, ih (hstep s k hs hks.1) hks.2⟩

theorem Always.mono {Q' : σ → Prop} (hQ : ∀ s, Q s → Q' s) (h : Always step Q s ks) :
    Always step Q' s ks := by
  induction ks generalizing s with
  | nil => exact hQ s h
  | cons k ks ih => exact ⟨hQ s h.1, ih h.2⟩

/-- **Exactness rule**: if one step keeps `Q` exactly when its command
meets `P`, a run keeps `Q` exactly when all of its commands meet `P`;
for runs that meet a condition `C` and keep an invariant. -/
theorem always_iff_along_within {C : σ → κ → Prop} (hinv : ∀ s k, I s → C s k → I (step s k))
    (hstep : ∀ s k, I s → C s k → Q s → (Q (step s k) ↔ P s k)) (hI : I s) (hs : Q s)
    (hks : Along step C s ks) : Always step Q s ks ↔ Along step P s ks := by
  induction ks generalizing s with
  | nil => simp [Always, Along, hs]
  | cons k ks ih =>
    have hI' := hinv s k hI hks.1
    constructor
    · rintro ⟨-, hrest⟩
      have hk : Q (step s k) := hrest.head
      exact ⟨(hstep s k hI hks.1 hs).mp hk, (ih hI' hk hks.2).mp hrest⟩
    · rintro ⟨hk, hrest⟩
      exact ⟨hs, (ih hI' ((hstep s k hI hks.1 hs).mpr hk) hks.2).mpr hrest⟩

/-- The exactness rule for all runs. -/
theorem always_iff_along (hstep : ∀ s k, Q s → (Q (step s k) ↔ P s k)) (hs : Q s) (ks : List κ) :
    Always step Q s ks ↔ Along step P s ks :=
  always_iff_along_within (I := fun _ => True) (fun _ _ _ _ => trivial)
    (fun s k _ _ => hstep s k) trivial hs (along_of_forall (fun _ _ => trivial) s ks)

/-- A condition that does not look at the state is one on the commands. -/
theorem Along.and_forall_mem {R : κ → Prop} (h : Along step P s ks) (hR : ∀ k ∈ ks, R k) :
    Along step (fun s k => P s k ∧ R k) s ks := by
  induction ks generalizing s with
  | nil => trivial
  | cons k ks ih =>
    obtain ⟨hk, hks⟩ := List.forall_mem_cons.mp hR
    exact ⟨⟨h.1, hk⟩, ih h.2 hks⟩

/-- **Damage rule**: if a command that breaks `P` does lasting damage, a
run that ends undamaged met `P` all along. -/
theorem along_of_undamaged {B : σ → Prop} (hinv : ∀ s k, I s → I (step s k))
    (hbreak : ∀ s k, I s → ¬ P s k → B (step s k)) (hlast : ∀ s k, I s → B s → B (step s k))
    (hs : I s) (hend : ¬ B (run step s ks)) : Along step P s ks := by
  induction ks generalizing s with
  | nil => trivial
  | cons k ks ih =>
    have hs' := hinv s k hs
    refine ⟨Classical.byContradiction fun hk => hend ?_, ih hs' hend⟩
    exact (run_inv (I := fun s => I s ∧ B s)
      (fun s k h => ⟨hinv s k h.1, hlast s k h.1 h.2⟩) ⟨hs', hbreak s k hs hk⟩ ks).2

end Machine
