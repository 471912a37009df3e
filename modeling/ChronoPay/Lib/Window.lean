import Mathlib.Data.List.Induction

/-!
# Window — counting between two marks of a log

A log is a list of events, some of which are marks and some of which
count. A window is a stretch of the log with no mark after its first
event. `since` counts from the last mark on; a log that grows one event
at a time stays `Bounded` as long as `since` does.
-/

namespace Window

open List

variable {α : Type*} (mark counted : α → Bool)

/-- The events counted since the last mark, the marked one included. -/
def since (log : List α) : Nat :=
  log.foldl (fun n a => (if mark a then 0 else n) + if counted a then 1 else 0) 0

/-- No window counts more than `n`. -/
def Bounded (n : Nat) (log : List α) : Prop :=
  ∀ before window after, log = before ++ window ++ after → (∀ a ∈ window.tail, mark a = false) →
    window.countP counted ≤ n

variable {mark counted} {n : Nat} {log : List α} {a : α}

theorem since_concat : since mark counted (log ++ [a])
    = (if mark a then 0 else since mark counted log) + if counted a then 1 else 0 := by
  simp [since]

theorem countP_le_since (before : List α) {window : List α}
    (h : ∀ a ∈ window.tail, mark a = false) :
    window.countP counted ≤ since mark counted (before ++ window) := by
  induction window using List.reverseRecOn with
  | nil => exact Nat.zero_le _
  | append_singleton window a ih =>
    rw [← append_assoc, since_concat, countP_append, countP_singleton]
    cases window with
    | nil => simp
    | cons b window =>
      have hlast : mark a = false := h a (by simp)
      have hle := ih fun c hc => h c (by simp at hc ⊢; exact .inl hc)
      simp only [hlast, Bool.false_eq_true, if_false]
      omega

theorem Bounded.countP_le (h : Bounded mark counted n log) (hlog : ∀ a ∈ log.tail, mark a = false) :
    log.countP counted ≤ n :=
  h [] log [] (by simp) hlog

theorem Bounded.nil : Bounded mark counted n [] := by
  intro before window after heq _
  simp only [nil_eq, append_eq_nil_iff] at heq
  simp [heq.1.2]

theorem Bounded.concat (h : Bounded mark counted n log)
    (hsince : since mark counted (log ++ [a]) ≤ n) : Bounded mark counted n (log ++ [a]) := by
  intro before window after heq hwindow
  induction after using List.reverseRecOn with
  | nil =>
    rw [append_nil] at heq
    exact Nat.le_trans (countP_le_since before hwindow) (heq ▸ hsince)
  | append_singleton after b _ =>
    rw [← append_assoc] at heq
    exact h before window after (append_inj_left' heq rfl) hwindow

end Window
