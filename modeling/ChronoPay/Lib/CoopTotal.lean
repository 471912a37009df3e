import Mathlib.Algebra.BigOperators.Group.List.Basic
import ChronoPay.Lib.Coop

/-!
# CoopTotal — sums over the calls of a cooperative system

`total w σ` adds up a weight over all calls, finished or not. One command
changes it by what the resumed segment changes of its own call's weight.
The calls with some property are counted as a sum of ones; what calls
carry is collected in a list, up to its order.
-/

namespace Coop

open List

variable {Q E S L R M : Type*} [AddCommGroup M] {p : Program Q E S L R} {σ : Sys Q S L R}

def total (w : Task L R → M) (σ : Sys Q S L R) : M := (σ.calls.map fun c => w c.task).sum

theorem total_step {w : Task L R → M} (hstart : ∀ q, w (.waiting (p.start q)) = 0)
    (k : Cmd Q E) :
    total w (step p σ k) = total w σ + match resumed σ k with
      | some (e, pc) => w (p.resume e pc σ.shared).2 - w (.waiting pc)
      | none => 0 := by
  rcases step_cases (p := p) σ k with ⟨q, rfl, hk⟩ | ⟨i, e, q, pc, rfl, hi, hr, hk⟩ | ⟨hr, hk⟩
  · simp [hk, total, resumed, hstart]
  · obtain ⟨hlt, hget⟩ := List.getElem?_eq_some_iff.mp hi
    rw [hk, hr]
    simp only [total, map_set, sum_set', length_map, hlt, dif_pos, getElem_map, hget]
    rw [neg_add_eq_sub]
  · simp [hk, hr]

/-- Counting is adding ones. -/
theorem total_indicator (P : Task L R → Bool) :
    total (fun task => if P task then (1 : ℤ) else 0) σ
      = (σ.calls.filter fun c => P c.task).length := by
  unfold total
  induction σ.calls with
  | nil => rfl
  | cons c calls ih =>
    rw [map_cons, sum_cons, ih, filter_cons]
    dsimp only
    split
    · rw [length_cons, Int.natCast_succ, Int.add_comm]
    · rw [Int.zero_add]

/-! ## Counting calls -/

def tally (P : Call Q L R → Bool) (σ : Sys Q S L R) : Nat := σ.calls.countP P

/-- A property of finished calls is gained by the call that is resumed. -/
theorem tally_step {P : Call Q L R → Bool} (hwaiting : ∀ q pc, P ⟨q, .waiting pc⟩ = false)
    (σ : Sys Q S L R) (k : Cmd Q E) :
    (resumed σ k = none ∧ tally P (step p σ k) = tally P σ) ∨
    ∃ e pc q, resumed σ k = some (e, pc) ∧ ⟨q, .waiting pc⟩ ∈ σ.calls ∧
      tally P (step p σ k)
        = tally P σ + if P ⟨q, (p.resume e pc σ.shared).2⟩ then 1 else 0 := by
  rcases step_cases (p := p) σ k with ⟨q, rfl, hk⟩ | ⟨i, e, q, pc, rfl, hi, hr, hk⟩ | ⟨hr, hk⟩
  · refine .inl ⟨rfl, ?_⟩
    rw [hk]
    simp [tally, hwaiting]
  · obtain ⟨hlt, hget⟩ := List.getElem?_eq_some_iff.mp hi
    refine .inr ⟨e, pc, q, hr, mem_of_getElem? hi, ?_⟩
    rw [hk]
    simp only [tally]
    rw [countP_set hlt, hget, hwaiting, if_neg (by simp), Nat.sub_zero]
  · exact .inl ⟨hr, by rw [hk]⟩

/-! ## What calls carry -/

/-- What one list element carries is traded for what its replacement
carries. -/
theorem filterMap_set_perm {α β : Type*} {f : α → Option β} {l : List α} {i : Nat} {a : α}
    (hi : l[i]? = some a) (a' : α) :
    ((f a).toList ++ (l.set i a').filterMap f).Perm ((f a').toList ++ l.filterMap f) := by
  have hcons : ∀ (b : α) (l : List α), (b :: l).filterMap f = (f b).toList ++ l.filterMap f := by
    intro b l
    rw [filterMap_cons]
    cases f b <;> rfl
  obtain ⟨hlt, hget⟩ := List.getElem?_eq_some_iff.mp hi
  obtain ⟨before, after, hl, -, hset⟩ := @List.exists_of_set _ i a' l hlt
  rw [hget] at hl
  rw [hset, hl, filterMap_append, filterMap_append, hcons, hcons]
  refine (perm_append_comm_assoc _ _ _).trans (.trans (.append_left _ ?_)
    (perm_append_comm_assoc _ _ _))
  exact perm_append_comm_assoc _ _ _

/-- What the calls carry changes by what the resumed call carries. -/
theorem filterMap_step_perm {β : Type*} {f : Task L R → Option β}
    (hstart : ∀ q, f (.waiting (p.start q)) = none) (σ : Sys Q S L R) (k : Cmd Q E) :
    match resumed σ k with
    | some (e, pc) =>
      ((f (.waiting pc)).toList ++ (step p σ k).calls.filterMap fun c => f c.task).Perm
        ((f (p.resume e pc σ.shared).2).toList ++ σ.calls.filterMap fun c => f c.task)
    | none => (step p σ k).calls.filterMap (fun c => f c.task)
        = σ.calls.filterMap fun c => f c.task := by
  rcases step_cases (p := p) σ k with ⟨q, rfl, hk⟩ | ⟨i, e, q, pc, rfl, hi, hr, hk⟩ | ⟨hr, hk⟩
  · rw [hk]
    simp [resumed, hstart]
  · rw [hr, hk]
    exact filterMap_set_perm (f := fun c : Call Q L R => f c.task) hi _
  · rw [hr, hk]

end Coop
