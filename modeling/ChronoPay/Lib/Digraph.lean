import Mathlib.Data.List.Chain

/-!
# Digraph — directed graphs given by their successors

A graph is a function from a node to the list of nodes it leads to.
`Reaches` is its reflexive transitive closure. The lemmas are those a
depth-first search rests on: a node that is found again on the walk that
leads to it lies on a cycle (`Leads.onCycle`), and a node all of whose
successors were done before it does not (`Closed.not_onCycle`).
-/

namespace Digraph

open List

variable {α : Type*} (next : α → List α)

def Edge (a b : α) : Prop := b ∈ next a

abbrev Reaches : α → α → Prop := Relation.ReflTransGen (Edge next)

def OnCycle (a : α) : Prop := Relation.TransGen (Edge next) a a

/-- Nodes that only lead to each other. -/
def Closed (K : α → Prop) : Prop := ∀ a, K a → ∀ b ∈ next a, K b

/-- The list is a walk that goes on to the node. -/
def Leads (walk : List α) (a : α) : Prop := (walk ++ [a]).IsChain (Edge next)

variable {next} {a b : α} {K : α → Prop} {walk : List α}

theorem reaches_iff : Reaches next a b ↔ b = a ∨ ∃ c ∈ next a, Reaches next c b := by
  have hcases := Relation.ReflTransGen.cases_head_iff (r := Edge next) (a := a) (b := b)
  rwa [eq_comm (a := a)] at hcases

theorem Closed.reaches (h : Closed next K) (ha : K a) (hab : Reaches next a b) : K b := by
  induction hab with
  | refl => exact ha
  | tail _ hedge ih => exact h _ ih _ hedge

/-- A node that leads into a closed set it is not in is on no cycle. -/
theorem Closed.not_onCycle (h : Closed next K) (ha : ¬ K a) (hnext : ∀ b ∈ next a, K b) :
    ¬ OnCycle next a := by
  intro hcycle
  obtain ⟨b, hedge, hreaches⟩ := Relation.TransGen.head'_iff.mp hcycle
  exact ha (h.reaches (hnext b hedge) hreaches)

theorem leads_nil : Leads next [] a := isChain_singleton a

theorem Leads.concat (h : Leads next walk a) (hedge : b ∈ next a) : Leads next (walk ++ [a]) b := by
  refine isChain_append.mpr ⟨h, isChain_singleton b, ?_⟩
  intro x hx y hy
  rw [getLast?_concat, Option.mem_some_iff] at hx
  rw [head?_singleton, Option.mem_some_iff] at hy
  rw [← hx, ← hy]
  exact hedge

/-- A walk that comes back to one of its nodes makes a cycle. -/
theorem Leads.onCycle (h : Leads next walk a) (ha : a ∈ walk) : OnCycle next a := by
  have hchain : (walk ++ [a]).IsChain (Relation.TransGen (Edge next)) :=
    List.IsChain.imp (fun _ _ => Relation.TransGen.single) h
  have hpairwise := isChain_iff_pairwise.mp hchain
  exact (pairwise_append.mp hpairwise).2.2 a ha a (mem_singleton_self a)

end Digraph
