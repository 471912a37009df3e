import Mathlib.Data.List.Infix

/-!
# HashTree — binary hash trees over a list, and paths to their root

Vocabulary:

* `pairUp`, `levels`, `top` — the level-by-level construction over any
  type of nodes. A last node without a neighbour is combined with itself.
* `PairTree` — the shape that construction builds when nodes are not hashed;
  `leaves` reads off what it stands on. The list is a PREFIX of the leaves
  of its tree: an odd level repeats its last node.
* `Scheme` — what is hashed at a leaf and at an inner node. The two kinds
  of input never coincide, and each determines what it was made from.
* `digest`, `inputs` — the hash of a tree and everything hashed for it.
* `climb` — a path: every step turns the hash so far into the next input.

A hash into a finite type has collisions, so nothing here assumes it
injective. `CollisionFree hash xs` says it has none among the inputs `xs`
that were actually hashed; under it equal digests are equal trees
(`digest_inj`), and a path that reaches the digest of a tree starts at
one of its leaves (`mem_leaves_of_climb`).
-/

namespace HashTree

open List

variable {α D D' E I : Type*}

/-! ## Levels -/

/-- One level up. -/
def pairUp (node : D → D → E) : List D → List E
  | a :: b :: rest => node a b :: pairUp node rest
  | [a] => [node a a]
  | [] => []

/-- The levels from `level` upwards, until one has at most one node. -/
def levels (node : D → D → D) : Nat → List D → List (List D)
  | 0, level => [level]
  | fuel + 1, level =>
    if level.length ≤ 1 then [level] else level :: levels node fuel (pairUp node level)

/-- The last of the levels. -/
def top (node : D → D → D) : Nat → List D → List D
  | 0, level => level
  | fuel + 1, level => if level.length ≤ 1 then level else top node fuel (pairUp node level)

theorem length_pairUp (node : D → D → E) (level : List D) :
    (pairUp node level).length = (level.length + 1) / 2 := by
  induction level using pairUp.induct with
  | case1 a b rest ih =>
    simp only [pairUp, length_cons, ih]
    omega
  | case2 | case3 => simp [pairUp]

theorem pairUp_map (node : D → D → E) (f : D' → D) (level : List D') :
    pairUp node (level.map f) = pairUp (fun a b => node (f a) (f b)) level := by
  induction level using pairUp.induct with
  | case1 a b rest ih => simp [pairUp, ih]
  | case2 a => rfl
  | case3 => rfl

theorem levels_ne_nil (node : D → D → D) (fuel : Nat) (level : List D) :
    levels node fuel level ≠ [] := by
  cases fuel with
  | zero => simp [levels]
  | succ fuel =>
    unfold levels
    split <;> simp

theorem getLast?_levels (node : D → D → D) (fuel : Nat) (level : List D) :
    (levels node fuel level).getLast? = some (top node fuel level) := by
  induction fuel generalizing level with
  | zero => rfl
  | succ fuel ih =>
    unfold levels top
    split
    · rfl
    · rw [getLast?_cons, ih]
      rfl

section

/-! A map that respects the nodes carries the construction over. -/

variable {node : D → D → D} {node' : E → E → E} {f : D → E}
  (hf : ∀ a b, f (node a b) = node' (f a) (f b))
include hf

theorem map_pairUp (level : List D) : (pairUp node level).map f = pairUp node' (level.map f) := by
  induction level using pairUp.induct with
  | case1 a b rest ih => simp [pairUp, ih, hf]
  | case2 a => simp [pairUp, hf]
  | case3 => rfl

theorem levels_map (fuel : Nat) (level : List D) :
    levels node' fuel (level.map f) = (levels node fuel level).map (List.map f) := by
  induction fuel generalizing level with
  | zero => rfl
  | succ fuel ih =>
    unfold levels
    rw [length_map]
    split
    · rfl
    · rw [← map_pairUp hf, ih, map_cons]

theorem top_map (fuel : Nat) (level : List D) :
    top node' fuel (level.map f) = (top node fuel level).map f := by
  have hlast := congrArg List.getLast? (levels_map hf fuel level)
  rw [getLast?_levels, getLast?_map, getLast?_levels] at hlast
  exact Option.some.inj hlast

end

/-- One unit of fuel per node is enough to reach a single node. -/
theorem top_eq_singleton (node : D → D → D) {fuel : Nat} {level : List D} (hne : level ≠ [])
    (hfuel : level.length ≤ fuel + 1) : ∃ d, top node fuel level = [d] := by
  induction fuel generalizing level with
  | zero =>
    have : level.length = 1 := by
      have := length_pos_iff.mpr hne
      omega
    exact length_eq_one_iff.mp this
  | succ fuel ih =>
    have hpos := length_pos_iff.mpr hne
    unfold top
    split
    · exact length_eq_one_iff.mp (by omega)
    · have hlen := length_pairUp node level
      refine ih ?_ (by omega)
      exact ne_nil_of_length_pos (by omega)

/-! ## Trees -/

inductive PairTree (α : Type*) where
  | leaf (a : α)
  | node (l r : PairTree α)

namespace PairTree

def leaves : PairTree α → List α
  | leaf a => [a]
  | node l r => l.leaves ++ r.leaves

theorem leaves_pairUp (ts : List (PairTree α)) :
    ts.flatMap leaves <+: (pairUp PairTree.node ts).flatMap leaves := by
  induction ts using pairUp.induct with
  | case1 a b rest ih =>
    simp only [pairUp, flatMap_cons, leaves, append_assoc]
    exact (prefix_append_right_inj _).mpr ((prefix_append_right_inj _).mpr ih)
  | case2 a => simp [pairUp, leaves]
  | case3 => exact prefix_rfl

theorem mem_leaves_pairUp {ts : List (PairTree α)} {a : α}
    (h : a ∈ (pairUp PairTree.node ts).flatMap leaves) : a ∈ ts.flatMap leaves := by
  induction ts using pairUp.induct with
  | case1 l r rest ih =>
    simp only [pairUp, flatMap_cons, leaves, mem_append] at h ⊢
    rcases h with (h | h) | h
    · exact .inl h
    · exact .inr (.inl h)
    · exact .inr (.inr (ih h))
  | case2 l => simpa [pairUp, leaves] using h
  | case3 => exact h

/-- Going up repeats leaves at the end, and adds no other. -/
theorem leaves_top (fuel : Nat) (ts : List (PairTree α)) :
    ts.flatMap leaves <+: (top PairTree.node fuel ts).flatMap leaves ∧
      ∀ a ∈ (top PairTree.node fuel ts).flatMap leaves, a ∈ ts.flatMap leaves := by
  induction fuel generalizing ts with
  | zero => exact ⟨prefix_rfl, fun _ h => h⟩
  | succ fuel ih =>
    unfold top
    split
    · exact ⟨prefix_rfl, fun _ h => h⟩
    · obtain ⟨hleading, hmem⟩ := ih (pairUp PairTree.node ts)
      exact ⟨(leaves_pairUp ts).trans hleading, fun a h => mem_leaves_pairUp (hmem a h)⟩

end PairTree

/-! ## Hashing -/

/-- What is hashed, and how leaves and inner nodes are told apart. -/
structure Scheme (α D I : Type*) where
  hash : I → D
  leaf : α → I
  node : D → D → I
  leaf_inj : ∀ {a b}, leaf a = leaf b → a = b
  node_inj : ∀ {l r l' r'}, node l r = node l' r' → l = l' ∧ r = r'
  leaf_ne_node : ∀ {a l r}, leaf a ≠ node l r

/-- No two of the inputs collide. -/
def CollisionFree (hash : I → D) (xs : List I) : Prop := ∀ x ∈ xs, ∀ y ∈ xs, hash x = hash y → x = y

instance [DecidableEq I] [DecidableEq D] (hash : I → D) (xs : List I) :
    Decidable (CollisionFree hash xs) :=
  inferInstanceAs (Decidable (∀ x ∈ xs, ∀ y ∈ xs, hash x = hash y → x = y))

namespace Scheme

variable (c : Scheme α D I)

def combine (l r : D) : D := c.hash (c.node l r)

def digest : PairTree α → D
  | .leaf a => c.hash (c.leaf a)
  | .node l r => c.combine (digest l) (digest r)

/-- Everything hashed for the digest of a tree. -/
def inputs : PairTree α → List I
  | .leaf a => [c.leaf a]
  | .node l r => c.node (c.digest l) (c.digest r) :: (inputs l ++ inputs r)

/-- Everything hashed to get from each level to the next. -/
def levelInputs (node : D → D → I) (ls : List (List D)) : List I :=
  ls.dropLast.flatMap (pairUp node)

variable {c} {xs : List I}

theorem digest_node (l r : PairTree α) :
    c.digest (.node l r) = c.combine (c.digest l) (c.digest r) := rfl

/-- **Binding**: without a collision the digest determines the tree. -/
theorem digest_inj (hfree : CollisionFree c.hash xs) {t u : PairTree α} (ht : c.inputs t ⊆ xs)
    (hu : c.inputs u ⊆ xs) (h : c.digest t = c.digest u) : t = u := by
  induction t generalizing u with
  | leaf a =>
    cases u with
    | leaf b =>
      have hin := hfree _ (ht mem_cons_self) _ (hu mem_cons_self) h
      rw [c.leaf_inj hin]
    | node l r =>
      have hin := hfree _ (ht mem_cons_self) _ (hu mem_cons_self) h
      exact absurd hin c.leaf_ne_node
  | node l r ihl ihr =>
    cases u with
    | leaf b =>
      have hin := hfree _ (ht mem_cons_self) _ (hu mem_cons_self) h
      exact absurd hin.symm c.leaf_ne_node
    | node l' r' =>
      have hin := hfree _ (ht mem_cons_self) _ (hu mem_cons_self) h
      obtain ⟨hl, hr⟩ := c.node_inj hin
      rw [ihl (fun x hx => ht (by simp [inputs, hx])) (fun x hx => hu (by simp [inputs, hx])) hl,
        ihr (fun x hx => ht (by simp [inputs, hx])) (fun x hx => hu (by simp [inputs, hx])) hr]

/-- What is hashed for a tree one level up is hashed for its parts or in
between. -/
theorem mem_inputs_pairUp {ts : List (PairTree α)} {t : PairTree α} {x : I}
    (ht : t ∈ pairUp PairTree.node ts) (hx : x ∈ c.inputs t) :
    x ∈ pairUp c.node (ts.map c.digest) ∨ ∃ u ∈ ts, x ∈ c.inputs u := by
  induction ts using pairUp.induct with
  | case1 l r rest ih =>
    simp only [pairUp, mem_cons, map_cons] at ht ⊢
    rcases ht with rfl | ht
    · simp only [inputs, mem_cons, mem_append] at hx
      rcases hx with rfl | hx | hx
      · exact .inl (.inl rfl)
      · exact .inr ⟨l, .inl rfl, hx⟩
      · exact .inr ⟨r, .inr (.inl rfl), hx⟩
    · rcases ih ht with hin | ⟨u, hu, hin⟩
      · exact .inl (.inr hin)
      · exact .inr ⟨u, .inr (.inr hu), hin⟩
  | case2 l =>
    simp only [pairUp, mem_singleton, map_cons, map_nil] at ht ⊢
    subst ht
    simp only [inputs, mem_cons, mem_append, or_self] at hx
    rcases hx with rfl | hx
    · exact .inl rfl
    · exact .inr ⟨l, rfl, hx⟩
  | case3 => cases ht

/-- Everything hashed for the top is hashed at the bottom or on the way. -/
theorem mem_inputs_top {fuel : Nat} {ts : List (PairTree α)} {t : PairTree α} {x : I}
    (ht : t ∈ top PairTree.node fuel ts) (hx : x ∈ c.inputs t) :
    x ∈ levelInputs c.node (levels c.combine fuel (ts.map c.digest)) ∨
      ∃ u ∈ ts, x ∈ c.inputs u := by
  induction fuel generalizing ts with
  | zero => exact .inr ⟨t, ht, hx⟩
  | succ fuel ih =>
    unfold top at ht
    unfold levels
    rw [length_map]
    split at ht
    next hlen => exact .inr ⟨t, ht, hx⟩
    next hlen =>
      rw [if_neg hlen, levelInputs, dropLast_cons_of_ne_nil (levels_ne_nil _ _ _),
        flatMap_cons, mem_append, ← map_pairUp digest_node]
      rcases ih ht with hin | ⟨u, hu, hin⟩
      · exact .inl (.inr hin)
      · rcases mem_inputs_pairUp hu hin with hin | hin
        · exact .inl (.inl hin)
        · exact .inr hin

/-! ## Paths -/

variable (c)

/-- Follow a path from a digest. -/
def climb (d : D) (path : List (D → I)) : D := path.foldl (fun d step => c.hash (step d)) d

/-- Everything hashed on the way. -/
def climbInputs : D → List (D → I) → List I
  | _, [] => []
  | d, step :: path => step d :: climbInputs (c.hash (step d)) path

/-- A step whose input is never that of a leaf, and if it is that of an
inner node then the digest it came from is one of the node's two. -/
structure Fits (step : D → I) : Prop where
  ne_leaf : ∀ d a, step d ≠ c.leaf a
  of_node : ∀ {d l r}, step d = c.node l r → d = l ∨ d = r

variable {c}

theorem climb_concat (d : D) (path : List (D → I)) (step : D → I) :
    c.climb d (path ++ [step]) = c.hash (step (c.climb d path)) := by
  simp [climb]

theorem climbInputs_concat (d : D) (path : List (D → I)) (step : D → I) :
    c.climbInputs d (path ++ [step]) = c.climbInputs d path ++ [step (c.climb d path)] := by
  induction path generalizing d with
  | nil => rfl
  | cons s path ih => simp [climbInputs, ih, climb]

/-- **Soundness**: a path that leads from a leaf to the digest of a tree
starts at a leaf of that tree. -/
theorem mem_leaves_of_climb (hfree : CollisionFree c.hash xs) {a : α} {path : List (D → I)}
    (hfits : ∀ step ∈ path, c.Fits step) (hleaf : c.leaf a ∈ xs)
    (hpath : c.climbInputs (c.hash (c.leaf a)) path ⊆ xs) {t : PairTree α} (ht : c.inputs t ⊆ xs)
    (h : c.climb (c.hash (c.leaf a)) path = c.digest t) : a ∈ t.leaves := by
  -- the last step is peeled against the root of the tree
  induction path using List.reverseRecOn generalizing t with
  | nil =>
    have heq : t = .leaf a :=
      (digest_inj hfree (t := .leaf a) (by simpa [inputs] using hleaf) ht h).symm
    simp [heq, PairTree.leaves]
  | append_singleton path step ih =>
    rw [climbInputs_concat] at hpath
    rw [climb_concat] at h
    obtain ⟨hinit, hlast⟩ := append_subset.mp hpath
    have hstep : step (c.climb (c.hash (c.leaf a)) path) ∈ xs := hlast mem_cons_self
    have hfit : c.Fits step := hfits step (by simp)
    have hrest := fun s hs => hfits s (mem_append_left _ hs)
    cases t with
    | leaf b => exact absurd (hfree _ hstep _ (ht mem_cons_self) h) (hfit.ne_leaf _ b)
    | node l r =>
      have hin := hfree _ hstep _ (ht mem_cons_self) h
      rcases hfit.of_node hin with hl | hr
      · exact mem_append_left _ (ih hrest hinit (fun x hx => ht (by simp [inputs, hx])) hl)
      · exact mem_append_right _ (ih hrest hinit (fun x hx => ht (by simp [inputs, hx])) hr)

end Scheme

end HashTree
