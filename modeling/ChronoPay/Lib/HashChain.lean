import Mathlib.Tactic.Common

/-!
# HashChain — an append-only log whose entries commit to their predecessor

Every entry stores the hash of the entry before it and its own hash;
`digest` recomputes the latter from what the entry stores. The checker
walks the log once and stops at the first entry that does not fit. The
digest may be undefined (its input cannot be rendered), in which case
the walk itself fails at that entry.

`Linked` is the declarative reading of a clean walk. Appending a fresh
entry keeps it, rewriting an entry without touching what the walk reads
keeps it, and exchanging one entry for another leaves the walk with
exactly the question whether the new entry fits (`verify_exchange`).

A second checker, `walk`, looks at the link of the first entry, and then
at each entry's hash BEFORE its link; it accepts the same logs.
-/

namespace HashChain

open List

/-- What the checker reads of an entry. -/
structure Scheme (E H : Type*) where
  genesis : H
  prev : E → H
  hash : E → H
  digest : E → Option H

inductive Verdict where
  | intact
  | brokenAt (i : Nat)
  | failedAt (i : Nat)
  deriving DecidableEq, Repr

variable {E H : Type*} (c : Scheme E H)

/-- Walk the log from position `i`, where hash `p` is expected as link. -/
def verifyFrom [DecidableEq H] : H → Nat → List E → Verdict
  | _, _, [] => .intact
  | p, i, e :: es =>
    if c.prev e ≠ p then .brokenAt i
    else match c.digest e with
      | none => .failedAt i
      | some h => if c.hash e ≠ h then .brokenAt i else verifyFrom (c.hash e) (i + 1) es

/-- Every entry carries its predecessor's hash and its own digest. -/
def Linked : H → List E → Prop
  | _, [] => True
  | p, e :: es => c.prev e = p ∧ c.digest e = some (c.hash e) ∧ Linked (c.hash e) es

/-- The hash the next entry has to carry as its link. -/
def tip : H → List E → H
  | p, [] => p
  | _, e :: es => tip (c.hash e) es

variable {c} {p : H} {e e' : E} {es es' : List E}

theorem tip_eq_getLast? (es : List E) : tip c p es = (es.getLast?.map c.hash).getD p := by
  induction es generalizing p with
  | nil => rfl
  | cons e es ih =>
    rw [tip, ih, getLast?_cons]
    cases es.getLast? <;> rfl

/-- Links after a prefix start from the prefix's last hash. -/
theorem linked_append : Linked c p (es ++ es') ↔ Linked c p es ∧ Linked c (tip c p es) es' := by
  induction es generalizing p with
  | nil => simp [Linked, tip]
  | cons e es ih => simp [Linked, tip, ih, and_assoc]

theorem Linked.concat (h : Linked c p es) (hprev : c.prev e = tip c p es)
    (hdig : c.digest e = some (c.hash e)) : Linked c p (es ++ [e]) :=
  linked_append.mpr ⟨h, hprev, hdig, trivial⟩

theorem Linked.digest (h : Linked c p es) (he : e ∈ es) : c.digest e = some (c.hash e) := by
  obtain ⟨before, after, rfl⟩ := append_of_mem he
  exact (linked_append.mp h).2.2.1

/-- Rewriting an entry outside of what the walk reads is not a break. -/
theorem Linked.set {i : Nat} (h : Linked c p es) (hi : es[i]? = some e)
    (hprev : c.prev e' = c.prev e) (hhash : c.hash e' = c.hash e)
    (hdig : c.digest e' = c.digest e) : Linked c p (es.set i e') := by
  obtain ⟨hlt, rfl⟩ := List.getElem?_eq_some_iff.mp hi
  obtain ⟨before, after, hes, -, hset⟩ := @List.exists_of_set _ i e' es hlt
  rw [hes] at h
  obtain ⟨hbefore, hp, hd, hafter⟩ := linked_append.mp h
  rw [hset]
  refine linked_append.mpr ⟨hbefore, hprev.trans hp, ?_, ?_⟩
  · rw [hdig, hhash]
    exact hd
  · rw [hhash]
    exact hafter

section

variable [DecidableEq H]

theorem verifyFrom_eq_intact {i : Nat} : verifyFrom c p i es = .intact ↔ Linked c p es := by
  induction es generalizing p i with
  | nil => simp [verifyFrom, Linked]
  | cons e es ih =>
    simp only [verifyFrom, Linked]
    split
    next hp => simp [hp]
    next hp =>
      split
      next hd => simp [hd]
      next h hd =>
        split
        next hh => simp [hd, Ne.symm hh]
        next hh =>
          simp only [not_not] at hp hh
          simp [hd, hh, hp, ih]

/-- A linked prefix is walked without comment. -/
theorem verifyFrom_append {i : Nat} (h : Linked c p es) :
    verifyFrom c p i (es ++ es') = verifyFrom c (tip c p es) (i + es.length) es' := by
  induction es generalizing p i with
  | nil => rfl
  | cons e es ih =>
    obtain ⟨hp, hd, hes⟩ := h
    simp only [cons_append, verifyFrom, hp, hd, ne_eq, not_true_eq_false, if_false, tip,
      length_cons]
    rw [ih hes, Nat.add_assoc, Nat.add_comm 1]

/-- **Exchange**: in a linked log, the verdict on a replaced entry is
the verdict on that entry alone, at its own position. -/
theorem verifyFrom_exchange {i : Nat} (h : Linked c p es) (hi : es[i]? = some e) (n : Nat) :
    verifyFrom c p n (es.set i e')
      = verifyFrom c (c.prev e) (n + i) (e' :: es.drop (i + 1)) := by
  have hlt : i < es.length := (List.getElem?_eq_some_iff.mp hi).1
  have hsplit : es = es.take i ++ e :: es.drop (i + 1) := by
    rw [← (List.getElem?_eq_some_iff.mp hi).2, getElem_cons_drop, take_append_drop]
  rw [hsplit] at h
  obtain ⟨hpre, hpost⟩ := linked_append.mp h
  rw [set_eq_take_append_cons_drop, if_pos hlt, verifyFrom_append hpre, ← hpost.1,
    length_take, Nat.min_eq_left (Nat.le_of_lt hlt)]

/-- An entry that does not carry its predecessor's hash is found at once. -/
theorem verifyFrom_of_prev_ne {i : Nat} (hprev : c.prev e ≠ p) :
    verifyFrom c p i (e :: es) = .brokenAt i := by
  simp [verifyFrom, hprev]

/-- An entry whose stored hash is not its digest is found at once. -/
theorem verifyFrom_of_digest_ne {h : H} {i : Nat} (hprev : c.prev e = p)
    (hdig : c.digest e = some h) (hne : h ≠ c.hash e) :
    verifyFrom c p i (e :: es) = .brokenAt i := by
  simp [verifyFrom, hprev, hdig, Ne.symm hne]

end

section

/-- The first fault a walk finds, with the entry it is about. -/
inductive Finding (E H : Type*) where
  | intact
  | badGenesis (e : E)
  | badHash (i : Nat) (e : E) (expected : H)
  | badLink (i : Nat) (e : E) (before : H)
  | failedAt (i : Nat)

variable (c) [DecidableEq H]

/-- The walk from position `i`, after an entry with hash `before` if there
is one. -/
def walkFrom : Option H → Nat → List E → Finding E H
  | _, _, [] => .intact
  | before, i, e :: es =>
    match c.digest e with
    | none => .failedAt i
    | some expected =>
      if c.hash e ≠ expected then .badHash i e expected
      else match before with
        | none => walkFrom (some (c.hash e)) (i + 1) es
        | some h =>
          if c.prev e ≠ h then .badLink i e h else walkFrom (some (c.hash e)) (i + 1) es

def walk : List E → Finding E H
  | [] => .intact
  | e :: es => if c.prev e ≠ c.genesis then .badGenesis e else walkFrom c none 0 (e :: es)

variable {c}

theorem walkFrom_eq_intact {h : H} {i : Nat} :
    walkFrom c (some h) i es = .intact ↔ Linked c h es := by
  induction es generalizing h i with
  | nil => simp [walkFrom, Linked]
  | cons e es ih =>
    simp only [walkFrom, Linked]
    cases hd : c.digest e with
    | none => simp
    | some expected =>
      by_cases hh : c.hash e = expected
      · by_cases hp : c.prev e = h
        · simp [hh, hp, ← ih (h := expected) (i := i + 1)]
        · simp [hh, hp]
      · simp [hh, Ne.symm hh]

/-- The two checkers accept the same logs. -/
theorem walk_eq_intact : walk c es = .intact ↔ Linked c c.genesis es := by
  cases es with
  | nil => simp [walk, Linked]
  | cons e es =>
    simp only [walk]
    by_cases hp : c.prev e = c.genesis
    · simp only [hp, ne_eq, not_true_eq_false, if_false, walkFrom, Linked, true_and]
      cases hd : c.digest e with
      | none => simp
      | some expected =>
        by_cases hh : c.hash e = expected
        · simp [hh, walkFrom_eq_intact]
        · simp [hh, Ne.symm hh]
    · simp [hp, Linked]

end

end HashChain
