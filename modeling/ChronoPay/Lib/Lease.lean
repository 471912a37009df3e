import Mathlib.Algebra.BigOperators.Group.List.Basic
import Mathlib.Algebra.GroupWithZero.Nat
import Mathlib.Data.List.Nodup

/-!
# Lease — parties that acquire, give back or keep exclusive resources

Resources are keys with a `free` flag. A party acquires a free key,
holds it while it prepares a record for it, and then either gives the
key back or keeps it for good by writing the record to a common log.
Parties act one at a time, in any order.

`Exclusive` is the invariant of such a system: a key nobody claims has
the flag it started with, and a claimed key was free at the start, is
not free now, and is claimed ONCE. So nobody frees what another party
holds, and no key is lost.
-/

namespace Lease

open Function List

variable {κ ρ : Type*} [DecidableEq κ]

/-- What everybody sees: the flags and the log. -/
structure Board (κ ρ : Type*) where
  free : κ → Bool
  log : List ρ

/-- One party: the key it holds for the moment, the records it kept. -/
structure Holder (κ ρ : Type*) where
  held : Option κ := none
  kept : List ρ := []

/-- One action of one party. -/
inductive Act (key : ρ → κ) : Board κ ρ × Holder κ ρ → Board κ ρ × Holder κ ρ → Prop
  | acquire {b : Board κ ρ} {kept : List ρ} (k : κ) (hfree : b.free k = true) :
      Act key (b, ⟨none, kept⟩) ({ b with free := update b.free k false }, ⟨some k, kept⟩)
  | release {b : Board κ ρ} {kept : List ρ} (k : κ) :
      Act key (b, ⟨some k, kept⟩) ({ b with free := update b.free k true }, ⟨none, kept⟩)
  | keep {b : Board κ ρ} {kept : List ρ} (r : ρ) :
      Act key (b, ⟨some (key r), kept⟩) ({ b with log := b.log ++ [r] }, ⟨none, kept ++ [r]⟩)

/-- Several actions of one party without interruption. -/
abbrev Acts (key : ρ → κ) := Relation.ReflTransGen (Act key)

/-- How often a party claims a key. -/
def Holder.claims (key : ρ → κ) (h : Holder κ ρ) (k : κ) : Nat :=
  (if h.held = some k then 1 else 0) + (h.kept.map key).count k

/-- How often a key is claimed by anybody. -/
def owners (key : ρ → κ) (hs : List (Holder κ ρ)) (k : κ) : Nat :=
  (hs.map fun h => h.claims key k).sum

/-- Everything kept, party by party. -/
def kept (hs : List (Holder κ ρ)) : List ρ := hs.flatMap Holder.kept

structure Exclusive (key : ρ → κ) (b₀ b : Board κ ρ) (hs : List (Holder κ ρ)) : Prop where
  /-- Unclaimed and as at the start, or claimed once and not free. -/
  flags : ∀ k, (owners key hs k = 0 ∧ b.free k = b₀.free k) ∨
    (owners key hs k = 1 ∧ b₀.free k = true ∧ b.free k = false)
  /-- The log grew by exactly what was kept. -/
  log : ∃ added, b.log = b₀.log ++ added ∧ added.Perm (kept hs)

variable {key : ρ → κ} {b₀ b b' : Board κ ρ} {hs : List (Holder κ ρ)} {h h' : Holder κ ρ} {i : Nat}

omit [DecidableEq κ] in
theorem exists_of_set (hi : hs[i]? = some h) (h' : Holder κ ρ) :
    ∃ before after, hs = before ++ h :: after ∧ hs.set i h' = before ++ h' :: after := by
  obtain ⟨hlt, rfl⟩ := List.getElem?_eq_some_iff.mp hi
  obtain ⟨before, after, hhs, -, hset⟩ := List.exists_of_set hlt
  exact ⟨before, after, hhs, hset⟩

/-- Replacing one party trades its old claims for its new ones. -/
theorem owners_set (key : ρ → κ) (hi : hs[i]? = some h) (h' : Holder κ ρ) (k : κ) :
    owners key (hs.set i h') k + h.claims key k = owners key hs k + h'.claims key k := by
  obtain ⟨before, after, hhs, hset⟩ := exists_of_set hi h'
  rw [hset, hhs]
  simp only [owners, map_append, map_cons, sum_append, sum_cons]
  omega

theorem claims_le_owners (key : ρ → κ) (hi : hs[i]? = some h) (k : κ) :
    h.claims key k ≤ owners key hs k := by
  have := owners_set key hi ⟨none, []⟩ k
  simp only [Holder.claims, reduceCtorEq, if_false, map_nil, count_nil] at this ⊢
  omega

omit [DecidableEq κ] in
theorem kept_set_append {r : List ρ} (hi : hs[i]? = some h) (hkept : h'.kept = h.kept ++ r) :
    (kept (hs.set i h')).Perm (kept hs ++ r) := by
  obtain ⟨before, after, hhs, hset⟩ := exists_of_set hi h'
  rw [hset, hhs]
  simp only [kept, flatMap_append, flatMap_cons, hkept, append_assoc]
  exact (perm_append_comm.append_left _).append_left _

/-- **One action keeps the claims exclusive.** -/
theorem Exclusive.act (hex : Exclusive key b₀ b hs) (hi : hs[i]? = some h)
    (hact : Act key (b, h) (b', h')) : Exclusive key b₀ b' (hs.set i h') := by
  obtain ⟨added, hlog, hperm⟩ := hex.log
  have hsame : h'.kept = h.kept → (kept (hs.set i h')).Perm (kept hs) := by
    intro heq
    simpa using kept_set_append hi (heq.trans (append_nil _).symm)
  have hown : ∀ k, owners key (hs.set i h') k + h.claims key k
      = owners key hs k + h'.claims key k := owners_set key hi h'
  have hkeep : ∀ k, owners key (hs.set i h') k = owners key hs k → b'.free k = b.free k →
      (owners key (hs.set i h') k = 0 ∧ b'.free k = b₀.free k) ∨
        (owners key (hs.set i h') k = 1 ∧ b₀.free k = true ∧ b'.free k = false) := by
    intro k howners hfree
    rw [howners, hfree]
    exact hex.flags k
  cases hact with
  | @acquire _ kept k hfree =>
    refine ⟨fun j => ?_, added, hlog, hperm.trans (hsame rfl).symm⟩
    have hj := hown j
    simp only [Holder.claims, reduceCtorEq, if_false, Option.some.injEq] at hj
    by_cases hjk : k = j
    · subst hjk
      rw [if_pos rfl] at hj
      rcases hex.flags k with ⟨hzero, hsame⟩ | ⟨-, -, hbusy⟩
      · exact .inr ⟨by omega, hsame ▸ hfree, update_self ..⟩
      · rw [hfree] at hbusy
        cases hbusy
    · rw [if_neg hjk] at hj
      exact hkeep j (by omega) (update_of_ne (Ne.symm hjk) ..)
  | @release _ kept k =>
    refine ⟨fun j => ?_, added, hlog, hperm.trans (hsame rfl).symm⟩
    have hj := hown j
    simp only [Holder.claims, reduceCtorEq, if_false, Option.some.injEq] at hj
    by_cases hjk : k = j
    · subst hjk
      rw [if_pos rfl] at hj
      rcases hex.flags k with ⟨hzero, -⟩ | ⟨hone, hstart, -⟩
      · omega
      · refine .inl ⟨by omega, ?_⟩
        simp [hstart]
    · rw [if_neg hjk] at hj
      exact hkeep j (by omega) (update_of_ne (Ne.symm hjk) ..)
  | @keep _ kept r =>
    refine ⟨fun j => ?_, added ++ [r], by simp [hlog], ?_⟩
    · -- the claim moves from held to kept
      have hj := hown j
      simp only [Holder.claims, reduceCtorEq, if_false, Option.some.injEq, map_append,
        map_cons, map_nil, count_append, count_singleton, beq_iff_eq] at hj
      refine hkeep j ?_ rfl
      split at hj <;> omega
    · exact (hperm.append_right [r]).trans (kept_set_append hi rfl).symm

theorem Exclusive.acts (hex : Exclusive key b₀ b hs) (hi : hs[i]? = some h)
    (hacts : Acts key (b, h) (b', h')) : Exclusive key b₀ b' (hs.set i h') := by
  generalize hp : (b, h) = p at hacts
  generalize hq : (b', h') = q at hacts
  induction hacts generalizing b' h' with
  | refl =>
    subst hp
    cases hq
    obtain ⟨hlt, rfl⟩ := List.getElem?_eq_some_iff.mp hi
    rwa [set_getElem_self]
  | @tail mid q hfirst hlast ih =>
    subst hp hq
    have hmid : Exclusive key b₀ mid.1 (hs.set i mid.2) := ih rfl
    have hset : (hs.set i mid.2)[i]? = some mid.2 := by
      have hlt := (List.getElem?_eq_some_iff.mp hi).1
      simp [hlt]
    simpa using hmid.act hset hlast

/-- A new party claims nothing. -/
theorem Exclusive.join (hex : Exclusive key b₀ b hs) : Exclusive key b₀ b (hs ++ [⟨none, []⟩]) := by
  refine ⟨fun k => ?_, ?_⟩
  · simpa [owners, Holder.claims] using hex.flags k
  · simpa [kept] using hex.log

theorem Exclusive.start (b : Board κ ρ) : Exclusive key b b [] :=
  ⟨fun _ => .inl ⟨rfl, rfl⟩, [], by simp, .refl _⟩

/-- A key held for the moment was free at the start. -/
theorem Exclusive.held (hex : Exclusive key b₀ b hs) (hi : hs[i]? = some h) {k : κ}
    (hheld : h.held = some k) : b₀.free k = true := by
  have hle := claims_le_owners key hi k
  simp only [Holder.claims, hheld, if_true] at hle
  rcases hex.flags k with ⟨hzero, -⟩ | ⟨-, hstart, -⟩
  · omega
  · exact hstart

theorem count_kept_le_owners (key : ρ → κ) (hs : List (Holder κ ρ)) (k : κ) :
    ((kept hs).map key).count k ≤ owners key hs k := by
  induction hs with
  | nil => simp [kept]
  | cons g hs ih =>
    simp only [kept, flatMap_cons, map_append, count_append, owners, map_cons,
      sum_cons, Holder.claims] at ih ⊢
    omega

/-- Nothing is kept twice. -/
theorem Exclusive.kept_nodup (hex : Exclusive key b₀ b hs) : ((kept hs).map key).Nodup := by
  rw [nodup_iff_count_le_one]
  intro k
  have hle := count_kept_le_owners key hs k
  rcases hex.flags k with ⟨hzero, -⟩ | ⟨hone, -, -⟩ <;> omega

/-- What is kept was free at the start and is not free any more. -/
theorem Exclusive.kept_taken (hex : Exclusive key b₀ b hs) {r : ρ} (hr : r ∈ kept hs) :
    b₀.free (key r) = true ∧ b.free (key r) = false := by
  have hle := count_kept_le_owners key hs (key r)
  have hpos : 0 < ((kept hs).map key).count (key r) := count_pos_iff.mpr (mem_map_of_mem hr)
  rcases hex.flags (key r) with ⟨hzero, -⟩ | ⟨-, hstart, hbusy⟩
  · omega
  · exact ⟨hstart, hbusy⟩

/-- Once nobody holds a key for the moment, every key that was not kept
is as it was. -/
theorem Exclusive.settled (hex : Exclusive key b₀ b hs) (hidle : ∀ h ∈ hs, h.held = none) {k : κ}
    (hk : ∀ r ∈ kept hs, key r ≠ k) : b.free k = b₀.free k := by
  have hzero : owners key hs k = 0 := by
    refine sum_eq_zero fun n hn => ?_
    obtain ⟨h, hh, rfl⟩ := mem_map.mp hn
    have hcount : (h.kept.map key).count k = 0 := by
      rw [count_eq_zero]
      intro hmem
      obtain ⟨r, hr, hrk⟩ := mem_map.mp hmem
      exact hk r (mem_flatMap.mpr ⟨h, hh, hr⟩) hrk
    simp [Holder.claims, hidle h hh, hcount]
  rcases hex.flags k with ⟨-, hsame⟩ | ⟨hone, -, -⟩
  · exact hsame
  · omega

end Lease
