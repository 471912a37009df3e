import Mathlib.Data.List.Forall2
import ChronoPay.Lib.KeyedList

/-!
# Parts — a state seen in parts, and actions that stay within one

A `View` says when two states agree on the part named `k`. An action is
local to a part when it leaves every other part as it was, and what it
makes of its own part depends on that part only. What a sequence of such
actions makes of a part is then what those local to it make of it
(`agree_foldl_filter`): two sequences that run the same actions on every
part, in the same order there, end in states that agree on every part.

Keyed lists are the instance: records belong to parts, and two lists
agree on a part when they have the same keys and parts in the same
places, and equal records in that part.
-/

namespace Parts

open List

variable {K S A : Type*}

/-- When two states agree on a part. -/
structure View (K S : Type*) where
  Agree : K → S → S → Prop
  refl (k : K) (s : S) : Agree k s s
  symm {k : K} {s s' : S} : Agree k s s' → Agree k s' s
  trans {k : K} {s s' s'' : S} : Agree k s s' → Agree k s' s'' → Agree k s s''

/-- On valid states, `f` reads and writes the part `k` only. -/
structure LocalTo (v : View K S) (Valid : S → Prop) (k : K) (f : S → S) : Prop where
  valid {s : S} : Valid s → Valid (f s)
  frame {s : S} {k' : K} : Valid s → k' ≠ k → v.Agree k' (f s) s
  congr {s s' : S} : Valid s → Valid s' → v.Agree k s s' → v.Agree k (f s) (f s')

variable {v : View K S} {Valid : S → Prop} {part : A → K} {act : A → S → S} {s s' : S}
  (hact : ∀ a, LocalTo v Valid (part a) (act a))
include hact

theorem valid_foldl (hs : Valid s) (l : List A) : Valid (l.foldl (fun s a => act a s) s) := by
  induction l generalizing s with
  | nil => exact hs
  | cons a l ih => exact ih ((hact a).valid hs)

theorem agree_foldl (hs : Valid s) (hs' : Valid s') {k : K} (h : v.Agree k s s') {l : List A} (hl : ∀ a ∈ l, part a = k) :
    v.Agree k (l.foldl (fun s a => act a s) s) (l.foldl (fun s a => act a s) s') := by
  induction l generalizing s s' with
  | nil => exact h
  | cons a l ih =>
    obtain ⟨ha, hl⟩ := forall_mem_cons.mp hl
    subst ha
    exact ih ((hact a).valid hs) ((hact a).valid hs') ((hact a).congr hs hs' h) hl

variable [DecidableEq K]

/-- **Only the actions local to a part matter to it.** -/
theorem agree_foldl_filter (hs : Valid s) (k : K) (l : List A) :
    v.Agree k (l.foldl (fun s a => act a s) s)
      ((l.filter fun a => part a = k).foldl (fun s a => act a s) s) := by
  induction l generalizing s with
  | nil => exact v.refl k s
  | cons a l ih =>
    by_cases ha : part a = k
    · rw [filter_cons_of_pos (by simpa using ha)]
      exact ih ((hact a).valid hs)
    · rw [filter_cons_of_neg (by simpa using ha), foldl_cons]
      -- the action is local to another part: what follows may as well start before it
      have hframe : v.Agree k (act a s) s := (hact a).frame hs (Ne.symm ha)
      refine v.trans (ih ((hact a).valid hs)) (agree_foldl hact ((hact a).valid hs) hs hframe ?_)
      intro b hb
      simpa using (mem_filter.mp hb).2

theorem agree_of_filter_eq (hs : Valid s) {k : K} {l l' : List A}
    (h : (l.filter fun a => part a = k) = l'.filter fun a => part a = k) :
    v.Agree k (l.foldl (fun s a => act a s) s) (l'.foldl (fun s a => act a s) s) := by
  refine v.trans (agree_foldl_filter hact hs k l) ?_
  rw [h]
  exact v.symm (agree_foldl_filter hact hs k l')

end Parts

/-! ## Keyed lists -/

namespace KeyedList

open List

variable {α κ π : Type*} {key : α → κ} {part : α → π} {x : π} {k : κ} {f : α → α}
  {l l' l'' : List α}

/-- Two records in the same place of lists that agree on the part `x`. -/
structure Match (key : α → κ) (part : α → π) (x : π) (a b : α) : Prop where
  key_eq : key a = key b
  part_eq : part a = part b
  eq_of_part : part a = x → a = b

/-- The lists agree on the part `x`. -/
abbrev AgreeOn (key : α → κ) (part : α → π) (x : π) : List α → List α → Prop :=
  List.Forall₂ (Match key part x)

namespace AgreeOn

theorem refl (key : α → κ) (part : α → π) (x : π) (l : List α) : AgreeOn key part x l l :=
  forall₂_same.mpr fun _ _ => ⟨rfl, rfl, fun _ => rfl⟩

theorem symm (h : AgreeOn key part x l l') : AgreeOn key part x l' l := by
  induction h with
  | nil => exact .nil
  | cons hab _ ih =>
    exact .cons ⟨hab.key_eq.symm, hab.part_eq.symm,
      fun hb => (hab.eq_of_part (hab.part_eq.trans hb)).symm⟩ ih

theorem trans (h : AgreeOn key part x l l') (h' : AgreeOn key part x l' l'') :
    AgreeOn key part x l l'' := by
  induction h generalizing l'' with
  | nil => exact h'
  | cons hab _ ih =>
    cases h' with
    | cons hbc htail =>
      exact .cons ⟨hab.key_eq.trans hbc.key_eq, hab.part_eq.trans hbc.part_eq,
        fun ha => (hab.eq_of_part ha).trans (hbc.eq_of_part (hab.part_eq ▸ ha))⟩ (ih htail)

/-- Lists that agree on every part are equal. -/
theorem eq (h : ∀ x, AgreeOn key part x l l') : l = l' := by
  induction l generalizing l' with
  | nil =>
    cases l' with
    | nil => rfl
    | cons b l' => cases h (part b)
  | cons a l ih =>
    cases l' with
    | nil => cases h (part a)
    | cons b l' =>
      have hhead := (forall₂_cons.mp (h (part a))).1
      rw [hhead.eq_of_part rfl, ih fun x => (forall₂_cons.mp (h x)).2]

theorem filter [DecidableEq π] (h : AgreeOn key part x l l') :
    (l.filter fun a => part a = x) = l'.filter fun a => part a = x := by
  induction h with
  | nil => rfl
  | @cons a b _ _ hab _ ih =>
    by_cases ha : part a = x
    · obtain rfl := hab.eq_of_part ha
      rw [filter_cons_of_pos (by simpa using ha), filter_cons_of_pos (by simpa using ha), ih]
    · have hb : part b ≠ x := hab.part_eq ▸ ha
      rw [filter_cons_of_neg (by simpa using ha), filter_cons_of_neg (by simpa using hb), ih]

variable [DecidableEq κ]

/-- A key reads the same in both lists, or a record of another part in both. -/
theorem get [DecidableEq π] (h : AgreeOn key part x l l') (k : κ) :
    ((KeyedList.get key k l).filter fun a => part a = x)
      = (KeyedList.get key k l').filter fun a => part a = x := by
  induction h with
  | nil => rfl
  | @cons a b _ _ hab _ ih =>
    rw [get_cons, get_cons, ← hab.key_eq]
    split
    · by_cases ha : part a = x
      · rw [hab.eq_of_part ha]
      · have hb : part b ≠ x := hab.part_eq ▸ ha
        simp [Option.filter, ha, hb]
    · exact ih

theorem modify (h : AgreeOn key part x l l') (hkey : ∀ a, key (f a) = key a)
    (hpart : ∀ a, part (f a) = part a) (k : κ) :
    AgreeOn key part x (modify key k f l) (modify key k f l') := by
  induction h with
  | nil => exact .nil
  | @cons a b _ _ hab htail ih =>
    unfold KeyedList.modify
    rw [← hab.key_eq]
    split
    · refine .cons ⟨?_, ?_, fun ha => ?_⟩ htail
      · rw [hkey, hkey, hab.key_eq]
      · rw [hpart, hpart, hab.part_eq]
      · rw [hab.eq_of_part (hpart a ▸ ha)]
    · exact .cons hab ih

end AgreeOn

variable [DecidableEq κ]

/-- An update of a record of another part. -/
theorem agreeOn_modify (hkey : ∀ a, key (f a) = key a) (hpart : ∀ a, part (f a) = part a)
    (h : ∀ a, get key k l = some a → part a ≠ x) :
    AgreeOn key part x (modify key k f l) l := by
  induction l with
  | nil => exact .nil
  | cons a l ih =>
    rw [get_cons] at h
    unfold modify
    split
    next ha =>
      rw [if_pos ha] at h
      refine .cons ⟨hkey a, hpart a, fun hx => ?_⟩ (AgreeOn.refl key part x l)
      exact absurd (hpart a ▸ hx) (h a rfl)
    next ha =>
      rw [if_neg ha] at h
      exact .cons ⟨rfl, rfl, fun _ => rfl⟩ (ih h)

end KeyedList
