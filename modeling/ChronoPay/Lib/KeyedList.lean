import Mathlib.Tactic.Common

/-!
# KeyedList — a list read and written by key, first match wins

The in-memory stores keep their records in an array and find one by
scanning for its key. Nothing forces keys to be distinct, so the laws
here are stated for the FIRST record with a key, which is the only one
`get` sees and the only one `modify` touches.

`Edits l l'` says `l'` came from `l` by any number of such updates.
`Numbered mk key n l` says the keys of `l` were drawn from the sequence
`mk`, each at most once and none from `n` on.
-/

namespace KeyedList

open Function List

variable {α κ : Type*} [DecidableEq κ] (key : α → κ)

/-- The first record with key `k`. -/
def get (k : κ) (l : List α) : Option α := l.find? fun a => decide (key a = k)

/-- Update the first record with key `k`. -/
def modify (k : κ) (f : α → α) : List α → List α
  | [] => []
  | a :: l => if key a = k then f a :: l else a :: modify k f l

/-- Put a record in the place of the one with its key, or at the end. -/
def put (a : α) (l : List α) : List α :=
  match get key (key a) l with
  | some _ => modify key (key a) (fun _ => a) l
  | none => l ++ [a]

variable {key} {k k' : κ} {f : α → α} {a : α} {l : List α}

@[simp] theorem get_nil : get key k [] = none := rfl

theorem get_cons : get key k (a :: l) = if key a = k then some a else get key k l := by
  by_cases h : key a = k <;> simp [get, h]

theorem get_key (h : get key k l = some a) : key a = k := by
  simpa using find?_some h

theorem mem_of_get (h : get key k l = some a) : a ∈ l := mem_of_find?_eq_some h

theorem get_eq_none : get key k l = none ↔ ∀ a ∈ l, key a ≠ k := by
  simp [get]

/-- With distinct keys every record is the one its key reads. -/
theorem get_key_of_mem (hl : (l.map key).Nodup) (ha : a ∈ l) : get key (key a) l = some a := by
  induction l with
  | nil => cases ha
  | cons b l ih =>
    obtain ⟨hb, hl⟩ := nodup_cons.mp hl
    rw [get_cons]
    rcases mem_cons.mp ha with rfl | ha
    · rw [if_pos rfl]
    · have hne : key b ≠ key a := by
        intro h
        exact hb (h ▸ mem_map_of_mem ha)
      rw [if_neg hne, ih hl ha]

omit [DecidableEq κ] in
theorem forall_mem_concat {P : α → Prop} (hl : ∀ b ∈ l, P b) (ha : P a) : ∀ b ∈ l ++ [a], P b :=
  forall_mem_append.mpr ⟨hl, forall_mem_singleton.mpr ha⟩

omit [DecidableEq κ] in
theorem getElem?_concat_some {b : α} {i : Nat} (h : (l ++ [a])[i]? = some b) :
    l[i]? = some b ∨ i = l.length ∧ a = b := by
  rw [getElem?_append, getElem?_singleton] at h
  split at h
  · exact .inl h
  · split at h
    · exact .inr ⟨by omega, Option.some.inj h⟩
    · cases h

omit [DecidableEq κ] in
theorem nodup_map_concat (hl : (l.map key).Nodup) (ha : ∀ b ∈ l, key b ≠ key a) :
    ((l ++ [a]).map key).Nodup := by
  rw [((perm_append_singleton a l).map key).nodup_iff]
  refine nodup_cons.mpr ⟨fun hmem => ?_, hl⟩
  obtain ⟨b, hb, hkey⟩ := mem_map.mp hmem
  exact ha b hb hkey

theorem get_append (l l' : List α) : get key k (l ++ l') = (get key k l).or (get key k l') := by
  simp [get, find?_append]

/-- An update that puts a record with the same key is read back. -/
theorem get_modify_of_key (hf : ∀ a, key a = k → key (f a) = k) :
    get key k' (modify key k f l) = if k' = k then (get key k' l).map f else get key k' l := by
  induction l with
  | nil => split <;> rfl
  | cons a l ih =>
    unfold modify
    by_cases ha : key a = k
    · rw [if_pos ha, get_cons, get_cons, hf a ha, ha]
      by_cases hk : k' = k
      · rw [if_pos hk, if_pos hk.symm, if_pos hk.symm, Option.map_some]
      · rw [if_neg hk, if_neg (Ne.symm hk), if_neg (Ne.symm hk)]
    · rw [if_neg ha, get_cons, get_cons, ih]
      by_cases hk : key a = k'
      · rw [if_pos hk, if_pos hk, if_neg (hk ▸ ha)]
      · rw [if_neg hk, if_neg hk]

theorem get_modify (hf : ∀ a, key (f a) = key a) :
    get key k' (modify key k f l) = if k' = k then (get key k' l).map f else get key k' l :=
  get_modify_of_key fun a ha => (hf a).trans ha

theorem get_modify_self (hf : ∀ a, key (f a) = key a) :
    get key k (modify key k f l) = (get key k l).map f :=
  (get_modify hf).trans (if_pos rfl)

/-- What is put is read back under its key, and under no other. -/
theorem get_put (a : α) (l : List α) :
    get key k (put key a l) = if key a = k then some a else get key k l := by
  unfold put
  split
  next old hold =>
    rw [get_modify_of_key fun _ _ => rfl]
    simp only [eq_comm (a := k)]
    split
    next hk =>
      rw [← hk, hold]
      rfl
    · rfl
  next hnone =>
    rw [get_append, get_cons, get_nil]
    split
    next hk =>
      rw [← hk, hnone]
      rfl
    · rw [Option.or_none]

theorem modify_of_get_none (h : get key k l = none) : modify key k f l = l := by
  induction l with
  | nil => rfl
  | cons a l ih =>
    rw [get_cons] at h
    split at h
    · cases h
    · rw [modify, if_neg ‹_›, ih h]

/-- An update that does not change the record it finds. -/
theorem modify_of_get (h : get key k l = some a) (ha : f a = a) : modify key k f l = l := by
  induction l with
  | nil => rfl
  | cons b l ih =>
    rw [get_cons] at h
    split at h
    · cases h
      rw [modify, if_pos ‹_›, ha]
    · rw [modify, if_neg ‹_›, ih h]

theorem modify_modify {g : α → α} (hf : ∀ a, key (f a) = key a) :
    modify key k g (modify key k f l) = modify key k (g ∘ f) l := by
  induction l with
  | nil => rfl
  | cons a l ih =>
    by_cases hk : key a = k
    · simp [modify, hk, hf]
    · simp [modify, hk, ih]

/-- An update that puts a record with the same key. -/
theorem map_key_modify_of_key (hf : ∀ a, key a = k → key (f a) = k) :
    (modify key k f l).map key = l.map key := by
  induction l with
  | nil => rfl
  | cons a l ih =>
    unfold modify
    split
    next hk => rw [map_cons, map_cons, hf a hk, hk]
    · rw [map_cons, map_cons, ih]

theorem map_key_modify (hf : ∀ a, key (f a) = key a) : (modify key k f l).map key = l.map key :=
  map_key_modify_of_key fun a hk => (hf a).trans hk

/-- What an update keeps of every record, it keeps of the list. -/
theorem forall_mem_modify {P : α → Prop} (hf : ∀ a, P a → P (f a)) (hl : ∀ a ∈ l, P a) :
    ∀ a ∈ modify key k f l, P a := by
  induction l with
  | nil => exact hl
  | cons a l ih =>
    rw [forall_mem_cons] at hl
    unfold modify
    split
    · exact forall_mem_cons.mpr ⟨hf a hl.1, hl.2⟩
    · exact forall_mem_cons.mpr ⟨hl.1, ih hl.2⟩

theorem forall_mem_put {P : α → Prop} (ha : P a) (hl : ∀ a ∈ l, P a) : ∀ b ∈ put key a l, P b := by
  unfold put
  split
  · exact forall_mem_modify (fun _ _ => ha) hl
  · exact forall_mem_concat hl ha

theorem nodup_put (hl : (l.map key).Nodup) (a : α) : ((put key a l).map key).Nodup := by
  unfold put
  split
  · rw [map_key_modify_of_key fun _ _ => rfl]
    exact hl
  next hnone => exact nodup_map_concat hl (get_eq_none.mp hnone)

/-- With distinct keys `modify` is a map. -/
theorem modify_eq_map (hl : (l.map key).Nodup) :
    modify key k f l = l.map fun a => if key a = k then f a else a := by
  induction l with
  | nil => rfl
  | cons b l ih =>
    rw [map_cons, nodup_cons] at hl
    by_cases hb : key b = k
    · have hrest : ∀ a ∈ l, (if key a = k then f a else a) = a := fun a ha =>
        if_neg fun hk => hl.1 (mem_map.mpr ⟨a, ha, hk.trans hb.symm⟩)
      simp [modify, hb, map_congr_left hrest]
    · simp [modify, hb, ih hl.2]

/-- With distinct keys an update leaves every record with another key, and
puts the updated one in the place of the one it found. -/
theorem mem_modify (hl : (l.map key).Nodup) (ha : a ∈ modify key k f l) :
    (a ∈ l ∧ key a ≠ k) ∨ ∃ b ∈ l, key b = k ∧ a = f b := by
  rw [modify_eq_map hl, mem_map] at ha
  obtain ⟨b, hb, rfl⟩ := ha
  by_cases hk : key b = k
  · exact .inr ⟨b, hb, hk, if_pos hk⟩
  · rw [if_neg hk]
    exact .inl ⟨hb, hk⟩

theorem mem_modify_of_ne (ha : a ∈ l) (hne : key a ≠ k) : a ∈ modify key k f l := by
  induction l with
  | nil => cases ha
  | cons b l ih =>
    unfold modify
    rcases mem_cons.mp ha with rfl | ha
    · rw [if_neg hne]
      exact mem_cons_self
    · split
      · exact mem_cons_of_mem _ ha
      · exact mem_cons_of_mem _ (ih ha)

/-- Counting across an update: only the updated record can change sides. -/
theorem countP_modify (p : α → Bool) (h : get key k l = some a) :
    (modify key k f l).countP p + (if p a then 1 else 0)
      = l.countP p + (if p (f a) then 1 else 0) := by
  induction l with
  | nil => simp at h
  | cons b l ih =>
    rw [get_cons] at h
    unfold modify
    split at h
    · cases h
      rw [if_pos ‹_›, countP_cons, countP_cons]
      omega
    · have := ih h
      rw [if_neg ‹_›, countP_cons, countP_cons]
      omega

theorem countP_modify_of_forall {p : α → Bool} (hf : ∀ a, p (f a) = p a) :
    (modify key k f l).countP p = l.countP p := by
  cases h : get key k l with
  | none => rw [modify_of_get_none h]
  | some a =>
    have := countP_modify (f := f) p h
    rw [hf a] at this
    omega

/-- `l'` is `l` after some updates of records by key. -/
inductive Edits (key : α → κ) (l : List α) : List α → Prop
  | refl : Edits key l l
  | modify {l' : List α} (k : κ) {f : α → α} (hf : ∀ a, key (f a) = key a) :
      Edits key l l' → Edits key l (modify key k f l')

theorem Edits.trans {l l' l'' : List α} (h : Edits key l l') (h' : Edits key l' l'') :
    Edits key l l'' := by
  induction h' with
  | refl => exact h
  | modify k hf _ ih => exact .modify k hf ih

/-- Edits keep which keys are present. -/
theorem Edits.get_isSome {l l' : List α} (h : Edits key l l') (k : κ) :
    (get key k l').isSome = (get key k l).isSome := by
  induction h with
  | refl => rfl
  | modify k' hf _ ih =>
    rw [get_modify hf]
    split <;> simp [ih]

/-- Keys drawn from a sequence, of which `n` is the next to be drawn. -/
structure Numbered (mk : Nat → κ) (key : α → κ) (n : Nat) (l : List α) : Prop where
  nodup : (l.map key).Nodup
  drawn : ∀ a ∈ l, ∃ i < n, key a = mk i

/-- A label followed by a number is a sequence of keys. -/
theorem label_injective (label : String) : Injective fun n : Nat => label ++ toString n := by
  intro a b h
  have hdigits := (String.append_right_inj _).mp h
  have hvalue := congrArg (Nat.ofDigitChars 10 · 0) (String.ofList_injective hdigits)
  rwa [Nat.ofDigitChars_ten_toDigits, Nat.ofDigitChars_ten_toDigits] at hvalue

section

variable {mk : Nat → κ} {n : Nat}

omit [DecidableEq κ] in
theorem Numbered.nil : Numbered mk key n [] := ⟨nodup_nil, nofun⟩

omit [DecidableEq κ] in
theorem Numbered.fresh (hmk : Injective mk) (h : Numbered mk key n l) (ha : a ∈ l) :
    key a ≠ mk n := by
  obtain ⟨i, hi, hkey⟩ := h.drawn a ha
  intro heq
  have : i = n := hmk (hkey.symm.trans heq)
  omega

omit [DecidableEq κ] in
theorem Numbered.concat (hmk : Injective mk) (h : Numbered mk key n l)
    (ha : key a = mk n) : Numbered mk key (n + 1) (l ++ [a]) where
  nodup := nodup_map_concat h.nodup fun b hb => ha ▸ h.fresh hmk hb
  drawn := by
    refine forall_mem_concat (fun b hb => ?_) ⟨n, Nat.lt_succ_self n, ha⟩
    obtain ⟨i, hi, hkey⟩ := h.drawn b hb
    exact ⟨i, Nat.lt_succ_of_lt hi, hkey⟩

theorem Numbered.modify (hf : ∀ a, key (f a) = key a) (h : Numbered mk key n l) :
    Numbered mk key n (modify key k f l) where
  nodup := by
    rw [map_key_modify hf]
    exact h.nodup
  drawn := forall_mem_modify (fun a ha => by rw [hf]; exact ha) h.drawn

end

end KeyedList
