import Mathlib.Data.List.DropRight

/-!
# TextPieces — trimming a text and cutting it into pieces

`trimBy` takes off what is blank at both ends. `splitDoubled` cuts a text
at every doubled separator, from the left: the frames of a protocol that
ends each with an empty line. A receiver that gets the text in chunks
cuts what it has, keeps the last piece and goes on; `splitDoubled_append`
says it finds the pieces of the whole text.
-/

namespace TextPieces

open List

variable {α : Type*}

/-- A text that ends where the first character of another kind stands. -/
theorem append_inj_of_kind (kind : α → Prop) {a a' b b' : List α} (ha : ∀ c ∈ a, kind c)
    (ha' : ∀ c ∈ a', kind c) (hb : ∀ c ∈ b.head?, ¬ kind c) (hb' : ∀ c ∈ b'.head?, ¬ kind c)
    (h : a ++ b = a' ++ b') : a = a' ∧ b = b' := by
  rcases append_eq_append_iff.mp h with ⟨c, rfl, rfl⟩ | ⟨c, rfl, rfl⟩
  · cases c with
    | nil => simp
    | cons d c => exact absurd (ha' d (by simp)) (hb d rfl)
  · cases c with
    | nil => simp
    | cons d c => exact absurd (ha d (by simp)) (hb' d rfl)

/-! ## Trimming -/

def trimBy (blank : α → Bool) (text : List α) : List α := (text.dropWhile blank).rdropWhile blank

section

variable {blank : α → Bool} {a b : List α}

/-- What is not blank ends the blanks at the right. -/
theorem rdropWhile_append (a b : List α) :
    (a ++ b).rdropWhile blank = if ∀ x ∈ b, blank x then a.rdropWhile blank
      else a ++ b.rdropWhile blank := by
  unfold List.rdropWhile
  rw [reverse_append, dropWhile_append]
  split_ifs with hnil hblank hblank
  · rfl
  · exact absurd (by simpa using hnil) hblank
  · exact absurd (by simpa using hblank) hnil
  · rw [reverse_append, reverse_reverse]

theorem dropWhile_append_of_ne_nil (h : a.dropWhile blank ≠ []) :
    (a ++ b).dropWhile blank = a.dropWhile blank ++ b := by
  rw [dropWhile_append, if_neg (mt List.isEmpty_iff.mp h)]

/-- Appending to a text that is not blank extends what trimming leaves of
it, by at least what is not blank. -/
theorem trimBy_append (h : trimBy blank a ≠ []) (b : List α) :
    ∃ r, trimBy blank (a ++ b) = trimBy blank a ++ r ∧ ∀ x ∈ b, ¬ blank x → x ∈ r := by
  have hleft : a.dropWhile blank ≠ [] := by
    intro hnil
    exact h (by rw [trimBy, hnil, rdropWhile_nil])
  rw [trimBy, trimBy, dropWhile_append_of_ne_nil hleft, rdropWhile_append]
  split_ifs with hb
  · exact ⟨[], (append_nil _).symm, fun x hx hblank => absurd (hb x hx) hblank⟩
  · refine ⟨(a.dropWhile blank).rtakeWhile blank ++ b.rdropWhile blank, ?_, ?_⟩
    · rw [← append_assoc, rdropWhile_append_rtakeWhile]
    · intro x hx hblank
      rw [← rdropWhile_append_rtakeWhile (p := blank) (l := b)] at hx
      rcases mem_append.mp hx with hx | hx
      · exact mem_append_right _ hx
      · exact absurd (mem_rtakeWhile_imp hx) hblank

end

/-! ## Cutting at doubled separators -/

/-- Put an element in front of the first piece. -/
def consFirst (c : α) : List (List α) → List (List α)
  | [] => [[c]]
  | piece :: pieces => (c :: piece) :: pieces

section

variable [DecidableEq α] {sep : α}

/-- `text.split(sep + sep)`. -/
def splitDoubled (sep : α) : List α → List (List α)
  | [] => [[]]
  | [c] => [[c]]
  | c :: d :: rest =>
    if c = sep ∧ d = sep then [] :: splitDoubled sep rest
    else consFirst c (splitDoubled sep (d :: rest))

theorem splitDoubled_ne_nil (text : List α) : splitDoubled sep text ≠ [] := by
  induction text using splitDoubled.induct sep with
  | case1 | case2 => exact cons_ne_nil _ _
  | case3 c d rest hsep ih =>
    rw [splitDoubled, if_pos hsep]
    exact cons_ne_nil _ _
  | case4 c d rest hsep ih =>
    rw [splitDoubled, if_neg hsep]
    cases splitDoubled sep (d :: rest) <;> exact cons_ne_nil _ _

/-- The text holds no doubled separator. -/
def Whole (sep : α) (text : List α) : Prop := splitDoubled sep text = [text]

/-- Adjacent elements are not both separators. -/
theorem whole_cons {c : α} {text : List α} (htext : Whole sep text)
    (hc : c ≠ sep ∨ text.head? ≠ some sep) : Whole sep (c :: text) := by
  cases text with
  | nil => rfl
  | cons d rest =>
    have hsep : ¬ (c = sep ∧ d = sep) := by
      rintro ⟨rfl, rfl⟩
      rcases hc with hc | hc
      · exact hc rfl
      · exact hc rfl
    rw [Whole, splitDoubled, if_neg hsep, show splitDoubled sep (d :: rest) = _ from htext]
    rfl

theorem whole_of_not_mem {text : List α} (h : sep ∉ text) : Whole sep text := by
  induction text with
  | nil => rfl
  | cons c text ih =>
    obtain ⟨hc, htext⟩ := not_or.mp (mt mem_cons.mpr h)
    exact whole_cons (ih htext) (.inl (Ne.symm hc))

/-- A single separator is none to cut at. -/
theorem whole_append {first second : List α} (hfirst : sep ∉ first) (hsecond : Whole sep second)
    (hhead : second.head? ≠ some sep) : Whole sep (first ++ sep :: second) := by
  induction first with
  | nil => exact whole_cons hsecond (.inr hhead)
  | cons c first ih =>
    obtain ⟨hc, hrest⟩ := not_or.mp (mt mem_cons.mpr hfirst)
    exact whole_cons (ih hrest) (.inl (Ne.symm hc))

/-- A text in one piece is that piece. -/
theorem whole_of_singleton {text piece : List α} (h : splitDoubled sep text = [piece]) :
    piece = text := by
  induction text using splitDoubled.induct sep generalizing piece with
  | case1 | case2 => exact (singleton_inj.mp h).symm
  | case3 c d rest hsep ih =>
    rw [splitDoubled, if_pos hsep] at h
    exact absurd (List.cons.inj h).2 (splitDoubled_ne_nil rest)
  | case4 c d rest hsep ih =>
    rw [splitDoubled, if_neg hsep] at h
    obtain ⟨p, ps, hpieces⟩ := exists_cons_of_ne_nil (splitDoubled_ne_nil (d :: rest))
    rw [hpieces, consFirst] at h
    cases h
    rw [ih hpieces]

theorem whole_cons_cons {c d : α} {rest : List α} (h : Whole sep (c :: d :: rest)) :
    ¬ (c = sep ∧ d = sep) ∧ Whole sep (d :: rest) := by
  rw [Whole, splitDoubled] at h
  split_ifs at h with hsep
  · exact absurd (List.cons.inj h).1 (cons_ne_nil _ _).symm
  · refine ⟨hsep, ?_⟩
    obtain ⟨p, ps, hpieces⟩ := exists_cons_of_ne_nil (splitDoubled_ne_nil (d :: rest))
    rw [hpieces, consFirst] at h
    obtain ⟨hp, rfl⟩ := List.cons.inj h
    rw [Whole, hpieces, (List.cons.inj hp).2]

/-- A piece ends at the first doubled separator. -/
theorem splitDoubled_whole_append {piece : List α} (hpiece : Whole sep piece)
    (hlast : piece.getLast? ≠ some sep) (rest : List α) :
    splitDoubled sep (piece ++ sep :: sep :: rest) = piece :: splitDoubled sep rest := by
  induction piece with
  | nil => rw [nil_append, splitDoubled, if_pos ⟨rfl, rfl⟩]
  | cons c piece ih =>
    cases piece with
    | nil =>
      have hc : ¬ (c = sep ∧ sep = sep) := fun h => hlast (by rw [h.1]; rfl)
      rw [cons_append, nil_append, splitDoubled, if_neg hc, splitDoubled, if_pos ⟨rfl, rfl⟩]
      rfl
    | cons d piece =>
      obtain ⟨hsep, hwhole⟩ := whole_cons_cons hpiece
      rw [cons_append, cons_append, splitDoubled, if_neg hsep, ← cons_append, ih hwhole hlast]
      rfl

/-- **Cutting in steps**: cut a first part, then its last piece with what
follows. -/
theorem splitDoubled_append (first second : List α) :
    splitDoubled sep (first ++ second)
      = (splitDoubled sep first).dropLast ++
        splitDoubled sep ((splitDoubled sep first).getLastD [] ++ second) := by
  induction first using splitDoubled.induct sep with
  | case1 => rfl
  | case2 c => rfl
  | case3 c d rest hsep ih =>
    obtain ⟨p, ps, hpieces⟩ := exists_cons_of_ne_nil (splitDoubled_ne_nil rest)
    rw [cons_append, cons_append, splitDoubled, if_pos hsep, splitDoubled, if_pos hsep, ih, hpieces]
    rfl
  | case4 c d rest hsep ih =>
    obtain ⟨p, ps, hpieces⟩ := exists_cons_of_ne_nil (splitDoubled_ne_nil (d :: rest))
    have hfirst : splitDoubled sep (c :: d :: rest) = (c :: p) :: ps := by
      rw [splitDoubled, if_neg hsep, hpieces, consFirst]
    cases ps with
    | nil =>
      -- nothing to cut in the first part
      rw [hfirst, whole_of_singleton hpieces]
      rfl
    | cons q qs =>
      rw [hpieces] at ih
      rw [cons_append, cons_append, splitDoubled, if_neg hsep, ← cons_append, ih, hfirst]
      rfl

/-- There is nothing to cut in the last piece. -/
theorem whole_getLastD (text : List α) : Whole sep ((splitDoubled sep text).getLastD []) := by
  have hne : splitDoubled sep text ≠ [] := splitDoubled_ne_nil text
  have hsplit : splitDoubled sep (text ++ []) = _ := splitDoubled_append text []
  have hlast := dropLast_append_getLast hne
  rw [append_nil, append_nil] at hsplit
  rw [getLastD_eq_getLast?, getLast?_eq_some_getLast hne, Option.getD_some] at hsplit ⊢
  exact append_cancel_left (hsplit.symm.trans hlast.symm)

end

/-- Texts without the separator can be read back from what they are
joined to. -/
theorem intercalate_inj {c : Char} {xs ys : List String} (hxs : ∀ x ∈ xs, c ∉ x.toList)
    (hys : ∀ y ∈ ys, c ∉ y.toList) (hx : xs ≠ []) (hy : ys ≠ [])
    (h : (String.singleton c).intercalate xs = (String.singleton c).intercalate ys) : xs = ys := by
  have hjoined := congrArg (List.splitOn c ∘ String.toList) h
  simp only [Function.comp, String.toList_intercalate, String.toList_singleton] at hjoined
  rw [splitOn_intercalate, splitOn_intercalate] at hjoined
  · exact map_injective_iff.mpr (fun _ _ => String.toList_inj.mp) hjoined
  all_goals simpa

end TextPieces
