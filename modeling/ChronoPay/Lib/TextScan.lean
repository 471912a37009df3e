import Mathlib.Tactic.TypeStar

/-!
# TextScan — the leftmost match of a keyword and what follows it

The patterns `KEY(c+)` and `KEY(w₁|w₂|…)` searched for in a text, with
the captured group as the result. The search starts over at the next
character where the keyword is found but the group does not match.
-/

namespace TextScan

open List

/-- The characters after a given beginning. -/
def afterKey : List Char → List Char → Option (List Char)
  | [], text => some text
  | _ :: _, [] => none
  | k :: key, c :: text => if k = c then afterKey key text else none

/-- The first of the words the text begins with. -/
def firstWord (words : List (List Char)) (text : List Char) : Option (List Char) :=
  words.find? (·.isPrefixOf text)

/-- The longest non-empty run of accepted characters. -/
def firstRun (accept : Char → Bool) (text : List Char) : Option (List Char) :=
  if text.takeWhile accept = [] then none else some (text.takeWhile accept)

/-- The match that begins leftmost. -/
def leftmost {α : Type*} (pattern : List Char → Option α) : List Char → Option α
  | [] => pattern []
  | c :: text =>
    match pattern (c :: text) with
    | some found => some found
    | none => leftmost pattern text

/-- `KEY` followed by what `group` accepts, leftmost first. -/
def search (key : List Char) (group : List Char → Option (List Char)) (text : List Char) :
    Option (List Char) :=
  leftmost (fun rest => (afterKey key rest).bind group) text

/-- The characters that are not ASCII letters but have one in their upper
case. -/
def upperSpecial : List (Char × List Char) :=
  [('\u0131', ['I']), ('\u017f', ['S']), ('\u00df', ['S', 'S']), ('\u0149', ['\u02bc', 'N']),
    ('\u01f0', ['J', '\u030c']), ('\u1e96', ['H', '\u0331']), ('\u1e97', ['T', '\u0308']),
    ('\u1e98', ['W', '\u030a']), ('\u1e99', ['Y', '\u030a']), ('\u1e9a', ['A', '\u02be']),
    ('\ufb00', ['F', 'F']), ('\ufb01', ['F', 'I']), ('\ufb02', ['F', 'L']),
    ('\ufb03', ['F', 'F', 'I']), ('\ufb04', ['F', 'F', 'L']), ('\ufb05', ['S', 'T']),
    ('\ufb06', ['S', 'T'])]

/-- `text.toUpperCase()`, as far as the ASCII letters of the result go. -/
def upperCase (text : List Char) : List Char :=
  text.flatMap fun c => (upperSpecial.lookup c).getD [c.toUpper]

/-- `text.split(separator)`. -/
def split (separator : Char) : List Char → List (List Char)
  | [] => [[]]
  | c :: text =>
    if c = separator then [] :: split separator text
    else match split separator text with
      | part :: parts => (c :: part) :: parts
      | [] => [[c]]

/-- A text without the separator is one part. -/
theorem split_eq_singleton {separator : Char} {part : List Char} (h : separator ∉ part) :
    split separator part = [part] := by
  induction part with
  | nil => rfl
  | cons c part ih =>
    obtain ⟨hc, hpart⟩ := not_or.mp (mt mem_cons.mpr h)
    rw [split, if_neg (Ne.symm hc), ih hpart]

theorem split_append {separator : Char} {part : List Char} (h : separator ∉ part)
    (rest : List Char) :
    split separator (part ++ separator :: rest) = part :: split separator rest := by
  induction part with
  | nil => rw [nil_append, split, if_pos rfl]
  | cons c part ih =>
    obtain ⟨hc, hpart⟩ := not_or.mp (mt mem_cons.mpr h)
    rw [cons_append, split, if_neg (Ne.symm hc), ih hpart]

/-- The parts of a text that ends each with the separator. -/
theorem split_flatMap {separator : Char} {parts : List (List Char)}
    (h : ∀ part ∈ parts, separator ∉ part) :
    split separator (parts.flatMap (· ++ [separator])) = parts ++ [[]] := by
  induction parts with
  | nil => rfl
  | cons part parts ih =>
    obtain ⟨hpart, hparts⟩ := forall_mem_cons.mp h
    rw [flatMap_cons, append_assoc, singleton_append, split_append hpart, ih hparts, cons_append]

example : upperCase "fıﬁ-x".toList = "FIFI-X".toList := by decide

example : search "INTERVAL=".toList (firstRun Char.isDigit) "INTERVAL=;INTERVAL=14;".toList
    = some "14".toList := by decide

end TextScan
