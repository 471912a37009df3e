import ChronoPay.Lib.Hex
import ChronoPay.Lib.JsonText
import Mathlib.Data.List.Forall2

/-!
# JsonPrint — writing JSON

`print` writes a value without white space, the members of an object in
the order they stand in. Strings are quoted the way `JSON.stringify`
quotes them: a pair of surrogates is one character, one that stands alone
is escaped.

The reader of `JsonText` gives back what was printed (`parse_print`), so
two values with one text are equal (`print_inj`). A printed value ends
where a bracket or a comma follows; only a number needs that.

`fold` is recursion over a value, `Everywhere` a property of all values
inside one.
-/

namespace JsonText

open List Option

/-! ## Recursion over a value -/

section

variable {β : Type} (leaf : Json → β) (array : List β → β) (object : List (List Nat × β) → β)

mutual

/-- The value of the inner values first, then of the whole. -/
def Json.fold : Json → β
  | .array items => array (foldItems items)
  | .object members => object (foldMembers members)
  | v => leaf v

def foldItems : List Json → List β
  | [] => []
  | v :: vs => v.fold :: foldItems vs

def foldMembers : List (List Nat × Json) → List (List Nat × β)
  | [] => []
  | (key, v) :: members => (key, v.fold) :: foldMembers members

end

theorem foldItems_eq_map (items : List Json) :
    foldItems leaf array object items = items.map (Json.fold leaf array object) := by
  induction items with
  | nil => rfl
  | cons v items ih => rw [foldItems, map_cons, ih]

theorem foldMembers_eq_map (members : List (List Nat × Json)) :
    foldMembers leaf array object members
      = members.map fun m => (m.1, m.2.fold leaf array object) := by
  induction members with
  | nil => rfl
  | cons m members ih => rw [foldMembers, map_cons, ih]

theorem Json.fold_array (items : List Json) :
    (Json.array items).fold leaf array object = array (items.map (Json.fold leaf array object)) := by
  rw [Json.fold, foldItems_eq_map]

theorem Json.fold_object (members : List (List Nat × Json)) :
    (Json.object members).fold leaf array object
      = object (members.map fun m => (m.1, m.2.fold leaf array object)) := by
  rw [Json.fold, foldMembers_eq_map]

end

def Json.children : Json → List Json
  | .array items => items
  | .object members => members.map Prod.snd
  | _ => []

/-- The value and all values inside it have the property. -/
inductive Everywhere (P : Json → Prop) : Json → Prop
  | intro {v : Json} (here : P v) (inside : ∀ w ∈ v.children, Everywhere P w) : Everywhere P v

variable {v : Json} {c close : Char} {texts : List (List Char)}

theorem Everywhere.here {P : Json → Prop} (h : Everywhere P v) : P v := by
  cases h with
  | intro here inside => exact here

/-! ## Strings -/

def isHigh (unit : Nat) : Bool := 0xd800 ≤ unit && unit < 0xdc00

def isLow (unit : Nat) : Bool := 0xdc00 ≤ unit && unit < 0xe000

/-- The code points of a string; a surrogate that is not part of a pair
stands for itself. -/
def codePoints : List Nat → List Nat
  | [] => []
  | [u] => [u]
  | u :: v :: rest =>
    if isHigh u && isLow v then
      (0x10000 + (u - 0xd800) * 0x400 + (v - 0xdc00)) :: codePoints rest
    else u :: codePoints (v :: rest)

/-- The units of a code point. -/
def pointUnits (point : Nat) : List Nat :=
  if point < 0x10000 then [point]
  else [0xd800 + (point - 0x10000) / 0x400, 0xdc00 + (point - 0x10000) % 0x400]

/-- `\uXXXX` -/
def unicodeEscape (n : Nat) : List Char :=
  ['\\', 'u', Hex.digit (n / 0x1000 % 16), Hex.digit (n / 0x100 % 16), Hex.digit (n / 0x10 % 16),
    Hex.digit (n % 16)]

/-- A code point between quotes. -/
def quotePoint (point : Nat) : List Char :=
  if point = 0x22 then ['\\', '"']
  else if point = 0x5c then ['\\', '\\']
  else if point = 8 then ['\\', 'b']
  else if point = 12 then ['\\', 'f']
  else if point = 10 then ['\\', 'n']
  else if point = 13 then ['\\', 'r']
  else if point = 9 then ['\\', 't']
  else if point < 0x20 ∨ 0xd800 ≤ point ∧ point < 0xe000 then unicodeEscape point
  else [Char.ofNat point]

def quote (units : List Nat) : List Char :=
  '"' :: ((codePoints units).flatMap quotePoint ++ ['"'])

/-! ## Values -/

/-- Texts with commas between them. -/
def commaSeparated : List (List Char) → List Char
  | [] => []
  | text :: texts => text ++ texts.flatMap fun t => ',' :: t

def printLeaf : Json → List Char
  | .null => "null".toList
  | .bool true => "true".toList
  | .bool false => "false".toList
  | .number text => text
  | .string units => quote units
  | _ => []

def printMember (member : List Nat × List Char) : List Char := quote member.1 ++ ':' :: member.2

/-- `JSON.stringify(value)` -/
def print : Json → List Char :=
  Json.fold printLeaf (fun items => '[' :: (commaSeparated items ++ [']']))
    fun members => '{' :: (commaSeparated (members.map printMember) ++ ['}'])

example : print (.object [([97], .array [.number ['1'], .null]), ([98, 0x22], .string [0xd800])])
    = "\x7b\"a\":[1,null],\"b\\\"\":\"\\ud800\"\x7d".toList := by decide

/-! ## Strings are read back -/

theorem codePoints_pointUnits {units : List Nat} (h : ∀ u ∈ units, u < 0x10000) :
    (∀ p ∈ codePoints units, p < 0x110000) ∧ (codePoints units).flatMap pointUnits = units := by
  fun_induction codePoints units with
  | case1 => simp
  | case2 u =>
    have hu := h u (by simp)
    exact ⟨by simp only [mem_singleton, forall_eq]; omega, by simp [pointUnits, hu]⟩
  | case3 u v rest hpair ih =>
    obtain ⟨hlt, hunits⟩ := ih fun w hw => h w (by simp [hw])
    obtain ⟨hu, hv⟩ := Bool.and_eq_true_iff.mp hpair
    simp only [isHigh, isLow, Bool.and_eq_true, decide_eq_true_eq] at hu hv
    refine ⟨forall_mem_cons.mpr ⟨by omega, hlt⟩, ?_⟩
    rw [flatMap_cons, hunits, pointUnits, if_neg (by omega)]
    simp only [cons_append, nil_append, List.cons.injEq, and_true]
    omega
  | case4 u v rest hpair ih =>
    obtain ⟨hlt, hunits⟩ := ih (forall_mem_cons.mp h).2
    have hu := h u (by simp)
    refine ⟨forall_mem_cons.mpr ⟨by omega, hlt⟩, ?_⟩
    rw [flatMap_cons, hunits, pointUnits, if_pos hu]
    rfl

theorem stringBody_unicodeEscape {n : Nat} (h : n < 0x10000) (rest : List Char) :
    stringBody .plain (unicodeEscape n ++ rest)
      = (stringBody .plain rest).map fun r => (n :: r.1, r.2) := by
  have hdigit : ∀ m, hexValue (Hex.digit (m % 16)) = some (m % 16) :=
    fun m => Hex.value_digit (Nat.mod_lt m (by decide))
  have hvalue : 16 * (16 * (16 * (16 * 0 + n / 0x1000 % 16) + n / 0x100 % 16) + n / 0x10 % 16) + n % 16
      = n := by omega
  simp only [unicodeEscape, cons_append, nil_append, stringBody, stringStep, hdigit,
    map_some, Char.reduceEq, if_false, if_true, nil_append, hvalue]
  cases stringBody .plain rest with
  | none => rfl
  | some r => rfl

theorem stringBody_quotePoint {point : Nat} (h : point < 0x110000) (rest : List Char) :
    stringBody .plain (quotePoint point ++ rest)
      = (stringBody .plain rest).map fun r => (pointUnits point ++ r.1, r.2) := by
  have hescape : ∀ c unit, escapes.lookup c = some unit ∧ c ≠ 'u' ∧ unit < 0x10000 →
      stringBody .plain (['\\', c] ++ rest)
        = (stringBody .plain rest).map fun r => (pointUnits unit ++ r.1, r.2) := by
    rintro c unit ⟨hlookup, hu, hunit⟩
    have hunits : pointUnits unit = [unit] := if_pos hunit
    have hstep : stringStep c .escaped = some (.read [unit] .plain) := by
      simp only [stringStep, hu, if_false, hlookup, map_some]
    have hopen : stringStep '\\' .plain = some (.read [] .escaped) := rfl
    simp only [cons_append, nil_append, stringBody, hopen, hstep, hunits]
    cases stringBody .plain rest with
    | none => rfl
    | some r => rfl
  unfold quotePoint
  split_ifs with h1 h2 h3 h4 h5 h6 h7 h8
  · subst h1
    exact hescape '"' 0x22 (by decide)
  · subst h2
    exact hescape '\\' 0x5c (by decide)
  · subst h3
    exact hescape 'b' 8 (by decide)
  · subst h4
    exact hescape 'f' 12 (by decide)
  · subst h5
    exact hescape 'n' 10 (by decide)
  · subst h6
    exact hescape 'r' 13 (by decide)
  · subst h7
    exact hescape 't' 9 (by decide)
  · rw [stringBody_unicodeEscape (by omega), pointUnits, if_pos (by omega)]
    rfl
  · have hvalid : point.isValidChar := by
      omega
    have hchar : (Char.ofNat point).toNat = point := by
      rw [Char.ofNat, dif_pos hvalid]
      rfl
    have hquote : Char.ofNat point ≠ '"' := fun heq => h1 (hchar.symm.trans (congrArg Char.toNat heq))
    have hslash : Char.ofNat point ≠ '\\' := fun heq => h2 (hchar.symm.trans (congrArg Char.toNat heq))
    have hstep : stringStep (Char.ofNat point) .plain = some (.read (pointUnits point) .plain) := by
      simp only [stringStep, hquote, hslash, if_false, hchar, utf16, pointUnits]
      rw [if_neg (by omega)]
    simp only [cons_append, nil_append, stringBody, hstep]

theorem stringBody_quote {units : List Nat} (h : ∀ u ∈ units, u < 0x10000) (rest : List Char) :
    stringBody .plain ((codePoints units).flatMap quotePoint ++ '"' :: rest) = some (units, rest) := by
  have hpoints : ∀ points : List Nat, (∀ p ∈ points, p < 0x110000) →
      stringBody .plain (points.flatMap quotePoint ++ '"' :: rest)
        = some (points.flatMap pointUnits, rest) := by
    intro points hlt
    induction points with
    | nil => rfl
    | cons p points ih =>
      obtain ⟨hp, hlt⟩ := forall_mem_cons.mp hlt
      rw [flatMap_cons, append_assoc, stringBody_quotePoint hp, ih hlt]
      rfl
  obtain ⟨hlt, hunits⟩ := codePoints_pointUnits h
  rw [hpoints _ hlt, hunits]

/-! ## Numbers are read back -/

/-- The text is a number of the grammar. -/
def IsNumber (text : List Char) : Prop := numberFrom .start text = some (text, [])

instance (text : List Char) : Decidable (IsNumber text) := inferInstanceAs (Decidable (_ = _))

/-- What may follow a value inside another one. -/
def Ends (rest : List Char) : Prop := ∀ c ∈ rest.head?, c = ',' ∨ c = ']' ∨ c = '}'

theorem ends_nil : Ends [] := nofun

theorem ends_cons (hc : c = ',' ∨ c = ']' ∨ c = '}') (rest : List Char) : Ends (c :: rest) := by
  intro c' hc'
  cases hc'
  exact hc

theorem numberFrom_append {state : InNumber} {text : List Char}
    (h : numberFrom state text = some (text, [])) {rest : List Char} (hrest : Ends rest) :
    numberFrom state (text ++ rest) = some (text, rest) := by
  induction text generalizing state with
  | nil =>
    have hcomplete : state.complete = true := by
      rw [numberFrom] at h
      split at h
      · assumption
      · cases h
    cases rest with
    | nil => exact h
    | cons c rest =>
      have hnext : state.next c = none := by
        rcases hrest c rfl with rfl | rfl | rfl <;> cases state <;> decide
      rw [nil_append, numberFrom, hnext]
      exact if_pos hcomplete
  | cons c text ih =>
    rw [numberFrom] at h
    rw [cons_append, numberFrom]
    split at h
    next next hnext =>
      obtain ⟨r, hr, heq⟩ := map_eq_some_iff.mp h
      obtain ⟨hr1, hr2⟩ := Prod.mk.inj heq
      have hread : numberFrom next text = some (text, []) := by
        rw [hr, Option.some.injEq]
        exact Prod.ext (List.cons.inj hr1).2 hr2
      rw [ih hread]
      rfl
    · split at h
      · cases (Prod.mk.inj (Option.some.inj h)).1
      · cases h

def StartsNumber (c : Char) : Prop := c = '-' ∨ c.isDigit = true

instance (c : Char) : Decidable (StartsNumber c) := inferInstanceAs (Decidable (_ ∨ _))

theorem StartsNumber.ne {d : Char} (h : StartsNumber c) (hd : ¬ StartsNumber d) : c ≠ d := by
  rintro rfl
  exact hd h

theorem StartsNumber.not_blank (h : StartsNumber c) : isBlank c = false := by
  simp only [isBlank, decide_eq_false_iff_not, Bool.or_eq_false_iff,
    h.ne (d := ' ') (by decide), h.ne (d := '\t') (by decide), h.ne (d := '\n') (by decide),
    h.ne (d := '\r') (by decide), not_false_eq_true, and_self]

theorem IsNumber.head {text : List Char} (h : IsNumber text) :
    ∃ c rest, text = c :: rest ∧ StartsNumber c := by
  cases text with
  | nil => cases h
  | cons c rest =>
    refine ⟨c, rest, rfl, ?_⟩
    rw [IsNumber, numberFrom] at h
    by_cases hminus : c = '-'
    · exact .inl hminus
    · right
      by_contra hdigit
      have hzero : c ≠ '0' := by
        rintro rfl
        exact hdigit rfl
      have hnone : InNumber.start.next c = none := by
        simp only [InNumber.next, InNumber.next.first, hminus, hzero, hdigit, if_false]
      rw [hnone] at h
      cases h

/-! ## The units of a text -/

/-- The text of code units. -/
def textOf (units : List Nat) : String := String.ofList ((codePoints units).map Char.ofNat)

theorem toNat_range (c : Char) : c.toNat < 0xd800 ∨ 0xdfff < c.toNat ∧ c.toNat < 0x110000 := c.valid

theorem units_lt (text : String) : ∀ u ∈ units text, u < 0x10000 := by
  intro u hu
  obtain ⟨c, -, hu⟩ := mem_flatMap.mp hu
  have hc := toNat_range c
  rw [utf16] at hu
  split at hu
  · rw [mem_singleton.mp hu]
    assumption
  · rcases mem_cons.mp hu with rfl | hu
    · omega
    · rw [mem_singleton.mp hu]
      omega

theorem codePoints_utf16 (c : Char) (rest : List Nat) :
    codePoints (utf16 c ++ rest) = c.toNat :: codePoints rest := by
  have hc := toNat_range c
  rw [utf16]
  split
  · -- no character is a surrogate
    have hhigh : isHigh c.toNat = false := by
      simp only [isHigh, Bool.and_eq_false_iff, decide_eq_false_iff_not]
      omega
    cases rest with
    | nil => rfl
    | cons u rest => rw [singleton_append, codePoints, hhigh, Bool.false_and]; rfl
  · have hpair : (isHigh (0xd800 + (c.toNat - 0x10000) / 0x400)
        && isLow (0xdc00 + (c.toNat - 0x10000) % 0x400)) = true := by
      simp only [isHigh, isLow, Bool.and_eq_true, decide_eq_true_eq]
      omega
    have hpoint : 0x10000 + (0xd800 + (c.toNat - 0x10000) / 0x400 - 0xd800) * 0x400
        + (0xdc00 + (c.toNat - 0x10000) % 0x400 - 0xdc00) = c.toNat := by omega
    rw [cons_append, singleton_append, codePoints, if_pos hpair, hpoint]

theorem codePoints_units (text : String) : codePoints (units text) = text.toList.map Char.toNat := by
  rw [units]
  induction text.toList with
  | nil => rfl
  | cons c cs ih => rw [flatMap_cons, codePoints_utf16, ih, map_cons]

theorem textOf_units (text : String) : textOf (units text) = text := by
  have hback : Char.ofNat ∘ Char.toNat = id := funext Char.ofNat_toNat
  rw [textOf, codePoints_units, List.map_map, hback, List.map_id, String.ofList_toList]

theorem units_inj {text text' : String} : units text = units text' ↔ text = text' :=
  ⟨fun h => by rw [← textOf_units text, h, textOf_units], congrArg units⟩

/-- What `JSON.parse` makes of a value and `JSON.stringify` prints as
such: strings of code units, and numbers of the grammar. -/
def Printable : Json → Prop
  | .number text => IsNumber text
  | .string units => ∀ u ∈ units, u < 0x10000
  | .object members => ∀ m ∈ members, ∀ u ∈ m.1, u < 0x10000
  | _ => True

/-! ## Object literals -/

/-- An object literal with these members. -/
def literalObject (members : List (String × Json)) : Json :=
  .object (members.map fun m => (units m.1, m.2))

/-- An object literal is read by the last member of the name. -/
theorem get_literalObject (members : List (String × Json)) (key : String) :
    (literalObject members).get key = (members.reverse.find? (·.1 = key)).map Prod.snd := by
  rw [literalObject, Json.get, ← map_reverse, find?_map, Option.map_map]
  refine congrArg₂ Option.map rfl (congrFun (congrArg List.find? ?_) _)
  funext m
  simp only [Function.comp_apply, units_inj]

theorem printable_string (text : String) : Everywhere Printable (.string (units text)) :=
  .intro (units_lt text) (forall_mem_nil _)

theorem printable_literalObject {members : List (String × Json)}
    (h : ∀ m ∈ members, Everywhere Printable m.2) : Everywhere Printable (literalObject members) := by
  refine .intro ?_ ?_
  · intro m hm
    obtain ⟨m, -, rfl⟩ := List.mem_map.mp hm
    exact units_lt m.1
  · intro w hw
    obtain ⟨m', hm', rfl⟩ := List.mem_map.mp hw
    obtain ⟨m, hm, rfl⟩ := List.mem_map.mp hm'
    exact h m hm

/-! ## Values are read back -/

/-- The reader gives back the value a text was made from, whatever
follows it. -/
def Reads {α : Type} (item : List Char → Read α) (text : List Char) (a : α) : Prop :=
  ∀ rest, Ends rest → item (text ++ rest) = some (a, rest)

theorem skipBlank_cons (hc : isBlank c = false) (rest : List Char) :
    skipBlank (c :: rest) = c :: rest :=
  dropWhile_cons_of_neg (by simp [hc])

/-- The closing brackets. -/
def IsClose (c : Char) : Prop := c = ']' ∨ c = '}'

theorem IsClose.ends (h : IsClose close) (rest : List Char) : Ends (close :: rest) :=
  ends_cons (.inr h) rest

theorem IsClose.not_blank (h : IsClose close) : isBlank close = false := by
  rcases h with rfl | rfl <;> decide

theorem IsClose.ends_commas (h : IsClose close) (texts : List (List Char)) (rest : List Char) :
    Ends ((texts.flatMap fun t => ',' :: t) ++ close :: rest) := by
  cases texts with
  | nil => exact h.ends rest
  | cons t texts => exact ends_cons (.inl rfl) _

theorem more_commas {α : Type} (hclose : IsClose close) {item : List Char → Read α}
    {values : List α} (h : List.Forall₂ (Reads item) texts values) (rest : List Char) :
    ∀ fuel, texts.length < fuel →
      more close item fuel ((texts.flatMap fun t => ',' :: t) ++ close :: rest)
        = some (values, rest) := by
  induction h with
  | nil =>
    intro fuel hfuel
    obtain ⟨fuel, rfl⟩ : ∃ n, fuel = n + 1 := ⟨fuel - 1, by simp at hfuel; omega⟩
    simp only [flatMap_nil, nil_append, more, skipBlank_cons hclose.not_blank, if_true]
  | @cons text a texts values hread _ ih =>
    intro fuel hfuel
    obtain ⟨fuel, rfl⟩ : ∃ n, fuel = n + 1 := ⟨fuel - 1, by simp at hfuel; omega⟩
    have hcomma : ',' ≠ close := by rcases hclose with rfl | rfl <;> decide
    rw [flatMap_cons, cons_append, cons_append, append_assoc, more, skipBlank_cons (by decide)]
    simp only [hcomma, if_false, if_true, hread _ (hclose.ends_commas texts rest), bind_some,
      ih fuel (by simpa using hfuel), map_some]

/-- The first character of an item opens it. -/
def Opens (close : Char) (text : List Char) : Prop :=
  ∃ c rest, text = c :: rest ∧ isBlank c = false ∧ c ≠ close

theorem sequence_commas {α : Type} (hclose : IsClose close) {item : List Char → Read α}
    {values : List α} (h : List.Forall₂ (Reads item) texts values)
    (hopen : ∀ t ∈ texts, Opens close t) {fuel : Nat} (hfuel : texts.length < fuel + 1)
    (rest : List Char) :
    sequence close item fuel (commaSeparated texts ++ close :: rest) = some (values, rest) := by
  cases h with
  | nil =>
    simp only [commaSeparated, nil_append, sequence, skipBlank_cons hclose.not_blank, if_true]
  | @cons text a texts values hread htexts =>
    obtain ⟨c, tail, rfl, hblank, hne⟩ := hopen text mem_cons_self
    have hread := hread _ (hclose.ends_commas texts rest)
    rw [cons_append] at hread
    rw [commaSeparated, cons_append, cons_append, append_assoc, sequence, skipBlank_cons hblank]
    simp only [hne, if_false, hread, bind_some,
      more_commas hclose htexts rest fuel (by simpa using hfuel), map_some]

theorem quote_append (units : List Nat) (rest : List Char) :
    quote units ++ rest = '"' :: ((codePoints units).flatMap quotePoint ++ '"' :: rest) := by
  rw [quote, cons_append, append_assoc]
  rfl

theorem member_printMember {inner : List Char → Read Json} {key : List Nat} {text : List Char}
    (hkey : ∀ u ∈ key, u < 0x10000) (h : Reads inner text v) :
    Reads (member inner) (printMember (key, text)) (key, v) := by
  intro rest hrest
  rw [printMember, append_assoc, cons_append, quote_append, member, skipBlank_cons (by decide)]
  simp only [if_true, stringBody_quote hkey, bind_some, skipBlank_cons (c := ':') (by decide),
    h rest hrest, map_some]

theorem literal_append (word : List Char) (v : Json) (rest : List Char) :
    literal word v (word ++ rest) = some (v, rest) := by
  rw [literal, if_pos (prefix_append word rest), drop_left]

theorem print_array (items : List Json) :
    print (.array items) = '[' :: (commaSeparated (items.map print) ++ [']']) :=
  Json.fold_array ..

theorem print_object (members : List (List Nat × Json)) :
    print (.object members)
      = '{' :: (commaSeparated (members.map fun m => printMember (m.1, print m.2)) ++ ['}']) := by
  rw [print, Json.fold_object, List.map_map]
  rfl

/-- Every value begins with a character that is neither blank nor a
closing bracket. -/
theorem print_opens (hclose : IsClose close) (h : Printable v) : Opens close (print v) := by
  have hne : ∀ c, c ∉ [']', '}'] → c ≠ close := by
    rintro c hc rfl
    rcases hclose with rfl | rfl <;> simp at hc
  cases v with
  | null => exact ⟨'n', "ull".toList, rfl, by decide, hne _ (by decide)⟩
  | bool b =>
    cases b with
    | false => exact ⟨'f', "alse".toList, rfl, by decide, hne _ (by decide)⟩
    | true => exact ⟨'t', "rue".toList, rfl, by decide, hne _ (by decide)⟩
  | number text =>
    obtain ⟨c, rest, rfl, hc⟩ := IsNumber.head h
    refine ⟨c, rest, rfl, hc.not_blank, hc.ne ?_⟩
    rcases hclose with rfl | rfl <;> decide
  | string units => exact ⟨'"', _, rfl, by decide, hne _ (by decide)⟩
  | array items => exact ⟨'[', _, print_array items, by decide, hne _ (by decide)⟩
  | object members => exact ⟨'{', _, print_object members, by decide, hne _ (by decide)⟩

theorem value_cons (fuel : Nat) (hc : isBlank c = false) (rest : List Char) :
    value (fuel + 1) (c :: rest) = valueFrom (value fuel) fuel c rest := by
  rw [value, skipBlank_cons hc]

theorem length_lt_sizeOf {α : Type} [SizeOf α] (l : List α) : l.length < sizeOf l := by
  induction l with
  | nil => simp
  | cons a l ih => simp only [List.length_cons, List.cons.sizeOf_spec]; omega

/-- The reader gives back the printed value. -/
theorem value_print (h : Everywhere Printable v) :
    ∀ fuel, sizeOf v < fuel → Reads (value fuel) (print v) v := by
  induction h with
  | @intro v here inside ih =>
    intro fuel hfuel rest hrest
    obtain ⟨fuel, rfl⟩ : ∃ n, fuel = n + 1 := ⟨fuel - 1, by omega⟩
    cases v with
    | null => exact literal_append "ull".toList .null rest
    | bool b =>
      cases b with
      | false => exact literal_append "alse".toList (.bool false) rest
      | true => exact literal_append "rue".toList (.bool true) rest
    | number text =>
      obtain ⟨c, tail, rfl, hc⟩ := IsNumber.head here
      have hread := numberFrom_append here hrest
      rw [List.cons_append] at hread
      change value (fuel + 1) (c :: (tail ++ rest)) = _
      rw [value_cons fuel hc.not_blank, valueFrom, if_neg (hc.ne (by decide)),
        if_neg (hc.ne (by decide)), if_neg (hc.ne (by decide)), if_neg (hc.ne (by decide)),
        if_neg (hc.ne (by decide)), if_neg (hc.ne (by decide)), hread]
      rfl
    | string units =>
      change value (fuel + 1) (quote units ++ rest) = _
      rw [quote_append, value_cons fuel (by decide)]
      change (stringBody .plain _).map _ = _
      rw [stringBody_quote here]
      rfl
    | array items =>
      rw [Json.array.sizeOf_spec] at hfuel
      have hcount := length_lt_sizeOf items
      have hitems : List.Forall₂ (Reads (value fuel)) (items.map print) items := by
        refine List.forall₂_map_left_iff.mpr (List.forall₂_same.mpr fun w hw => ih w hw fuel ?_)
        have hpart : sizeOf w < sizeOf items := List.sizeOf_lt_of_mem hw
        omega
      have hopen : ∀ t ∈ items.map print, Opens ']' t := by
        intro t ht
        obtain ⟨w, hw, rfl⟩ := List.mem_map.mp ht
        exact print_opens (.inl rfl) (inside w hw).here
      rw [print_array, List.cons_append, List.append_assoc, value_cons fuel (by decide)]
      change (sequence ']' (value fuel) fuel _).map _ = _
      rw [List.singleton_append, sequence_commas (.inl rfl) hitems hopen (by simp; omega)]
      rfl
    | object members =>
      rw [Json.object.sizeOf_spec] at hfuel
      have hcount := length_lt_sizeOf members
      have hmembers : List.Forall₂ (Reads (member (value fuel)))
          (members.map fun m => printMember (m.1, print m.2)) members := by
        refine List.forall₂_map_left_iff.mpr (List.forall₂_same.mpr fun m hm => ?_)
        refine member_printMember (here m hm) (ih m.2 (List.mem_map_of_mem hm) fuel ?_)
        have hpart : sizeOf m < sizeOf members := List.sizeOf_lt_of_mem hm
        have hvalue : sizeOf m.2 < sizeOf m := by
          obtain ⟨key, w⟩ := m
          simp only [Prod.mk.sizeOf_spec]
          omega
        omega
      have hopen : ∀ t ∈ members.map fun m => printMember (m.1, print m.2), Opens '}' t := by
        intro t ht
        obtain ⟨m, hm, rfl⟩ := List.mem_map.mp ht
        exact ⟨'"', _, quote_append .., by decide, by decide⟩
      rw [print_object, cons_append, append_assoc, value_cons fuel (by decide)]
      change (sequence '}' (member (value fuel)) fuel _).map _ = _
      rw [singleton_append, sequence_commas (.inr rfl) hmembers hopen (by simp; omega)]
      rfl

theorem parse_print (h : Everywhere Printable v) : parse (print v) = some v := by
  have hread := value_print h (sizeOf v + 1) (Nat.lt_succ_self _) [] ends_nil
  rw [append_nil] at hread
  exact parse_eq_some hread rfl

theorem print_inj {w : Json} (hv : Everywhere Printable v) (hw : Everywhere Printable w)
    (h : print v = print w) : v = w :=
  Option.some.inj ((parse_print hv).symm.trans ((congrArg parse h).trans (parse_print hw)))

end JsonText
