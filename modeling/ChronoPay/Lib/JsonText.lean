import Mathlib.Data.List.TakeWhile

/-!
# JsonText — reading JSON

`parse` is a strict JSON reader over the characters of a text. Numbers
are kept as their text and strings as UTF-16 code units. The readers of
the parts take a text to a value and the rest behind it.

A reader looks at what follows a value only where the value is a number,
so an object is read the same way whatever is appended to the text
(`value_append`). Hence a text that holds an object is no longer JSON
once anything but white space is appended (`parse_append_eq_none`), and
what is read from a shortened object is nothing or the same object
(`parse_eq_of_append`).
-/

namespace JsonText

open List Option

inductive Json where
  | null
  | bool (b : Bool)
  | number (text : List Char)
  | string (units : List Nat)
  | array (items : List Json)
  | object (members : List (List Nat × Json))

/-- What a reader takes a text to. -/
abbrev Read (α : Type) := Option (α × List Char)

def isBlank (c : Char) : Bool := c = ' ' || c = '\t' || c = '\n' || c = '\r'

def skipBlank (text : List Char) : List Char := text.dropWhile isBlank

/-! ## Strings -/

/-- The code units of a character. -/
def utf16 (c : Char) : List Nat :=
  if c.toNat < 0x10000 then [c.toNat]
  else [0xd800 + (c.toNat - 0x10000) / 0x400, 0xdc00 + (c.toNat - 0x10000) % 0x400]

def units (text : String) : List Nat := text.toList.flatMap utf16

def hexValue (c : Char) : Option Nat :=
  if '0' ≤ c ∧ c ≤ '9' then some (c.toNat - 48)
  else if 'a' ≤ c ∧ c ≤ 'f' then some (c.toNat - 87)
  else if 'A' ≤ c ∧ c ≤ 'F' then some (c.toNat - 55)
  else none

/-- The escapes of one character, without `u`. -/
def escapes : List (Char × Nat) :=
  [('"', 0x22), ('\\', 0x5c), ('/', 0x2f), ('b', 8), ('f', 12), ('n', 10), ('r', 13), ('t', 9)]

/-- Where the reader of a string is. -/
inductive InString where
  | plain
  | escaped
  | hex (left value : Nat)

/-- One character: the closing quote, or the units read and where the
reader is then. -/
inductive StringStep where
  | close
  | read (units : List Nat) (next : InString)

def stringStep (c : Char) : InString → Option StringStep
  | .plain =>
    if c = '"' then some .close
    else if c = '\\' then some (.read [] .escaped)
    else if c.toNat < 0x20 then none
    else some (.read (utf16 c) .plain)
  | .escaped =>
    if c = 'u' then some (.read [] (.hex 3 0))
    else (escapes.lookup c).map fun unit => .read [unit] .plain
  | .hex left value =>
    (hexValue c).map fun digit => match left with
      | 0 => .read [16 * value + digit] .plain
      | left + 1 => .read [] (.hex left (16 * value + digit))

/-- A string, from behind its opening quote. -/
def stringBody : InString → List Char → Read (List Nat)
  | _, [] => none
  | state, c :: rest =>
    match stringStep c state with
    | none => none
    | some .close => some ([], rest)
    | some (.read units next) => (stringBody next rest).map fun r => (units ++ r.1, r.2)

/-! ## Numbers -/

inductive InNumber where
  | start
  | minus
  | zero
  | whole
  | point
  | fraction
  | exponent
  | exponentSign
  | exponentDigits

def InNumber.complete : InNumber → Bool
  | .zero | .whole | .fraction | .exponentDigits => true
  | _ => false

def InNumber.next (c : Char) : InNumber → Option InNumber
  | .start => if c = '-' then some .minus else first
  | .minus => first
  | .zero => if c = '.' then some .point else exponent
  | .whole => if c.isDigit then some .whole else if c = '.' then some .point else exponent
  | .point => if c.isDigit then some .fraction else none
  | .fraction => if c.isDigit then some .fraction else exponent
  | .exponent =>
    if c = '+' ∨ c = '-' then some .exponentSign
    else if c.isDigit then some .exponentDigits else none
  | .exponentSign => if c.isDigit then some .exponentDigits else none
  | .exponentDigits => if c.isDigit then some .exponentDigits else none
where
  first : Option InNumber :=
    if c = '0' then some .zero else if c.isDigit then some .whole else none
  exponent : Option InNumber := if c = 'e' ∨ c = 'E' then some .exponent else none

/-- The longest number a text begins with. -/
def numberFrom : InNumber → List Char → Read (List Char)
  | state, [] => if state.complete then some ([], []) else none
  | state, c :: rest =>
    match state.next c with
    | some next => (numberFrom next rest).map fun r => (c :: r.1, r.2)
    | none => if state.complete then some ([], c :: rest) else none

/-! ## Values -/

def literal (word : List Char) (v : Json) (text : List Char) : Read Json :=
  if word <+: text then some (v, text.drop word.length) else none

/-- The rest of a sequence, behind one of its items. -/
def more {α : Type} (close : Char) (item : List Char → Read α) : Nat → List Char → Read (List α)
  | 0, _ => none
  | fuel + 1, text =>
    match skipBlank text with
    | [] => none
    | c :: rest =>
      if c = close then some ([], rest)
      else if c = ',' then
        (item rest).bind fun x => (more close item fuel x.2).map fun xs => (x.1 :: xs.1, xs.2)
      else none

/-- Items separated by commas, from behind the opening bracket. -/
def sequence {α : Type} (close : Char) (item : List Char → Read α) (fuel : Nat)
    (text : List Char) : Read (List α) :=
  match skipBlank text with
  | [] => none
  | c :: rest =>
    if c = close then some ([], rest)
    else (item text).bind fun x =>
      (more close item fuel x.2).map fun xs => (x.1 :: xs.1, xs.2)

/-- A member of an object. -/
def member (value : List Char → Read Json) (text : List Char) : Read (List Nat × Json) :=
  match skipBlank text with
  | [] => none
  | c :: rest =>
    if c = '"' then
      (stringBody .plain rest).bind fun key =>
        match skipBlank key.2 with
        | [] => none
        | c :: rest => if c = ':' then (value rest).map fun v => ((key.1, v.1), v.2) else none
    else none

/-- A value, by the character it begins with. -/
def valueFrom (inner : List Char → Read Json) (fuel : Nat) (c : Char) (rest : List Char) :
    Read Json :=
  if c = '{' then (sequence '}' (member inner) fuel rest).map fun r => (.object r.1, r.2)
  else if c = '[' then (sequence ']' inner fuel rest).map fun r => (.array r.1, r.2)
  else if c = '"' then (stringBody .plain rest).map fun r => (.string r.1, r.2)
  else if c = 'n' then literal "ull".toList .null rest
  else if c = 't' then literal "rue".toList (.bool true) rest
  else if c = 'f' then literal "alse".toList (.bool false) rest
  else (numberFrom .start (c :: rest)).map fun r => (.number r.1, r.2)

/-- A value of bounded depth. -/
def value : Nat → List Char → Read Json
  | 0, _ => none
  | fuel + 1, text =>
    match skipBlank text with
    | [] => none
    | c :: rest => valueFrom (value fuel) fuel c rest

/-- `JSON.parse(text)`, `none` where it throws; a value in a text is not
nested deeper than the text is long (`parse_eq_some`). -/
def parse (text : List Char) : Option Json :=
  (value (text.length + 1) text).bind fun r => if skipBlank r.2 = [] then some r.1 else none

/-- `value[key]`, of an object's own members; of members of one name the
last counts. -/
def Json.get (key : String) : Json → Option Json
  | .object members => (members.reverse.find? (·.1 = units key)).map Prod.snd
  | _ => none

/-! ## Reading on

What is read from the beginning of a text is read from the whole text, by
a reader with fuel for it. Only a number ends with the text itself; so for
what may be one, `ExtendsInside` asks for a rest. -/

variable {α : Type} {s r : List Char} {fuel : Nat}

/-- A reader leaves no more than it was given; and in a text shorter than
`bound`, `q` finds what `p` finds at its beginning. -/
def Extends (bound : Nat) (p q : List Char → Read α) : Prop :=
  ∀ s x, p s = some x → x.2.length ≤ s.length ∧
    ∀ r, (s ++ r).length < bound → q (s ++ r) = some (x.1, x.2 ++ r)

/-- The same where something is left, or nothing appended. -/
def ExtendsInside (bound : Nat) (p q : List Char → Read α) : Prop :=
  ∀ s x, p s = some x → x.2.length ≤ s.length ∧
    ∀ r, (s ++ r).length < bound → x.2 ≠ [] ∨ r = [] → q (s ++ r) = some (x.1, x.2 ++ r)

theorem Extends.map {β : Type} {bound : Nat} {p q : List Char → Read α} (h : Extends bound p q)
    (f : α → β) : Extends bound (fun s => (p s).map fun x => (f x.1, x.2))
      (fun s => (q s).map fun x => (f x.1, x.2)) := by
  intro s x hx
  obtain ⟨y, hy, rfl⟩ := map_eq_some_iff.mp hx
  obtain ⟨hle, hread⟩ := h s y hy
  exact ⟨hle, fun r hbound => by simp only [hread r hbound, map_some]⟩

variable {rest : List Char} {item item' : List Char → Read α} {x : Json × List Char} {v : Json}
  {bound : Nat}

theorem skipBlank_append {c : Char} (h : skipBlank s = c :: rest) (r : List Char) :
    skipBlank (s ++ r) = c :: (rest ++ r) := by
  unfold skipBlank at h ⊢
  rw [dropWhile_append, h]
  rfl

theorem length_lt_of_skipBlank {c : Char} (h : skipBlank s = c :: rest) :
    rest.length < s.length := by
  have hle : (skipBlank s).length ≤ s.length := (dropWhile_suffix isBlank).length_le
  rw [h, length_cons] at hle
  exact hle

theorem stringBody_extends (state : InString) :
    Extends bound (stringBody state) (stringBody state) := by
  intro s
  induction s generalizing state with
  | nil => intro x h; cases h
  | cons c s ih =>
    intro x h
    simp only [stringBody] at h
    split at h
    · cases h
    next hstep =>
      cases h
      exact ⟨Nat.le_succ _, fun r _ => by simp only [cons_append, stringBody, hstep]⟩
    next units next hstep =>
      obtain ⟨y, hy, rfl⟩ := map_eq_some_iff.mp h
      obtain ⟨hle, hread⟩ := ih next y hy
      refine ⟨hle.trans (Nat.le_succ _), fun r hbound => ?_⟩
      simp only [cons_append, stringBody, hstep, hread r (Nat.lt_of_succ_lt hbound), map_some]

theorem numberFrom_extends (state : InNumber) :
    ExtendsInside bound (numberFrom state) (numberFrom state) := by
  intro s
  induction s generalizing state with
  | nil =>
    intro x h
    have hread := h
    simp only [numberFrom] at h
    split at h
    · cases h
      refine ⟨Nat.le_refl _, fun r _ hinside => ?_⟩
      obtain rfl := hinside.resolve_left (absurd rfl)
      exact hread
    · cases h
  | cons c s ih =>
    intro x h
    simp only [numberFrom] at h
    split at h
    next next hnext =>
      obtain ⟨y, hy, rfl⟩ := map_eq_some_iff.mp h
      obtain ⟨hle, hread⟩ := ih next y hy
      refine ⟨hle.trans (Nat.le_succ _), fun r hbound hinside => ?_⟩
      simp only [cons_append, numberFrom, hnext,
        hread r (Nat.lt_of_succ_lt hbound) hinside, map_some]
    next hnext =>
      split at h
      next hcomplete =>
        cases h
        refine ⟨Nat.le_refl _, fun r _ _ => ?_⟩
        simp only [cons_append, numberFrom, hnext, if_pos hcomplete]
      · cases h

theorem literal_extends (word : List Char) (v : Json) :
    Extends bound (literal word v) (literal word v) := by
  intro s x h
  simp only [literal] at h
  split at h
  next hword =>
    cases h
    refine ⟨by simp, fun r _ => ?_⟩
    rw [literal, if_pos (hword.trans (prefix_append s r)), drop_append_of_le_length hword.length_le]
  · cases h

theorem more_nil (close : Char) (fuel : Nat) : more close item fuel [] = none := by
  cases fuel <;> rfl

/-- The same for the rest of a sequence, which has fuel of its own. -/
def MoreExtends (bound : Nat) (close : Char) (item item' : List Char → Read α) (fuel : Nat) :
    Prop :=
  ∀ s x, more close item fuel s = some x → x.2.length ≤ s.length ∧
    ∀ r fuel', (s ++ r).length ≤ bound → (s ++ r).length < fuel' →
      more close item' fuel' (s ++ r) = some (x.1, x.2 ++ r)

theorem items_extend {close : Char} (hitem : ExtendsInside bound item item')
    (hmore : MoreExtends bound close item item' fuel) {x : List α × List Char}
    (h : ((item s).bind fun y => (more close item fuel y.2).map fun ys => (y.1 :: ys.1, ys.2))
      = some x) :
    x.2.length ≤ s.length ∧ ∀ r fuel', (s ++ r).length < bound → (s ++ r).length < fuel' →
      ((item' (s ++ r)).bind fun y =>
        (more close item' fuel' y.2).map fun ys => (y.1 :: ys.1, ys.2))
        = some (x.1, x.2 ++ r) := by
  obtain ⟨y, hy, hrest⟩ := bind_eq_some_iff.mp h
  obtain ⟨z, hz, rfl⟩ := map_eq_some_iff.mp hrest
  obtain ⟨hyLe, hyRead⟩ := hitem s y hy
  obtain ⟨hzLe, hzRead⟩ := hmore y.2 z hz
  refine ⟨hzLe.trans hyLe, fun r fuel' hbound hfuel => ?_⟩
  -- the rest of the sequence is read from behind the item, so it is not empty
  have hne : y.2 ≠ [] := by
    intro hnil
    rw [hnil, more_nil] at hz
    cases hz
  have hlength : (y.2 ++ r).length ≤ (s ++ r).length := by simpa using hyLe
  simp only [hyRead r hbound (.inl hne), bind_some,
    hzRead r fuel' (hlength.trans hbound.le) (hlength.trans_lt hfuel), map_some]

theorem more_extends (hitem : ExtendsInside bound item item') (close : Char) (fuel : Nat) :
    MoreExtends bound close item item' fuel := by
  induction fuel with
  | zero => intro s x h; cases h
  | succ fuel ih =>
    intro s x h
    simp only [more] at h
    split at h
    · cases h
    next c rest hskip =>
      have hlt := length_lt_of_skipBlank hskip
      have hlength : ∀ r, (rest ++ r).length < (s ++ r).length := by simpa using hlt
      split_ifs at h with hclose hcomma
      · cases h
        refine ⟨hlt.le, fun r fuel' _ hfuel => ?_⟩
        obtain ⟨fuel', rfl⟩ := Nat.exists_eq_add_of_lt hfuel
        simp only [more, skipBlank_append hskip, if_pos hclose]
      · obtain ⟨hle, hread⟩ := items_extend hitem ih h
        refine ⟨hle.trans hlt.le, fun r fuel' hbound hfuel => ?_⟩
        obtain ⟨fuel', rfl⟩ : ∃ k, fuel' = k + 1 := ⟨fuel' - 1, by omega⟩
        simp only [more, skipBlank_append hskip, if_neg hclose, if_pos hcomma]
        exact hread r fuel' ((hlength r).trans_le hbound)
          ((hlength r).trans_le (Nat.le_of_lt_succ hfuel))

theorem sequence_extends (hitem : ExtendsInside bound item item') (close : Char) (fuel : Nat) :
    Extends bound (sequence close item fuel) (sequence close item' bound) := by
  intro s x h
  simp only [sequence] at h
  split at h
  · cases h
  next c rest hskip =>
    split_ifs at h with hclose
    · cases h
      refine ⟨(length_lt_of_skipBlank hskip).le, fun r _ => ?_⟩
      simp only [sequence, skipBlank_append hskip, if_pos hclose]
    · obtain ⟨hle, hread⟩ := items_extend hitem (more_extends hitem close fuel) h
      refine ⟨hle, fun r hbound => ?_⟩
      simp only [sequence, skipBlank_append hskip, if_neg hclose]
      exact hread r bound hbound hbound

theorem member_extends {value value' : List Char → Read Json}
    (hvalue : ExtendsInside bound value value') :
    ExtendsInside bound (member value) (member value') := by
  intro s x h
  simp only [member] at h
  split at h
  · cases h
  next c rest hskip =>
    split_ifs at h with hquote
    obtain ⟨key, hkey, hrest⟩ := bind_eq_some_iff.mp h
    obtain ⟨hkeyLe, hkeyRead⟩ : _ ∧ ∀ r, (rest ++ r).length < bound → _ :=
      stringBody_extends .plain rest key hkey
    split at hrest
    · cases hrest
    next c' rest' hskip' =>
      split_ifs at hrest with hcolon
      obtain ⟨v, hv, rfl⟩ := map_eq_some_iff.mp hrest
      obtain ⟨hvLe, hvRead⟩ := hvalue rest' v hv
      have hlt := length_lt_of_skipBlank hskip
      have hlt' := length_lt_of_skipBlank hskip'
      refine ⟨by dsimp only; omega, fun r hbound hinside => ?_⟩
      rw [length_append] at hbound
      simp only [member, skipBlank_append hskip, if_pos hquote,
        hkeyRead r (by rw [length_append]; omega), bind_some,
        skipBlank_append hskip', if_pos hcolon,
        hvRead r (by rw [length_append]; omega) hinside, map_some]

theorem valueFrom_extends {inner inner' : List Char → Read Json}
    (hinner : ExtendsInside bound inner inner') {c : Char}
    (h : valueFrom inner fuel c rest = some x) :
    x.2.length ≤ rest.length + 1 ∧ ∀ r, (rest ++ r).length < bound →
      (x.2 ≠ [] ∨ r = []) ∨ c = '{' →
      valueFrom inner' bound c (rest ++ r) = some (x.1, x.2 ++ r) := by
  have hlift : ∀ {p q : List Char → Read Json} {P : List Char → Prop}, Extends bound p q →
      p rest = some x → x.2.length ≤ rest.length + 1 ∧
        ∀ r, (rest ++ r).length < bound → P r → q (rest ++ r) = some (x.1, x.2 ++ r) := by
    intro p q P hpq hp
    obtain ⟨hle, hread⟩ := hpq rest x hp
    exact ⟨hle.trans (Nat.le_succ _), fun r hbound _ => hread r hbound⟩
  unfold valueFrom at h ⊢
  split_ifs at h ⊢ with h1 h2 h3 h4 h5 h6
  · exact hlift ((sequence_extends (member_extends hinner) '}' fuel).map Json.object) h
  · exact hlift ((sequence_extends hinner ']' fuel).map Json.array) h
  · exact hlift ((stringBody_extends .plain).map Json.string) h
  · exact hlift (literal_extends _ _) h
  · exact hlift (literal_extends _ _) h
  · exact hlift (literal_extends _ _) h
  · obtain ⟨y, hy, rfl⟩ := map_eq_some_iff.mp h
    obtain ⟨hle, hread⟩ := numberFrom_extends .start (c :: rest) y hy
    refine ⟨hle, fun r hbound hinside => ?_⟩
    rw [← cons_append, hread r (Nat.succ_lt_succ hbound) (hinside.resolve_right h1)]
    rfl

theorem value_extends (fuel bound : Nat) : ExtendsInside bound (value fuel) (value bound) := by
  induction fuel generalizing bound with
  | zero => intro s x h; cases h
  | succ fuel ih =>
    intro s x h
    simp only [value] at h
    split at h
    · cases h
    next c rest hskip =>
      have hlt := length_lt_of_skipBlank hskip
      refine ⟨(valueFrom_extends (ih 0) h).1.trans hlt, fun r hbound hinside => ?_⟩
      obtain ⟨bound, rfl⟩ : ∃ k, bound = k + 1 := ⟨bound - 1, by omega⟩
      simp only [value, skipBlank_append hskip]
      refine (valueFrom_extends (ih bound) h).2 r ?_ (.inl hinside)
      rw [length_append] at hbound ⊢
      omega

/-- A value that any fuel finds in a text, `parse` finds. -/
theorem parse_eq_some (h : value fuel s = some x) (hrest : skipBlank x.2 = []) :
    parse s = some x.1 := by
  have hread := (value_extends fuel (s.length + 1) s x h).2 [] (by simp) (.inr rfl)
  rw [append_nil, append_nil] at hread
  rw [parse, hread, bind_some, if_pos hrest]

/-- What begins with a brace is an object, and is read whatever is
appended. -/
theorem value_append (hskip : skipBlank s = '{' :: rest) (h : value fuel s = some x)
    (r : List Char) : value ((s ++ r).length + 1) (s ++ r) = some (x.1, x.2 ++ r) := by
  cases fuel with
  | zero => cases h
  | succ fuel =>
    simp only [value, hskip] at h
    simp only [value, skipBlank_append hskip]
    have hlt := length_lt_of_skipBlank hskip
    refine (valueFrom_extends (value_extends fuel _) h).2 r ?_ (.inr rfl)
    rw [length_append, length_append]
    omega

/-! ## Objects -/

theorem parse_eq_some_iff :
    parse s = some v ↔ ∃ rest, value (s.length + 1) s = some (v, rest) ∧ skipBlank rest = [] := by
  rw [parse, bind_eq_some_iff]
  constructor
  · rintro ⟨⟨w, rest⟩, hw, hrest⟩
    split_ifs at hrest with hblank
    cases hrest
    exact ⟨rest, hw, hblank⟩
  · rintro ⟨rest, hv, hblank⟩
    exact ⟨(v, rest), hv, if_pos hblank⟩

theorem skipBlank_append_eq_nil : skipBlank (s ++ r) = [] ↔ skipBlank s = [] ∧ skipBlank r = [] := by
  simp only [skipBlank, dropWhile_eq_nil_iff, forall_mem_append]

theorem skipBlank_ne_nil_of_parse (h : parse s = some v) : skipBlank s ≠ [] := by
  intro hnil
  obtain ⟨tail, hvalue, -⟩ := parse_eq_some_iff.mp h
  rw [value, hnil] at hvalue
  cases hvalue

/-- An object begins with a brace. -/
theorem skipBlank_of_parse_object {members : List (List Nat × Json)}
    (h : parse s = some (.object members)) : ∃ rest, skipBlank s = '{' :: rest := by
  obtain ⟨tail, hvalue, -⟩ := parse_eq_some_iff.mp h
  simp only [value] at hvalue
  split at hvalue
  · cases hvalue
  next c rest hskip =>
    refine ⟨rest, ?_⟩
    have hliteral : ∀ word v, (∀ members, v ≠ Json.object members) →
        literal word v rest ≠ some (.object members, tail) := by
      intro word v hv hread
      unfold literal at hread
      split_ifs at hread
      exact hv members (Prod.mk.inj (Option.some.inj hread)).1
    unfold valueFrom at hvalue
    split_ifs at hvalue with h1 h2 h3 h4 h5 h6
    · rw [hskip, h1]
    · obtain ⟨y, -, hy⟩ := map_eq_some_iff.mp hvalue
      cases (Prod.mk.inj hy).1
    · obtain ⟨y, -, hy⟩ := map_eq_some_iff.mp hvalue
      cases (Prod.mk.inj hy).1
    · exact absurd hvalue (hliteral _ _ fun _ hv => by cases hv)
    · exact absurd hvalue (hliteral _ _ fun _ hv => by cases hv)
    · exact absurd hvalue (hliteral _ _ fun _ hv => by cases hv)
    · obtain ⟨y, -, hy⟩ := map_eq_some_iff.mp hvalue
      cases (Prod.mk.inj hy).1

theorem Json.object_of_get {key : String} {w : Json} (h : v.get key = some w) :
    ∃ members, v = .object members := by
  cases v with
  | object members => exact ⟨members, rfl⟩
  | null | bool | number | string | array => cases h

/-- An object followed by anything but white space is not JSON. -/
theorem parse_append_eq_none (hskip : skipBlank s = '{' :: rest)
    (h : parse s = some v) (hr : skipBlank r ≠ []) : parse (s ++ r) = none := by
  obtain ⟨tail, hv, -⟩ := parse_eq_some_iff.mp h
  rw [parse, value_append hskip hv r, bind_some, if_neg]
  exact fun hblank => hr (skipBlank_append_eq_nil.mp hblank).2

/-- What is read from the beginning of an object is that object. -/
theorem parse_eq_of_append {w : Json} (hskip : skipBlank s = '{' :: rest)
    (hs : parse s = some v) (happend : parse (s ++ r) = some w) : v = w := by
  obtain ⟨tail, hv, htail⟩ := parse_eq_some_iff.mp hs
  by_cases hr : skipBlank r = []
  · have hw := parse_eq_some (value_append hskip hv r) (skipBlank_append_eq_nil.mpr ⟨htail, hr⟩)
    exact Option.some.inj (hw.symm.trans happend)
  · rw [parse_append_eq_none hskip hs hr] at happend
    cases happend

example : (parse "\x7b\"paging_token\": \"7\", \"n\": [1e3, true]\x7d".toList).bind
    (fun v => (v.get "paging_token").map fun | .string units => units | _ => []) = some [55] := by
  decide

end JsonText
