import Mathlib.Data.List.Nodup
import Mathlib.Data.List.Perm.Subperm
import ChronoPay.JsText
import ChronoPay.Lib.Digraph
import ChronoPay.Lib.KeyedList
import ChronoPay.Lib.Result

/-!
# RoleHierarchy — the effective roles of a role

`buildRoleHierarchy` reads the direct implications of the configured
roles and closes them under implication. `resolve` is a depth-first
search that keeps the set of each role it is done with, and the roles it
is on the way of; a role it meets on its own way is an error.

What the kept sets may contain is said by `Resolution.Sound`, which every
call keeps (`resolve_meets`): a set is kept only once it is complete, and
then all that it leads to is kept too. So no kept role lies on a cycle,
and a search that ends has found none.
-/

namespace ChronoPay.RoleHierarchy

open Digraph KeyedList List Result

inductive RbacError where
  | noRoles
  | emptyRole
  | notList (role : String)
  | unknownRole (role impliedRole : String)
  | cyclic (path : List String)
  /-- The recursion is deeper than the model follows it. -/
  | depth
  deriving DecidableEq

def RbacError.message : RbacError → String
  | noRoles => "roles.json must define a roles object"
  | emptyRole => "roles.json contains an empty role name"
  | notList role => "roles.json role " ++ role ++ " must list implied roles"
  | unknownRole role impliedRole =>
    "roles.json role " ++ role ++ " implies unknown role " ++ impliedRole
  | cyclic path => "roles.json contains a cyclic role definition: " ++ " -> ".intercalate path
  | depth => "Maximum call stack size exceeded"

/-- A value of the `roles` object: what its elements are as texts, if it is
an array. -/
abbrev RawImplications := Option (List (Option String))

/-- `Object.entries(config.roles)` -/
abbrev Entries := List (String × RawImplications)

variable (toLowerCase : String → String)

def normalizeRole : Option String → String
  | none => ""
  | some value => toLowerCase (trim value)

def normalizeRoleList (values : List (Option String)) : List String :=
  (values.map (normalizeRole toLowerCase)).filter (· ≠ "")

/-- The map from roles to the roles they imply. -/
abbrev Implications := List (String × List String)

namespace Implications

variable (implications : Implications)

def keys : List String := implications.map Prod.fst

def has (role : String) : Bool := (KeyedList.get Prod.fst role implications).isSome

/-- `directImplications.get(role) ?? []` -/
def impliedBy (role : String) : List String :=
  ((KeyedList.get Prod.fst role implications).map Prod.snd).getD []

end Implications

def readEntry (implications : Implications) (entry : String × RawImplications) :
    Except RbacError Implications :=
  let role := normalizeRole toLowerCase (some entry.1)
  if role = "" then .error .emptyRole
  else match entry.2 with
    | none => .error (.notList role)
    | some rawImplications =>
      .ok (KeyedList.put Prod.fst (role, normalizeRoleList toLowerCase rawImplications) implications)

def directImplications (entries : Entries) : Except RbacError Implications :=
  entries.foldlM (readEntry toLowerCase) []

/-- The implications in the order they are looked at. -/
def pairs (implications : Implications) : List (String × String) :=
  implications.flatMap fun entry => entry.2.map fun impliedRole => (entry.1, impliedRole)

def checkKnown (implications : Implications) : Except RbacError Unit :=
  match (pairs implications).find? fun pair => !implications.has pair.2 with
  | some (role, impliedRole) => .error (.unknownRole role impliedRole)
  | none => .ok ()

/-- The sets and the map `resolve` works on. -/
structure Resolution where
  visiting : List String := []
  visited : List String := []
  effectiveRolesByRole : List (String × List String) := []

/-- `set.add(value)` -/
def add (set : List String) (value : String) : List String :=
  if value ∈ set then set else set ++ [value]

/-- A call that follows the recursion `fuel` deep. -/
def resolve (implications : Implications) :
    Nat → String → List String → Resolution → Except RbacError (List String × Resolution)
  | 0, _, _, _ => .error .depth
  | fuel + 1, role, path, s =>
    match KeyedList.get Prod.fst role s.effectiveRolesByRole with
    | some (_, effective) => .ok (effective, s)
    | none =>
      if role ∈ s.visiting then .error (.cyclic (path ++ [role]))
      else do
        let (effective, s) ← (implications.impliedBy role).foldlM
          (fun (effective, s) impliedRole => do
            let (resolved, s) ← resolve implications fuel impliedRole (path ++ [role]) s
            return (resolved.foldl add effective, s))
          ([role], { s with visiting := add s.visiting role })
        return (effective,
          { visiting := s.visiting.erase role, visited := add s.visited role
            effectiveRolesByRole := KeyedList.put Prod.fst (role, effective) s.effectiveRolesByRole })

def resolveRoles (implications : Implications) (fuel : Nat) : Except RbacError Resolution :=
  implications.keys.foldlM
    (fun s role => if role ∈ s.visited then .ok s
      else (resolve implications fuel role [] s).map Prod.snd) {}

structure Hierarchy where
  roles : List String
  effectiveRolesByRole : List (String × List String)

/-- `config` is the `roles` object, if there is one. -/
def buildRoleHierarchy (fuel : Nat) (config : Option Entries) : Except RbacError Hierarchy :=
  match config with
  | none => .error .noRoles
  | some entries => do
    let implications ← directImplications toLowerCase entries
    checkKnown implications
    let s ← resolveRoles implications fuel
    return { roles := implications.keys, effectiveRolesByRole := s.effectiveRolesByRole }

/-! ## The search -/

variable {implications : Implications} {s s' : Resolution} {role r : String} {path : List String}
  {effective : List String}

/-- The search is done with the role. -/
def Resolution.Done (s : Resolution) (role : String) : Prop :=
  (KeyedList.get Prod.fst role s.effectiveRolesByRole).isSome = true

structure Resolution.Sound (implications : Implications) (s : Resolution) : Prop where
  nodup : s.visiting.Nodup
  apart : ∀ role ∈ s.visiting, ¬ s.Done role
  keys : ∀ role ∈ s.visiting, role ∈ implications.keys
  visited : ∀ role, role ∈ s.visited ↔ s.Done role
  /-- What a role that is done leads to is done. -/
  closed : Closed implications.impliedBy s.Done
  /-- A kept set is complete. -/
  complete : ∀ entry ∈ s.effectiveRolesByRole, ∀ r, r ∈ entry.2 ↔
    Reaches implications.impliedBy entry.1 r
  acyclic : ∀ role, s.Done role → ¬ OnCycle implications.impliedBy role

/-- What a call for the role leaves, by the state it began in. -/
structure Resolution.After (implications : Implications) (s s' : Resolution) : Prop where
  sound : s'.Sound implications
  visiting : s'.visiting = s.visiting
  kept : ∀ role, s.Done role → s'.Done role

/-- The search has met a cycle. -/
def Cyclic (implications : Implications) (err : RbacError) : Prop :=
  (∃ path, err = .cyclic path) ∧ ∃ role, OnCycle implications.impliedBy role

theorem mem_add {set : List String} {value r : String} :
    r ∈ add set value ↔ r ∈ set ∨ r = value := by
  rw [add]
  split
  next hmem =>
    refine ⟨.inl, ?_⟩
    rintro (hr | rfl)
    · exact hr
    · exact hmem
  · rw [mem_append, mem_singleton]

theorem mem_foldl_add {set values : List String} :
    r ∈ values.foldl add set ↔ r ∈ set ∨ r ∈ values := by
  induction values generalizing set with
  | nil => simp
  | cons value values ih => rw [foldl_cons, ih, mem_add, mem_cons, or_assoc]

theorem Resolution.After.refl (h : s.Sound implications) : s.After implications s :=
  ⟨h, rfl, fun _ hr => hr⟩

theorem Resolution.After.trans {s'' : Resolution} (h : s.After implications s')
    (h' : s'.After implications s'') : s.After implications s'' :=
  ⟨h'.sound, h'.visiting.trans h.visiting, fun role hr => h'.kept role (h.kept role hr)⟩

/-- The state in which the implied roles are looked at. -/
def Resolution.enter (s : Resolution) (role : String) : Resolution :=
  { s with visiting := add s.visiting role }

/-- The state in which the role is done. -/
def Resolution.leave (s : Resolution) (role : String) (effective : List String) : Resolution where
  visiting := s.visiting.erase role
  visited := add s.visited role
  effectiveRolesByRole := KeyedList.put Prod.fst (role, effective) s.effectiveRolesByRole

theorem Resolution.visiting_enter (hrole : role ∉ s.visiting) :
    (s.enter role).visiting = s.visiting ++ [role] := if_neg hrole

theorem Resolution.Sound.enter (h : s.Sound implications) (hrole : role ∉ s.visiting)
    (hdone : ¬ s.Done role) (hkey : role ∈ implications.keys) :
    (s.enter role).Sound implications where
  nodup := by
    rw [visiting_enter hrole, ← concat_eq_append]
    exact h.nodup.concat hrole
  apart := by
    intro r hr
    rcases mem_add.mp hr with hr | rfl
    · exact h.apart r hr
    · exact hdone
  keys := by
    intro r hr
    rcases mem_add.mp hr with hr | rfl
    · exact h.keys r hr
    · exact hkey
  visited := h.visited
  closed := h.closed
  complete := h.complete
  acyclic := h.acyclic

theorem Resolution.done_leave : (s.leave role effective).Done r ↔ r = role ∨ s.Done r := by
  rw [Done, leave, get_put]
  split
  next heq => exact iff_of_true rfl (.inl heq.symm)
  next hne => exact ⟨.inr, fun hr => hr.resolve_left fun heq => hne heq.symm⟩

theorem Resolution.Sound.leave (h : s.Sound implications)
    (hrole : role ∈ s.visiting) (hnext : ∀ r ∈ implications.impliedBy role, s.Done r)
    (heffective : ∀ r, r ∈ effective ↔ Reaches implications.impliedBy role r) :
    (s.leave role effective).Sound implications where
  nodup := h.nodup.erase role
  apart := by
    intro r hr hdone
    obtain ⟨hne, hmem⟩ := h.nodup.mem_erase_iff.mp hr
    exact h.apart r hmem ((done_leave.mp hdone).resolve_left hne)
  keys r hr := h.keys r (mem_of_mem_erase hr)
  visited := by
    intro r
    rw [done_leave, ← h.visited r]
    exact mem_add.trans or_comm
  closed := by
    intro r hr r' hedge
    rw [done_leave] at hr ⊢
    rcases hr with rfl | hr
    · exact .inr (hnext r' hedge)
    · exact .inr (h.closed r hr r' hedge)
  complete := forall_mem_put heffective h.complete
  acyclic := by
    intro r hr
    rcases done_leave.mp hr with rfl | hr
    · exact h.closed.not_onCycle (h.apart r hrole) hnext
    · exact h.acyclic r hr

/-- Where the loop over the implied roles is: the state, the roles done so
far and what they have given. -/
structure Looping (implications : Implications) (s : Resolution) (role : String)
    (past : List String) (result : List String × Resolution) : Prop where
  after : (s.enter role).After implications result.2
  done : ∀ r ∈ past, result.2.Done r
  effective : ∀ r, r ∈ result.1 ↔ r = role ∨ ∃ b ∈ past, Reaches implications.impliedBy b r

/-- What a call for a role is to return. -/
def Resolves (implications : Implications) (s : Resolution) (role : String)
    (result : List String × Resolution) : Prop :=
  s.After implications result.2 ∧ result.2.Done role ∧
    ∀ r, r ∈ result.1 ↔ Reaches implications.impliedBy role r

theorem Looping.concat {past : List String} {result result' : List String × Resolution} {b : String}
    (h : Looping implications s role past result) (hb : Resolves implications result.2 b result') :
    Looping implications s role (past ++ [b]) (result'.1.foldl add result.1, result'.2) := by
  obtain ⟨hafter, hdone, hreaches⟩ := hb
  refine ⟨h.after.trans hafter, ?_, ?_⟩
  · exact forall_mem_concat (fun r hr => hafter.kept r (h.done r hr)) hdone
  · intro r
    rw [mem_foldl_add, h.effective, hreaches]
    simp [or_and_right, exists_or, or_assoc]

theorem Looping.leave
    (h : Looping implications s role (implications.impliedBy role) (effective, s'))
    (hrole : role ∉ s.visiting) :
    Resolves implications s role (effective, s'.leave role effective) := by
  have hvisiting : s'.visiting = s.visiting ++ [role] :=
    h.after.visiting.trans (Resolution.visiting_enter hrole)
  have hreaches : ∀ r, r ∈ effective ↔ Reaches implications.impliedBy role r := fun r =>
    (h.effective r).trans reaches_iff.symm
  refine ⟨⟨?_, ?_, ?_⟩, Resolution.done_leave.mpr (.inl rfl), hreaches⟩
  · exact h.after.sound.leave (by simp [hvisiting]) h.done hreaches
  · change s'.visiting.erase role = s.visiting
    rw [hvisiting, erase_append_right _ hrole, erase_cons_head, append_nil]
  · exact fun r hr => Resolution.done_leave.mpr (.inr (h.after.kept r hr))

/-- **The search**: with enough fuel it finds what the role reaches, or a
cycle. -/
theorem resolve_meets
    (hkeys : ∀ role ∈ implications.keys, ∀ r ∈ implications.impliedBy role, r ∈ implications.keys)
    (fuel : Nat) (role : String) (path : List String) (s : Resolution)
    (hs : s.Sound implications) (hpath : s.visiting = path)
    (hleads : Leads implications.impliedBy path role) (hrole : role ∈ implications.keys)
    (hfuel : implications.keys.length < fuel + s.visiting.length) :
    Meets (Cyclic implications) (Resolves implications s role)
      (resolve implications fuel role path s) := by
  induction fuel generalizing role path s with
  | zero =>
    -- the roles looked at are distinct keys
    have := (List.Nodup.subperm hs.nodup hs.keys).length_le
    omega
  | succ fuel ih =>
    rw [resolve]
    split
    next key effective hget =>
      have hkey : key = role := get_key hget
      have hcomplete := hs.complete _ (mem_of_get hget)
      rw [hkey] at hcomplete
      exact ⟨.refl hs, by rw [Resolution.Done, hget]; rfl, hcomplete⟩
    next hget =>
      have hdone : ¬ s.Done role := by
        rw [Resolution.Done, hget]
        exact Bool.false_ne_true
      split
      next hmem =>
        -- the role is met on its own way
        rw [hpath] at hmem
        exact ⟨⟨_, rfl⟩, role, hleads.onCycle hmem⟩
      next hmem =>
        refine Meets.bind (P := Looping implications s role (implications.impliedBy role))
          (Meets.foldlM ?_ ?_) ?_
        · intro past b result hb hloop
          have hvisiting : result.2.visiting = s.visiting ++ [role] :=
            hloop.after.visiting.trans (Resolution.visiting_enter hmem)
          refine Meets.bind (ih b (path ++ [role]) result.2 hloop.after.sound ?_ (hleads.concat hb)
            (hkeys role hrole b hb) ?_) fun result' hresolves => hloop.concat hresolves
          · rw [hvisiting, hpath]
          · rw [hvisiting, length_append, length_singleton]
            omega
        · refine ⟨.refl (hs.enter hmem hdone hrole), nofun, fun r => ?_⟩
          simp
        · intro result hloop
          exact hloop.leave hmem

theorem sound_empty : ({} : Resolution).Sound implications where
  nodup := nodup_nil
  apart := forall_mem_nil _
  keys := forall_mem_nil _
  visited _ := ⟨fun hr => absurd hr not_mem_nil, fun hr => absurd hr Bool.false_ne_true⟩
  closed _ hr := absurd hr Bool.false_ne_true
  complete := forall_mem_nil _
  acyclic _ hr := absurd hr Bool.false_ne_true

theorem resolveRoles_meets
    (hkeys : ∀ role ∈ implications.keys, ∀ r ∈ implications.impliedBy role, r ∈ implications.keys)
    {fuel : Nat} (hfuel : implications.keys.length < fuel) :
    Meets (Cyclic implications)
      (fun s => s.Sound implications ∧ ∀ role ∈ implications.keys, s.Done role)
      (resolveRoles implications fuel) := by
  have hloop : Meets (Cyclic implications)
      (fun s => ({} : Resolution).After implications s ∧ ∀ role ∈ implications.keys, s.Done role)
      (resolveRoles implications fuel) := by
    refine Meets.foldlM (I := fun past s => ({} : Resolution).After implications s ∧
      ∀ role ∈ past, s.Done role) ?_ ⟨.refl sound_empty, nofun⟩
    intro past role s hrole ⟨hafter, hpast⟩
    have hvisiting : s.visiting = [] := hafter.visiting
    have hdone : ∀ s' : Resolution, s.After implications s' → s'.Done role →
        ({} : Resolution).After implications s' ∧ ∀ r ∈ past ++ [role], s'.Done r := by
      intro s' hs' hrole'
      exact ⟨hafter.trans hs', forall_mem_concat (fun r hr => hs'.kept r (hpast r hr)) hrole'⟩
    split
    next hvisited => exact hdone s (.refl hafter.sound) ((hafter.sound.visited role).mp hvisited)
    · have hresolve := resolve_meets hkeys fuel role [] s hafter.sound hvisiting leads_nil hrole
        (by omega)
      cases hresult : resolve implications fuel role [] s with
      | error err =>
        rw [hresult] at hresolve
        exact hresolve
      | ok result =>
        rw [hresult] at hresolve
        exact hdone result.2 hresolve.1 hresolve.2.1
  exact hloop.mono fun s hs => ⟨hs.1.sound, hs.2⟩

/-! ## The configuration -/

variable (toLowerCase : String → String)

/-- The name of an entry as it is used. -/
def roleOf (entry : String × RawImplications) : String := normalizeRole toLowerCase (some entry.1)

/-- The roles an entry implies, as they are used. -/
def impliedOf (entry : String × RawImplications) : List String :=
  normalizeRoleList toLowerCase (entry.2.getD [])

/-- One role implies another. -/
def Implies (entries : Entries) (role r : String) : Prop :=
  ∃ entry ∈ entries, roleOf toLowerCase entry = role ∧ r ∈ impliedOf toLowerCase entry

variable {toLowerCase} {entries : Entries}

theorem readEntry_eq {entry : String × RawImplications} (hlist : entry.2.isSome = true)
    (hname : roleOf toLowerCase entry ≠ "") (hfresh : roleOf toLowerCase entry ∉ implications.keys) :
    readEntry toLowerCase implications entry
      = .ok (implications ++ [(roleOf toLowerCase entry, impliedOf toLowerCase entry)]) := by
  obtain ⟨values, hvalues⟩ := Option.isSome_iff_exists.mp hlist
  have hget : KeyedList.get Prod.fst (roleOf toLowerCase entry) implications = none := by
    refine get_eq_none.mpr fun other hother heq => hfresh ?_
    rw [← heq]
    exact mem_map_of_mem hother
  have himplied : impliedOf toLowerCase entry = normalizeRoleList toLowerCase values := by
    rw [impliedOf, hvalues]
    rfl
  have hput : KeyedList.put Prod.fst
      (roleOf toLowerCase entry, normalizeRoleList toLowerCase values) implications
        = implications ++ [(roleOf toLowerCase entry, normalizeRoleList toLowerCase values)] := by
    rw [KeyedList.put, hget]
  rw [readEntry, if_neg (show ¬ normalizeRole toLowerCase (some entry.1) = "" from hname), hvalues,
    himplied]
  exact congrArg Except.ok hput

/-- The entries as the map has them. -/
def normalized (toLowerCase : String → String) (entries : Entries) : Implications :=
  entries.map fun entry => (roleOf toLowerCase entry, impliedOf toLowerCase entry)

theorem keys_normalized :
    (normalized toLowerCase entries).keys = entries.map (roleOf toLowerCase) :=
  map_map

theorem directImplications_eq (hlists : ∀ entry ∈ entries, entry.2.isSome = true)
    (hnames : ∀ entry ∈ entries, roleOf toLowerCase entry ≠ "")
    (hdistinct : (entries.map (roleOf toLowerCase)).Nodup) :
    directImplications toLowerCase entries = .ok (normalized toLowerCase entries) := by
  have hfold : ∀ (rest : Entries) (read : Implications), (∀ entry ∈ rest, entry ∈ entries) →
      (read.keys ++ rest.map (roleOf toLowerCase)).Nodup →
      rest.foldlM (readEntry toLowerCase) read = .ok (read ++ normalized toLowerCase rest) := by
    intro rest
    induction rest with
    | nil =>
      intro read _ _
      rw [normalized, map_nil, append_nil]
      rfl
    | cons entry rest ih =>
      intro read hmem hnodup
      obtain ⟨hentry, hrest⟩ := forall_mem_cons.mp hmem
      have hfresh : roleOf toLowerCase entry ∉ read.keys := fun hold =>
        (nodup_append.mp hnodup).2.2 _ hold _ mem_cons_self rfl
      rw [foldlM_cons, readEntry_eq (hlists entry hentry) (hnames entry hentry) hfresh]
      refine (ih _ hrest ?_).trans ?_
      · rw [Implications.keys, map_append, append_assoc]
        exact hnodup
      · rw [append_assoc]
        rfl
  exact hfold entries [] (fun _ hentry => hentry) hdistinct

theorem mem_pairs {role r : String} :
    (role, r) ∈ pairs implications ↔ ∃ entry ∈ implications, entry.1 = role ∧ r ∈ entry.2 := by
  rw [pairs, mem_flatMap]
  refine exists_congr fun entry => and_congr_right fun _ => ?_
  rw [mem_map]
  constructor
  · rintro ⟨r', hr', heq⟩
    cases heq
    exact ⟨rfl, hr'⟩
  · rintro ⟨rfl, hr⟩
    exact ⟨r, hr, rfl⟩

theorem has_iff : implications.has role = true ↔ role ∈ implications.keys := by
  rw [Implications.has, KeyedList.get, find?_isSome]
  simp [Implications.keys]

/-- The check of the names passes, or it names an unknown role. -/
theorem checkKnown_cases (implications : Implications) :
    (checkKnown implications = .ok () ∧
      ∀ entry ∈ implications, ∀ r ∈ entry.2, r ∈ implications.keys) ∨
    ∃ role r, checkKnown implications = .error (.unknownRole role r) ∧
      (∃ entry ∈ implications, entry.1 = role ∧ r ∈ entry.2) ∧ r ∉ implications.keys := by
  rw [checkKnown]
  split
  next role r hfind =>
    right
    refine ⟨role, r, rfl, mem_pairs.mp (mem_of_find?_eq_some hfind), fun hkey => ?_⟩
    have hunknown := find?_some hfind
    rw [has_iff.mpr hkey] at hunknown
    cases hunknown
  next hfind =>
    left
    refine ⟨rfl, fun entry hentry r hr => has_iff.mp ?_⟩
    have hknown := find?_eq_none.mp hfind _ (mem_pairs.mpr ⟨entry, hentry, rfl, hr⟩)
    simpa using hknown

theorem mem_impliedBy (hdistinct : implications.keys.Nodup) :
    r ∈ implications.impliedBy role ↔ ∃ entry ∈ implications, entry.1 = role ∧ r ∈ entry.2 := by
  rw [Implications.impliedBy]
  constructor
  · intro hr
    cases hget : KeyedList.get Prod.fst role implications with
    | none =>
      rw [hget] at hr
      exact absurd hr not_mem_nil
    | some entry =>
      rw [hget] at hr
      exact ⟨entry, mem_of_get hget, get_key hget, hr⟩
  · rintro ⟨entry, hentry, rfl, hr⟩
    rw [get_key_of_mem hdistinct hentry]
    exact hr

/-- The edges of the search are the implications of the configuration. -/
theorem edge_normalized (hdistinct : (entries.map (roleOf toLowerCase)).Nodup) :
    Edge (normalized toLowerCase entries).impliedBy = Implies toLowerCase entries := by
  funext role r
  rw [← keys_normalized] at hdistinct
  refine propext ((mem_impliedBy hdistinct).trans ?_)
  simp [normalized, Implies]

/-- **`buildRoleHierarchy`**: over distinct names that are not empty it
throws exactly where a role implies an unknown one or a chain of
implications comes back to where it began. Otherwise the effective roles of
a role are those it reaches. The recursion is no deeper than there are
roles. -/
theorem buildRoleHierarchy_spec (toLowerCase : String → String) (entries : Entries)
    (hlists : ∀ entry ∈ entries, entry.2.isSome = true)
    (hnames : ∀ entry ∈ entries, roleOf toLowerCase entry ≠ "")
    (hdistinct : (entries.map (roleOf toLowerCase)).Nodup) (fuel : Nat)
    (hfuel : entries.length < fuel) :
    ((∃ err, buildRoleHierarchy toLowerCase fuel (some entries) = .error err) ↔
      (∃ role r, Implies toLowerCase entries role r ∧ r ∉ entries.map (roleOf toLowerCase)) ∨
        ∃ role, Relation.TransGen (Implies toLowerCase entries) role role) ∧
      (∀ hierarchy, buildRoleHierarchy toLowerCase fuel (some entries) = .ok hierarchy →
        hierarchy.roles = entries.map (roleOf toLowerCase) ∧
          ∀ role ∈ hierarchy.roles, ∃ effective,
            KeyedList.get Prod.fst role hierarchy.effectiveRolesByRole = some (role, effective) ∧
              ∀ r, r ∈ effective ↔ Relation.ReflTransGen (Implies toLowerCase entries) role r) ∧
      buildRoleHierarchy toLowerCase fuel (some entries) ≠ .error .depth := by
  have hbuild : buildRoleHierarchy toLowerCase fuel (some entries)
      = (do
        checkKnown (normalized toLowerCase entries)
        let s ← resolveRoles (normalized toLowerCase entries) fuel
        return { roles := (normalized toLowerCase entries).keys
                 effectiveRolesByRole := s.effectiveRolesByRole }) := by
    rw [buildRoleHierarchy, directImplications_eq hlists hnames hdistinct]
    rfl
  have hlength : (normalized toLowerCase entries).keys.length = entries.length := by
    rw [keys_normalized, length_map]
  rw [hbuild, ← edge_normalized hdistinct, ← keys_normalized]
  rw [← keys_normalized] at hdistinct
  generalize normalized toLowerCase entries = implications at *
  obtain ⟨hok, hknown⟩ | ⟨role, r, herror, hunknown, hkey⟩ := checkKnown_cases implications
  · have hkeys : ∀ role ∈ implications.keys, ∀ r ∈ implications.impliedBy role,
        r ∈ implications.keys := by
      intro role _ r hr
      obtain ⟨entry, hentry, -, hr⟩ := (mem_impliedBy hdistinct).mp hr
      exact hknown entry hentry r hr
    have hmeets := resolveRoles_meets hkeys (hlength.trans_lt hfuel)
    rw [hok]
    cases hresolve : resolveRoles implications fuel with
    | error err =>
      rw [hresolve] at hmeets
      obtain ⟨⟨path, rfl⟩, hcycle⟩ := hmeets
      exact ⟨⟨fun _ => .inr hcycle, fun _ => ⟨_, rfl⟩⟩, nofun, nofun⟩
    | ok s =>
      rw [hresolve] at hmeets
      obtain ⟨hsound, hdone⟩ := hmeets
      refine ⟨⟨nofun, ?_⟩, ?_, nofun⟩
      · rintro (⟨role, r, hedge, hkey⟩ | ⟨role, hcycle⟩)
        · obtain ⟨entry, hentry, -, hr⟩ := (mem_impliedBy hdistinct).mp hedge
          exact absurd (hknown entry hentry r hr) hkey
        · -- a role on a cycle implies another, so it is a key
          obtain ⟨r, hedge, -⟩ := Relation.TransGen.head'_iff.mp hcycle
          obtain ⟨entry, hentry, rfl, -⟩ := (mem_impliedBy hdistinct).mp hedge
          exact absurd hcycle (hsound.acyclic _ (hdone _ (mem_map_of_mem hentry)))
      · rintro hierarchy heq
        cases heq
        refine ⟨rfl, fun role hrole => ?_⟩
        obtain ⟨⟨key, effective⟩, hget⟩ := Option.isSome_iff_exists.mp (hdone role hrole)
        obtain rfl : key = role := get_key hget
        exact ⟨effective, hget, hsound.complete _ (mem_of_get hget)⟩
  · rw [herror]
    refine ⟨⟨fun _ => .inl ⟨role, r, (mem_impliedBy hdistinct).mpr hunknown, hkey⟩,
      fun _ => ⟨_, rfl⟩⟩, nofun, nofun⟩

def asciiLower (text : String) : String := String.ofList (text.toList.map Char.toLower)

/-- Two roles, written with a blank and in upper case. -/
def twoRoles : Entries := [(" Admin", some [some "support", some " "]), ("Support", some [])]

theorem twoRoles_effective :
    ∃ hierarchy, buildRoleHierarchy asciiLower 3 (some twoRoles) = .ok hierarchy ∧
      hierarchy.roles = ["admin", "support"] ∧
      ∀ role ∈ hierarchy.roles, ∃ effective,
        KeyedList.get Prod.fst role hierarchy.effectiveRolesByRole = some (role, effective) ∧
          ∀ r, r ∈ effective ↔ Relation.ReflTransGen (Implies asciiLower twoRoles) role r := by
  have hok : Ok (buildRoleHierarchy asciiLower 3 (some twoRoles)) := by decide +kernel
  obtain ⟨hierarchy, hbuild⟩ := hok
  have hroles : twoRoles.map (roleOf asciiLower) = ["admin", "support"] := by decide +kernel
  obtain ⟨heq, heffective⟩ := (buildRoleHierarchy_spec asciiLower twoRoles (by decide)
    (by decide +kernel) (by decide +kernel) 3 (by decide)).2.1 hierarchy hbuild
  exact ⟨hierarchy, hbuild, heq.trans hroles, heffective⟩

end ChronoPay.RoleHierarchy
