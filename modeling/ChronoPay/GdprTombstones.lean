import ChronoPay.Lib.Result
import ChronoPay.GdprErasure

/-!
# GdprTombstones — what the statements of an erasure do to the tables

The UPDATEs are sent one row after the other, each with parameters
numbered anew. Where the primary keys are unique they act together like
one map over the table (`tombstone_ok`): the rows of the subject are
replaced by their tombstones, the others stay. That holds even where a
hash is stored in the key column itself, since the key stays unique.

A graph that lists a table once is walked node by node on the tables as
they were at the start (`Walked`).
-/

namespace ChronoPay.GdprErasure

open Function KeyedList List

/-! ## The SET clause -/

/-- What a PII column sets in a row. -/
def PiiColumn.sets (env : Env) (row : Row) (c : PiiColumn) : List (String × Option String) :=
  if c.storeHash ∧ (row c.name).isSome then
    [(c.name, none), (hashColumn c.name, some (env.sha256Hex (row c.name)))]
  else [(c.name, none)]

def TableNode.sets (node : TableNode) (env : Env) (row : Row) : List (String × Option String) :=
  node.effectiveColumns.flatMap (PiiColumn.sets env row)

/-- The row as the UPDATE for it leaves it. -/
def TableNode.tombstone (node : TableNode) (env : Env) (row : Row) : Row :=
  assign (node.sets env row) row

/-- The parameters of the clause are numbered from 1, the next one has the
next number. -/
structure SetClause.Numbered (clause : SetClause) : Prop where
  next : clause.paramIdx = clause.params.length + 1
  used : ∀ n, n ∈ clause.setParts.filterMap Prod.snd → n - 1 < clause.params.length

/-- The clause with its parameters filled in. -/
def SetClause.filled (clause : SetClause) (more : List String) : List (String × Option String) :=
  clause.setParts.map fun part => (part.1, part.2.bind fun n => (clause.params ++ more)[n - 1]?)

section

variable {env : Env} {row : Row} {clause : SetClause} {c : PiiColumn}

theorem SetClause.Numbered.filled_eq (h : clause.Numbered) (more : List String) :
    clause.filled more = clause.filled [] := by
  refine map_congr_left fun part hpart => ?_
  rcases part with ⟨name, _ | n⟩
  · rfl
  · have hn := h.used n (mem_filterMap.mpr ⟨_, hpart, rfl⟩)
    show (name, (clause.params ++ more)[n - 1]?) = (name, (clause.params ++ [])[n - 1]?)
    rw [append_nil, getElem?_append_left hn]

theorem SetClause.Numbered.add (h : clause.Numbered) (env : Env) (row : Row) (c : PiiColumn) :
    (clause.add env row c).Numbered := by
  unfold SetClause.add
  dsimp only
  split
  · refine ⟨?_, fun n hn => ?_⟩
    · show clause.paramIdx + 1 = (clause.params ++ [_]).length + 1
      rw [length_append, h.next]
      rfl
    · rw [filterMap_append, filterMap_append, mem_append, mem_append] at hn
      rw [length_append]
      rcases hn with (hn | hn) | hn
      · exact Nat.lt_of_lt_of_le (h.used n hn) (Nat.le_add_right _ _)
      · exact absurd hn not_mem_nil
      · obtain rfl := mem_singleton.mp hn
        rw [h.next]
        exact Nat.lt_succ_self _
  · refine ⟨h.next, fun n hn => h.used n ?_⟩
    rw [filterMap_append] at hn
    exact (mem_append.mp hn).resolve_right not_mem_nil

theorem SetClause.Numbered.filled_add (h : clause.Numbered) :
    (clause.add env row c).filled [] = clause.filled [] ++ c.sets env row := by
  unfold SetClause.add PiiColumn.sets
  dsimp only
  split
  · show List.map _ (clause.setParts ++ [_] ++ [_]) = _
    rw [map_append, map_append, append_assoc]
    refine congrArg₂ (· ++ ·) (h.filled_eq [env.sha256Hex (row c.name)] ▸ ?_) ?_
    · simp only [SetClause.filled, append_nil]
    · simp [h.next]
  · exact map_append

theorem setClause_numbered (node : TableNode) (env : Env) (row : Row) :
    (node.setClause env row).Numbered ∧ (node.setClause env row).filled [] = node.sets env row := by
  -- the clause built so far is carried along the columns that are left
  suffices h : ∀ (columns : List PiiColumn) (clause : SetClause), clause.Numbered →
      (columns.foldl (SetClause.add env row) clause).Numbered ∧
        (columns.foldl (SetClause.add env row) clause).filled []
          = clause.filled [] ++ columns.flatMap (PiiColumn.sets env row) from
    h node.effectiveColumns {} ⟨rfl, forall_mem_nil _⟩
  intro columns
  induction columns with
  | nil => exact fun clause h => ⟨h, (append_nil _).symm⟩
  | cons c columns ih =>
    intro clause h
    obtain ⟨hnumbered, hfilled⟩ := ih (clause.add env row c) (h.add env row c)
    refine ⟨hnumbered, hfilled.trans ?_⟩
    rw [h.filled_add, flatMap_cons, append_assoc]

/-- Whatever the row, `$n` stands for the hash of its column, and the last
parameter for the key. -/
theorem updateStatement_sets (node : TableNode) (env : Env) (row : Row) :
    (node.updateStatement env row).sets = node.sets env row := by
  obtain ⟨hnumbered, hfilled⟩ := setClause_numbered node env row
  exact (hnumbered.filled_eq [node.rowId row]).trans hfilled

theorem updateStatement_param (node : TableNode) (env : Env) (row : Row) :
    (node.updateStatement env row).param (node.updateStatement env row).paramIdx
      = some (node.rowId row) := by
  have hnext := (setClause_numbered node env row).1.next
  show ((node.setClause env row).params ++ [node.rowId row])[(node.setClause env row).paramIdx - 1]?
    = some (node.rowId row)
  rw [hnext, Nat.add_sub_cancel, getElem?_concat_length]

end

/-! ## Tombstones of rows -/

section

variable {env : Env} {node : TableNode} {row : Row}

theorem mem_sets {set : String × Option String} :
    set ∈ node.sets env row ↔ ∃ c ∈ node.effectiveColumns, set = (c.name, none) ∨
      c.storeHash = true ∧ ∃ v, row c.name = some v ∧
        set = (hashColumn c.name, some (env.sha256 v)) := by
  refine mem_flatMap.trans (exists_congr fun c => and_congr_right fun _ => ?_)
  unfold PiiColumn.sets
  cases hvalue : row c.name with
  | none => simp
  | some v =>
    by_cases hstore : c.storeHash = true
    · simp [hstore, Env.sha256Hex]
    · simp [hstore]

theorem assign_of_mem {sets : List (String × Option String)} {set : String × Option String}
    (hnodup : (sets.map Prod.fst).Nodup) (hset : set ∈ sets) :
    assign sets row set.1 = set.2 := by
  unfold assign
  rw [get_key_of_mem hnodup hset]

theorem assign_of_forall {sets : List (String × Option String)} {column : String}
    (h : ∀ set ∈ sets, set.1 = column → set.2 = row column) :
    assign sets row column = row column := by
  unfold assign
  split
  next set hset => exact h set (mem_of_get hset) (get_key hset)
  · rfl

theorem hashColumn_inj {a b : String} (h : hashColumn a = hashColumn b) : a = b := by
  have := congrArg String.toList h
  rw [hashColumn, hashColumn, String.toList_append, String.toList_append] at this
  exact String.ext_iff.mpr (append_cancel_left this)

/-- A row in which the PII columns are NULL is its own tombstone. -/
theorem tombstone_eq_self (h : ∀ c ∈ node.effectiveColumns, row c.name = none) :
    node.tombstone env row = row := by
  funext column
  refine assign_of_forall fun set hset hcolumn => ?_
  obtain ⟨c, hc, rfl | ⟨-, v, hv, -⟩⟩ := mem_sets.mp hset
  · rw [← hcolumn]
    exact (h c hc).symm
  · rw [h c hc] at hv
    cases hv

theorem tombstone_name (hnodup : ((node.sets env row).map Prod.fst).Nodup) {c : PiiColumn}
    (hc : c ∈ node.effectiveColumns) : node.tombstone env row c.name = none :=
  assign_of_mem hnodup (mem_sets.mpr ⟨c, hc, .inl rfl⟩)

theorem tombstone_ne_iff (hnodup : ((node.sets env row).map Prod.fst).Nodup) :
    node.tombstone env row ≠ row ↔ ∃ c ∈ node.effectiveColumns, row c.name ≠ none := by
  constructor
  · intro hne
    by_contra hall
    exact hne (tombstone_eq_self fun c hc => not_not.mp fun hsome => hall ⟨c, hc, hsome⟩)
  · rintro ⟨c, hc, hsome⟩ heq
    exact hsome ((congrFun heq c.name).symm.trans (tombstone_name hnodup hc))

/-- What an erasure leaves of a row. -/
structure RowErased (sha256 : String → String) (node : TableNode) (subjectId : String)
    (before after : Row) : Prop where
  nulled : before node.fkCol = some subjectId → ∀ c ∈ node.effectiveColumns, after c.name = none
  hashed : before node.fkCol = some subjectId →
    ∀ c ∈ node.effectiveColumns, c.storeHash = true → ∀ v, before c.name = some v →
      after (hashColumn c.name) = some (sha256 v)
  unhashed : before node.fkCol = some subjectId →
    ∀ c ∈ node.effectiveColumns, c.storeHash = true → before c.name = none →
      after (hashColumn c.name) = before (hashColumn c.name)
  kept : ∀ column, (∀ c ∈ node.effectiveColumns, column ≠ c.name ∧
    (c.storeHash = true → column ≠ hashColumn c.name)) → after column = before column
  other : before node.fkCol ≠ some subjectId → after = before

/-- No hash is stored in a column that is itself to be erased. -/
def TableNode.HashesApart (node : TableNode) : Prop :=
  ∀ c ∈ node.effectiveColumns, c.storeHash = true →
    ∀ c' ∈ node.effectiveColumns, c'.name ≠ hashColumn c.name

/-- A row of the subject becomes a tombstone, any other stays. -/
def TableNode.eraseRow (node : TableNode) (env : Env) (subjectId : String) (row : Row) : Row :=
  if row node.fkCol = some subjectId then node.tombstone env row else row

theorem eraseRow_erased {subjectId : String} (hapart : node.HashesApart)
    (hnodup : row node.fkCol = some subjectId → ((node.sets env row).map Prod.fst).Nodup) :
    RowErased env.sha256 node subjectId row (node.eraseRow env subjectId row) := by
  unfold TableNode.eraseRow
  split
  next hsubject =>
    refine ⟨fun _ c hc => tombstone_name (hnodup hsubject) hc, fun _ c hc hstore v hv => ?_,
      fun _ c hc hstore hnone => ?_, fun column hcolumn => ?_, fun h => absurd hsubject h⟩
    · exact assign_of_mem (hnodup hsubject) (mem_sets.mpr ⟨c, hc, .inr ⟨hstore, v, hv, rfl⟩⟩)
    · refine assign_of_forall fun set hset heq => ?_
      obtain ⟨c', hc', rfl | ⟨-, v, hv, rfl⟩⟩ := mem_sets.mp hset
      · exact absurd heq (hapart c hc hstore c' hc')
      · rw [hashColumn_inj heq, hnone] at hv
        cases hv
    · refine assign_of_forall fun set hset heq => ?_
      obtain ⟨c, hc, rfl | ⟨hstore, v, hv, rfl⟩⟩ := mem_sets.mp hset
      · exact absurd heq.symm (hcolumn c hc).1
      · exact absurd heq.symm ((hcolumn c hc).2 hstore)
  next hother =>
    exact ⟨fun h => absurd h hother, fun h => absurd h hother, fun h => absurd h hother,
      fun _ _ => rfl, fun _ => rfl⟩

end

/-! ## Tombstones of a table -/

/-- The loop over the rows, as one statement after the other. -/
def Database.tombstoneRows (env : Env) (node : TableNode) (db : Database) (rows : List Row) :
    Except String Database :=
  rows.foldlM (fun db row => db.update (node.updateStatement env row)) db

def Database.tombstone (env : Env) (node : TableNode) (subjectId : String) (dryRun : Bool)
    (db : Database) : Except String Database :=
  if dryRun = true ∨ node.effectiveColumns = [] then .ok db
  else db.tombstoneRows env node (db.select node.table node.fkCol subjectId)

/-- The column the rows are found by again is the primary key. -/
structure UniqueKeys (node : TableNode) (db : Database) : Prop where
  primaryKey : db.primaryKey node.table = node.pkCol
  nodup : ((db.tables node.table).map fun row => row node.pkCol).Nodup
  notNull : ∀ row ∈ db.tables node.table, row node.pkCol ≠ none

/-- A row of the table once the rows in `done` have been replaced. -/
def TableNode.progress (node : TableNode) (env : Env) (done : List Row) (row : Row) : Row :=
  if row node.pkCol ∈ done.map (fun row => row node.pkCol) then node.tombstone env row else row

section

variable {env : Env} {node : TableNode} {db db' : Database} {rows done : List Row} {row : Row}
  {subjectId : String}

theorem tombstoneRows_cons :
    db.tombstoneRows env node (row :: rows)
      = db.update (node.updateStatement env row) >>= fun next =>
          next.tombstoneRows env node rows :=
  foldlM_cons

theorem update_ok {u : UpdateStatement} (h : db.update u = .ok db') :
    db' = db.withRows u.table ((db.tables u.table).map fun row =>
        if row u.pkCol = u.param u.paramIdx then assign u.sets row else row) ∧
      (u.setParts.map Prod.fst).Nodup ∧ (db'.keysOf u.table).Nodup := by
  unfold Database.update at h
  dsimp only at h
  split at h
  · cases h
  · split at h
    · cases h
    · split at h
      · cases h
      next hsets hkeys =>
        cases h
        exact ⟨rfl, not_not.mp hsets, not_not.mp hkeys⟩

theorem tables_withRows : (db.withRows node.table rows).tables node.table = rows := update_self ..

theorem withRows_withRows (db : Database) (table : String) (rows rows' : List Row) :
    (db.withRows table rows).withRows table rows' = db.withRows table rows' :=
  congrArg (fun tables => { db with tables := tables }) (update_idem ..)

theorem withRows_self (db : Database) (table : String) : db.withRows table (db.tables table) = db :=
  congrArg (fun tables => { db with tables := tables }) (update_eq_self ..)

/-- One UPDATE finds the row it was built from and no other, even if a row
that is done has a new key. -/
theorem update_progress (hunique : UniqueKeys node db)
    (hkeys : ((db.tables node.table).map fun r => node.progress env done r node.pkCol).Nodup)
    (hrow : row ∈ db.tables node.table)
    (hnew : row node.pkCol ∉ done.map fun row => row node.pkCol) :
    ((db.tables node.table).map (node.progress env done)).map (fun r =>
        if r node.pkCol = some (node.rowId row) then assign (node.sets env row) r else r)
      = (db.tables node.table).map (node.progress env (done ++ [row])) := by
  have hid : some (node.rowId row) = row node.pkCol := by
    unfold TableNode.rowId
    cases hpk : row node.pkCol with
    | none => exact absurd hpk (hunique.notNull row hrow)
    | some id => rfl
  have hself : node.progress env done row = row := if_neg hnew
  rw [map_map]
  refine map_congr_left fun r hr => ?_
  show (if node.progress env done r node.pkCol = some (node.rowId row) then _ else _) = _
  by_cases heq : r = row
  · subst heq
    rw [hself, if_pos hid.symm]
    refine (if_pos ?_).symm
    rw [map_append]
    exact mem_append_right _ mem_cons_self
  · have hfound : node.progress env done r node.pkCol ≠ some (node.rowId row) := by
      intro hfound
      refine heq (inj_on_of_nodup_map hkeys hr hrow ?_)
      rw [hself]
      exact hfound.trans hid
    have hpk : r node.pkCol ≠ row node.pkCol := fun h =>
      heq (inj_on_of_nodup_map hunique.nodup hr hrow h)
    rw [if_neg hfound]
    refine if_congr ?_ rfl rfl
    rw [map_append, mem_append]
    exact ⟨.inl, fun h => h.resolve_right fun h => hpk (mem_singleton.mp h)⟩

/-- The table in the middle of the loop: what is done is replaced, what is
left will be. -/
theorem tombstoneRows_ok (hunique : UniqueKeys node db) (rows : List Row) :
    ∀ (done : List Row) {current : Database},
      current = db.withRows node.table ((db.tables node.table).map (node.progress env done)) →
      (current.keysOf node.table).Nodup →
      (∀ row ∈ rows, row ∈ db.tables node.table) →
      ((done ++ rows).map fun row => row node.pkCol).Nodup →
      current.tombstoneRows env node rows = .ok db' →
      db' = db.withRows node.table
          ((db.tables node.table).map (node.progress env (done ++ rows))) ∧
        (db'.keysOf node.table).Nodup ∧
        ∀ row ∈ rows, ((node.sets env row).map Prod.fst).Nodup := by
  induction rows with
  | nil =>
    intro done current hcurrent hkeys _ _ hok
    cases hok
    rw [append_nil]
    exact ⟨hcurrent, hkeys, forall_mem_nil _⟩
  | cons row rows ih =>
    intro done current hcurrent hkeys hmem hnodup hok
    obtain ⟨next, hnext, hrest⟩ := Result.bind_eq_ok.mp (tombstoneRows_cons.symm.trans hok)
    obtain ⟨hupdated, hsets, hnextKeys⟩ := update_ok hnext
    have hnew : row node.pkCol ∉ done.map fun row => row node.pkCol := by
      intro h
      rw [map_append] at hnodup
      exact disjoint_of_nodup_append hnodup h mem_cons_self
    have hprogress : ((db.tables node.table).map fun r =>
        node.progress env done r node.pkCol).Nodup := by
      have := hkeys
      rw [Database.keysOf, hcurrent, tables_withRows, map_map] at this
      rwa [← hunique.primaryKey]
    rw [updateStatement_param, updateStatement_sets] at hupdated
    have hrows : next = db.withRows node.table
        ((db.tables node.table).map (node.progress env (done ++ [row]))) := by
      rw [← update_progress hunique hprogress (hmem row mem_cons_self) hnew, hupdated, hcurrent]
      show Database.withRows _ node.table _ = _
      rw [withRows_withRows]
      show db.withRows node.table (List.map _ ((db.withRows node.table _).tables node.table)) = _
      rw [tables_withRows]
      rfl
    rw [append_cons] at hnodup ⊢
    obtain ⟨hdb, hkeys', hall⟩ := ih (done ++ [row]) hrows hnextKeys
      (forall_mem_cons.mp hmem).2 hnodup hrest
    refine ⟨hdb, hkeys', forall_mem_cons.mpr ⟨?_, hall⟩⟩
    rw [← updateStatement_sets, UpdateStatement.sets, map_map]
    exact hsets

theorem progress_select (hunique : UniqueKeys node db) (hrow : row ∈ db.tables node.table) :
    node.progress env (db.select node.table node.fkCol subjectId) row
      = node.eraseRow env subjectId row := by
  refine if_congr ?_ rfl rfl
  constructor
  · intro h
    obtain ⟨r, hr, hpk⟩ := mem_map.mp h
    obtain ⟨hr, hsubject⟩ := mem_filter.mp hr
    obtain rfl := inj_on_of_nodup_map hunique.nodup hr hrow hpk
    exact of_decide_eq_true hsubject
  · intro h
    exact mem_map_of_mem (mem_filter.mpr ⟨hrow, decide_eq_true h⟩)

theorem eraseRow_eq_self (h : node.effectiveColumns = []) (subjectId : String) (row : Row) :
    node.eraseRow env subjectId row = row := by
  unfold TableNode.eraseRow
  split
  · exact tombstone_eq_self fun c hc => absurd (h ▸ hc) not_mem_nil
  · rfl

/-- What a node's statements have done once all of them went through. -/
structure Tombstoned (env : Env) (node : TableNode) (subjectId : String) (db db' : Database) :
    Prop where
  eq : db' = db.withRows node.table
    ((db.tables node.table).map (node.eraseRow env subjectId))
  unique : UniqueKeys node db'
  setOnce : ∀ row ∈ db.tables node.table, row node.fkCol = some subjectId →
    ((node.sets env row).map Prod.fst).Nodup

theorem sets_of_nil (h : node.effectiveColumns = []) (row : Row) : node.sets env row = [] := by
  unfold TableNode.sets
  rw [h]
  rfl

theorem eraseRow_pkCol_ne_none (h : row node.pkCol ≠ none) :
    node.eraseRow env subjectId row node.pkCol ≠ none := by
  unfold TableNode.eraseRow
  split
  · intro hnone
    have hset : ∀ set ∈ node.sets env row, set.1 = node.pkCol → set.2 ≠ none := by
      intro set hset heq
      obtain ⟨c, hc, rfl | ⟨-, v, -, rfl⟩⟩ := mem_sets.mp hset
      · have hne := of_decide_eq_true (mem_filter.mp hc).2
        exact absurd heq hne.1
      · exact Option.some_ne_none _
    unfold TableNode.tombstone assign at hnone
    split at hnone
    next set hget => exact hset set (mem_of_get hget) (get_key hget) hnone
    · exact h hnone
  · exact h

theorem tombstone_ok (hunique : UniqueKeys node db)
    (hok : db.tombstone env node subjectId false = .ok db') :
    Tombstoned env node subjectId db db' := by
  by_cases hnil : node.effectiveColumns = []
  · unfold Database.tombstone at hok
    rw [if_pos (.inr hnil)] at hok
    cases hok
    refine ⟨?_, hunique, fun row _ _ => ?_⟩
    · have hid : (db.tables node.table).map (node.eraseRow env subjectId) = db.tables node.table :=
        map_id'' (eraseRow_eq_self hnil subjectId) _
      rw [hid, withRows_self]
    · rw [sets_of_nil hnil]
      exact nodup_nil
  · unfold Database.tombstone at hok
    rw [if_neg fun h => h.elim nofun hnil] at hok
    have hnone : (db.tables node.table).map (node.progress env []) = db.tables node.table :=
      map_id'' (fun _ => if_neg not_mem_nil) _
    obtain ⟨heq, hkeys, hsets⟩ := tombstoneRows_ok hunique
      (db.select node.table node.fkCol subjectId) []
      (by rw [hnone, withRows_self])
      (by rw [Database.keysOf, hunique.primaryKey]; exact hunique.nodup)
      (fun row hrow => (mem_filter.mp hrow).1)
      (hunique.nodup.sublist (filter_sublist.map _)) hok
    have herased : (db.tables node.table).map
        (node.progress env ([] ++ db.select node.table node.fkCol subjectId))
          = (db.tables node.table).map (node.eraseRow env subjectId) :=
      map_congr_left fun row hrow => progress_select hunique hrow
    rw [herased] at heq
    have hpk : db'.primaryKey node.table = node.pkCol := by
      rw [heq]
      exact hunique.primaryKey
    refine ⟨heq, ⟨hpk, ?_, ?_⟩, fun row hrow hsubject =>
      hsets row (mem_filter.mpr ⟨hrow, decide_eq_true hsubject⟩)⟩
    · rwa [Database.keysOf, hpk] at hkeys
    · rw [heq, tables_withRows]
      intro row hrow
      obtain ⟨r, hr, rfl⟩ := mem_map.mp hrow
      exact eraseRow_pkCol_ne_none (hunique.notNull r hr)

end

/-! ## The walk over the graph -/

/-- The actions of a node, whether they are carried out or not. -/
def Database.plan (env : Env) (node : TableNode) (subjectId : String) (db : Database) :
    List TombstoneAction :=
  if node.effectiveColumns = [] then []
  else (db.select node.table node.fkCol subjectId).map (node.action env)

def TableNode.result (node : TableNode) (dryRun : Bool) (plan : List TombstoneAction) :
    TableTombstoneResult :=
  ⟨node.table, if dryRun then 0 else plan.length, plan⟩

/-- The loop over the graph, as a function on what the client sees. -/
def Database.walk (env : Env) (subjectId : String) (dryRun : Bool) :
    List TableNode → Database → Except String (Database × List TableTombstoneResult)
  | [], db => .ok (db, [])
  | node :: nodes, db => do
    let next ← db.tombstone env node subjectId dryRun
    let (last, results) ← walk env subjectId dryRun nodes next
    return (last, node.result dryRun (db.plan env node subjectId) :: results)

/-- A live walk, node by node over the tables at its start. -/
structure Walked (env : Env) (subjectId : String) (graph : List TableNode) (db db' : Database)
    (results : List TableTombstoneResult) : Prop where
  erased : ∀ node ∈ graph,
    db'.tables node.table = (db.tables node.table).map (node.eraseRow env subjectId)
  kept : ∀ table, (∀ node ∈ graph, node.table ≠ table) → db'.tables table = db.tables table
  events : db'.events = db.events
  primaryKey : db'.primaryKey = db.primaryKey
  unique : ∀ node ∈ graph, UniqueKeys node db'
  setOnce : ∀ node ∈ graph, ∀ row ∈ db.tables node.table, row node.fkCol = some subjectId →
    ((node.sets env row).map Prod.fst).Nodup
  results : results = graph.map fun node => node.result false (db.plan env node subjectId)

section

variable {env : Env} {node : TableNode} {db db' : Database} {graph : List TableNode}
  {subjectId : String} {results : List TableTombstoneResult}

theorem walk_cons {dryRun : Bool}
    (h : db.walk env subjectId dryRun (node :: graph) = .ok (db', results)) :
    ∃ next results', db.tombstone env node subjectId dryRun = .ok next ∧
      next.walk env subjectId dryRun graph = .ok (db', results') ∧
      results = node.result dryRun (db.plan env node subjectId) :: results' := by
  obtain ⟨next, hnext, h⟩ := Result.bind_eq_ok.mp h
  obtain ⟨⟨last, results'⟩, hwalk, h⟩ := Result.bind_eq_ok.mp h
  cases h
  exact ⟨next, results', hnext, hwalk, rfl⟩

theorem UniqueKeys.congr {next : Database} (hunique : UniqueKeys node db)
    (hkey : next.primaryKey = db.primaryKey)
    (h : next.tables node.table = db.tables node.table) : UniqueKeys node next := by
  obtain ⟨hprimary, hnodup, hnull⟩ := hunique
  rw [← hkey] at hprimary
  rw [← h] at hnodup hnull
  exact ⟨hprimary, hnodup, hnull⟩

theorem walk_ok (hunique : ∀ node ∈ graph, UniqueKeys node db)
    (htables : (graph.map TableNode.table).Nodup)
    (hok : db.walk env subjectId false graph = .ok (db', results)) :
    Walked env subjectId graph db db' results := by
  induction graph generalizing db results with
  | nil =>
    cases hok
    exact ⟨forall_mem_nil _, fun _ _ => rfl, rfl, rfl, forall_mem_nil _, forall_mem_nil _, rfl⟩
  | cons node graph ih =>
    obtain ⟨next, results', hnext, hwalk, rfl⟩ := walk_cons hok
    obtain ⟨rfl, hnextUnique, hsetOnce⟩ := tombstone_ok (hunique node mem_cons_self) hnext
    rw [map_cons, nodup_cons] at htables
    have hne : ∀ node' ∈ graph, node.table ≠ node'.table := fun node' hnode' heq =>
      htables.1 (heq ▸ mem_map_of_mem hnode')
    have hsame : ∀ node' ∈ graph, Database.tables (db.withRows node.table
        ((db.tables node.table).map (node.eraseRow env subjectId))) node'.table
          = db.tables node'.table := fun node' hnode' =>
      update_of_ne (Ne.symm (hne node' hnode')) ..
    have hlater : ∀ node' ∈ graph, UniqueKeys node' (db.withRows node.table
        ((db.tables node.table).map (node.eraseRow env subjectId))) := fun node' hnode' =>
      (hunique node' (mem_cons_of_mem _ hnode')).congr rfl (hsame node' hnode')
    have hrest := ih hlater htables.2 hwalk
    have hown : db'.tables node.table
        = (db.tables node.table).map (node.eraseRow env subjectId) := by
      rw [hrest.kept node.table fun node' hnode' => (hne node' hnode').symm]
      exact tables_withRows
    refine ⟨forall_mem_cons.mpr ⟨hown, fun node' hnode' => ?_⟩, fun table htable => ?_,
      hrest.events, hrest.primaryKey, forall_mem_cons.mpr ⟨?_, hrest.unique⟩,
      forall_mem_cons.mpr ⟨hsetOnce, fun node' hnode' => ?_⟩, ?_⟩
    · rw [hrest.erased node' hnode', hsame node' hnode']
    · obtain ⟨hnode, hgraph⟩ := forall_mem_cons.mp htable
      rw [hrest.kept table hgraph]
      exact update_of_ne (Ne.symm hnode) ..
    · exact hnextUnique.congr hrest.primaryKey (hown.trans tables_withRows.symm)
    · rw [← hsame node' hnode']
      exact hrest.setOnce node' hnode'
    · rw [hrest.results, map_cons]
      refine congrArg _ (map_congr_left fun node' hnode' => ?_)
      -- a node sees its own table only
      simp only [Database.plan, Database.select, hsame node' hnode']

/-- The walk writes no receipt. -/
theorem tombstoneRows_events (rows : List Row) {db : Database}
    (h : db.tombstoneRows env node rows = .ok db') : db'.events = db.events := by
  induction rows generalizing db with
  | nil =>
    cases h
    rfl
  | cons row rows ih =>
    obtain ⟨next, hnext, h⟩ := Result.bind_eq_ok.mp (tombstoneRows_cons.symm.trans h)
    rw [ih h, (update_ok hnext).1]
    rfl

theorem walk_events {dryRun : Bool} (h : db.walk env subjectId dryRun graph = .ok (db', results)) :
    db'.events = db.events := by
  induction graph generalizing db results with
  | nil =>
    cases h
    rfl
  | cons node graph ih =>
    obtain ⟨next, results', hnext, hwalk, -⟩ := walk_cons h
    rw [ih hwalk]
    unfold Database.tombstone at hnext
    split at hnext
    · cases hnext
      rfl
    · exact tombstoneRows_events _ hnext

/-- A dry walk changes nothing and cannot fail. -/
theorem walk_dry (graph : List TableNode) (db : Database) :
    db.walk env subjectId true graph
      = .ok (db, graph.map fun node => node.result true (db.plan env node subjectId)) := by
  induction graph with
  | nil => rfl
  | cons node graph ih =>
    unfold Database.walk Database.tombstone
    show (db.walk env subjectId true graph >>= _) = _
    rw [ih]
    rfl

theorem length_plan (env : Env) (node : TableNode) (subjectId : String) (db : Database) :
    (db.plan env node subjectId).length = if node.effectiveColumns = [] then 0
      else (db.tables node.table).countP fun row => row node.fkCol = some subjectId := by
  unfold Database.plan Database.select
  split
  · rfl
  · rw [length_map, countP_eq_length_filter]

theorem tablesAffected_cons (dryRun : Bool) (node : TableNode) (plan : List TombstoneAction)
    (results : List TableTombstoneResult) :
    tablesAffected dryRun (node.result dryRun plan :: results)
      = (if plan.length > 0 then [⟨node.table, plan.length⟩] else [])
        ++ tablesAffected dryRun results := by
  unfold tablesAffected TableNode.result
  rw [filter_cons]
  by_cases hplan : plan.length > 0
  · rw [if_pos hplan, if_pos (by exact decide_eq_true (.inl hplan)), map_cons]
    cases dryRun <;> rfl
  · have hskipped : ¬ (plan.length > 0 ∨ (if dryRun then 0 else plan.length) > 0) := by
      cases dryRun with
      | false => exact fun h => h.elim hplan hplan
      | true => exact fun h => h.elim hplan (Nat.lt_irrefl 0)
    rw [if_neg hplan, if_neg (by exact fun h => hskipped (of_decide_eq_true h))]
    rfl

/-- Plans of the same lengths have the same summary, carried out or not. -/
theorem tablesAffected_congr {dryRun dryRun' : Bool}
    {plan plan' : TableNode → List TombstoneAction}
    (h : ∀ node, (plan node).length = (plan' node).length) (graph : List TableNode) :
    tablesAffected dryRun (graph.map fun node => node.result dryRun (plan node))
      = tablesAffected dryRun' (graph.map fun node => node.result dryRun' (plan' node)) := by
  induction graph with
  | nil => rfl
  | cons node graph ih =>
    rw [map_cons, map_cons, tablesAffected_cons, tablesAffected_cons, ih, h node]

end

/-! ## Counts -/

/-- What a summary says about a table. -/
def countOf : List TableErasureSummary → String → Nat
  | [], _ => 0
  | t :: tables, table => (if t.table = table then t.rowsAffected else 0) + countOf tables table

open Classical in
/-- How many rows differ. -/
noncomputable def changedRows : List Row → List Row → Nat
  | row :: before, row' :: after => (if row' = row then 0 else 1) + changedRows before after
  | _, _ => 0

section

variable {env : Env} {db db' : Database} {graph : List TableNode} {subjectId : String}
  {plan : TableNode → List TombstoneAction}
  {results : List TableTombstoneResult}

theorem countOf_tablesAffected_cons (node : TableNode) (plan : List TombstoneAction)
    (results : List TableTombstoneResult) (table : String) :
    countOf (tablesAffected false (node.result false plan :: results)) table
      = (if node.table = table then plan.length else 0)
        + countOf (tablesAffected false results) table := by
  rw [tablesAffected_cons]
  by_cases hplan : plan.length > 0
  · rw [if_pos hplan]
    rfl
  · rw [if_neg hplan, Nat.eq_zero_of_not_pos hplan, ite_self, Nat.zero_add]
    rfl

theorem countOf_of_not_mem {table : String} (h : ∀ node ∈ graph, node.table ≠ table) :
    countOf (tablesAffected false (graph.map fun node => node.result false (plan node))) table
      = 0 := by
  induction graph with
  | nil => rfl
  | cons node graph ih =>
    obtain ⟨hnode, hgraph⟩ := forall_mem_cons.mp h
    rw [map_cons, countOf_tablesAffected_cons, if_neg hnode, ih hgraph]

theorem countOf_of_mem {node : TableNode}
    (htables : (graph.map TableNode.table).Nodup) (hnode : node ∈ graph) :
    countOf (tablesAffected false (graph.map fun node => node.result false (plan node))) node.table
      = (plan node).length := by
  induction graph with
  | nil => exact absurd hnode not_mem_nil
  | cons first graph ih =>
    rw [map_cons, nodup_cons] at htables
    have hne : ∀ node' ∈ graph, node'.table ≠ first.table := fun node' hnode' heq =>
      htables.1 (heq ▸ mem_map_of_mem hnode')
    rw [map_cons, countOf_tablesAffected_cons]
    rcases mem_cons.mp hnode with rfl | hnode
    · rw [if_pos rfl, countOf_of_not_mem hne, Nat.add_zero]
    · rw [if_neg (hne node hnode).symm, ih htables.2 hnode, Nat.zero_add]

open Classical in
theorem changedRows_map (f : Row → Row) (rows : List Row) :
    changedRows rows (rows.map f) = rows.countP fun row => f row ≠ row := by
  induction rows with
  | nil => rfl
  | cons row rows ih =>
    rw [map_cons, changedRows, ih, countP_cons, Nat.add_comm]
    by_cases heq : f row = row
    · simp [heq]
    · simp [heq]

theorem changedRows_self (rows : List Row) : changedRows rows rows = 0 := by
  have hmap := changedRows_map id rows
  rw [map_id] at hmap
  rw [hmap]
  exact countP_eq_zero.mpr fun row _ => by simp

/-- The counts of two conditions agree where the weaker implies the
stronger. -/
theorem countP_eq_iff {rows : List Row} {p q : Row → Bool} (h : ∀ row, q row = true → p row = true) :
    rows.countP p = rows.countP q ↔ ∀ row ∈ rows, p row = true → q row = true := by
  constructor
  · intro heq
    have hsub : (rows.filter q).Sublist (rows.filter p) := monotone_filter_right rows h
    have hfilter : rows.filter q = rows.filter p := hsub.eq_of_length <| by
      rw [← countP_eq_length_filter, ← countP_eq_length_filter, heq]
    intro row hrow hp
    have hmem : row ∈ rows.filter q := hfilter ▸ mem_filter.mpr ⟨hrow, hp⟩
    exact (mem_filter.mp hmem).2
  · intro hall
    exact countP_congr fun row hrow => ⟨hall row hrow, h row⟩

/-- The summary of a walk counts the rows that changed exactly if none of
the rows it went over was a tombstone already. -/
theorem Walked.counts_iff (h : Walked env subjectId graph db db' results)
    (htables : (graph.map TableNode.table).Nodup) :
    (∀ table, countOf (tablesAffected false results) table
        = changedRows (db.tables table) (db'.tables table)) ↔
      ∀ node ∈ graph, node.effectiveColumns ≠ [] → ∀ row ∈ db.tables node.table,
        row node.fkCol = some subjectId → ∃ c ∈ node.effectiveColumns, row c.name ≠ none := by
  classical
  have hchanged : ∀ node ∈ graph, changedRows (db.tables node.table) (db'.tables node.table)
      = (db.tables node.table).countP fun row => node.eraseRow env subjectId row ≠ row := by
    intro node hnode
    rw [h.erased node hnode, changedRows_map]
  have hweaker : ∀ node : TableNode, ∀ row : Row,
      decide (node.eraseRow env subjectId row ≠ row) = true →
        decide (row node.fkCol = some subjectId) = true := by
    intro node row hne
    by_contra hother
    exact of_decide_eq_true hne (if_neg fun h => hother (decide_eq_true h))
  rw [h.results]
  constructor
  · intro hcounts node hnode hcolumns row hrow hsubject
    have hcount := hcounts node.table
    rw [countOf_of_mem htables hnode, length_plan, if_neg hcolumns, hchanged node hnode,
      countP_eq_iff (hweaker node)] at hcount
    have hne := of_decide_eq_true (hcount row hrow (decide_eq_true hsubject))
    rw [TableNode.eraseRow, if_pos hsubject] at hne
    exact (tombstone_ne_iff (h.setOnce node hnode row hrow hsubject)).mp hne
  · intro hall table
    by_cases hmem : ∃ node ∈ graph, node.table = table
    · obtain ⟨node, hnode, rfl⟩ := hmem
      rw [countOf_of_mem htables hnode, length_plan, hchanged node hnode]
      split
      next hnil =>
        exact (countP_eq_zero.mpr fun row _ => by
          simp [eraseRow_eq_self hnil]).symm
      next hcolumns =>
        refine (countP_eq_iff (hweaker node)).mpr fun row hrow hsubject => decide_eq_true ?_
        have hsubject := of_decide_eq_true hsubject
        rw [TableNode.eraseRow, if_pos hsubject]
        exact (tombstone_ne_iff (h.setOnce node hnode row hrow hsubject)).mpr
          (hall node hnode hcolumns row hrow hsubject)
    · have hother : ∀ node ∈ graph, node.table ≠ table := fun node hnode heq =>
        hmem ⟨node, hnode, heq⟩
      rw [countOf_of_not_mem hother, h.kept table hother, changedRows_self]

end

end ChronoPay.GdprErasure
