import Mathlib.Data.List.Nodup
import ChronoPay.Lib.Fallible
import ChronoPay.Lib.KeyedList

/-!
# GdprErasure — the erasure of a data subject

`erase` walks the tables of the dependency graph. In each it selects the
rows of the subject and sends one UPDATE per row, built column by column:
the PII columns become NULL, and a column with `storeHash` leaves its
SHA-256 in the sibling column `hash_…`. The UPDATEs and the receipt are in
one transaction. A dry run sends the SELECTs only, and its receipt is
written outside of any transaction.

Every call of the run has an answer from outside: it may be carried out,
refused, or carried out with its answer lost on the way. All of them but
the first three are inside one `try`, the COMMIT and the audit entry
behind it included.

A client from the pool has no open transaction. Other connections do not
write while the run is under way.
-/

namespace ChronoPay.GdprErasure

/-! ## The database -/

/-- A row by its columns. A cell is NULL or a value, given by its text. -/
abbrev Row := String → Option String

abbrev Tables := String → List Row

structure TableErasureSummary where
  table : String
  rowsAffected : Nat
  deriving DecidableEq

structure ErasureReceipt where
  receiptId : String
  subjectId : String
  erasedAt : String
  tablesAffected : List TableErasureSummary
  totalRowsAffected : Nat
  dryRun : Bool
  requestedBy : String
  deriving DecidableEq

structure Database where
  tables : Tables
  /-- The column that is the primary key of a table. -/
  primaryKey : String → String
  /-- `gdpr_erasure_events`. -/
  events : List ErasureReceipt := []

/-- The row with columns set. -/
def assign (sets : List (String × Option String)) (row : Row) : Row := fun column =>
  match KeyedList.get Prod.fst column sets with
  | some set => set.2
  | none => row column

/-- `UPDATE table SET … WHERE pkCol = …` with its parameters `$1`, `$2`, …;
a column is set to NULL or to a parameter. -/
structure UpdateStatement where
  table : String
  setParts : List (String × Option Nat)
  pkCol : String
  paramIdx : Nat
  params : List String

namespace UpdateStatement

def param (u : UpdateStatement) (n : Nat) : Option String := u.params[n - 1]?

/-- The parameters it mentions. -/
def placeholders (u : UpdateStatement) : List Nat := u.setParts.filterMap Prod.snd ++ [u.paramIdx]

def sets (u : UpdateStatement) : List (String × Option String) :=
  u.setParts.map fun part => (part.1, part.2.bind u.param)

end UpdateStatement

namespace Database

/-- `SELECT … FROM table WHERE column = $1`. Of the rows only the selected
columns are read. -/
def select (db : Database) (table column value : String) : List Row :=
  (db.tables table).filter fun row => row column = some value

def keysOf (db : Database) (table : String) : List (Option String) :=
  (db.tables table).map fun row => row (db.primaryKey table)

def withRows (db : Database) (table : String) (rows : List Row) : Database :=
  { db with tables := Function.update db.tables table rows }

/-- Every parameter has to be there, no column is set twice, and the
primary key stays unique. -/
def update (db : Database) (u : UpdateStatement) : Except String Database :=
  let updated := db.withRows u.table ((db.tables u.table).map fun row =>
    if row u.pkCol = u.param u.paramIdx then assign u.sets row else row)
  if ¬ ∀ n ∈ u.placeholders, (u.param n).isSome then
    .error "bind message supplies too few parameters"
  else if ¬ (u.setParts.map Prod.fst).Nodup then
    .error "multiple assignments to same column"
  else if ¬ (updated.keysOf u.table).Nodup then
    .error "duplicate key value violates unique constraint"
  else .ok updated

/-- `receipt_id` is unique. -/
def insert (db : Database) (receipt : ErasureReceipt) : Except String Database :=
  if receipt.receiptId ∈ db.events.map ErasureReceipt.receiptId then
    .error "duplicate key value violates unique constraint"
  else .ok { db with events := db.events ++ [receipt] }

end Database

/-! ## Calls -/

inductive AuditContext where
  | requested (subjectId requestedBy : String) (dryRun : Bool)
  | blocked (subjectId requestedBy : String)
  | completed (receiptId subjectId requestedBy : String) (dryRun : Bool)
      (tablesAffected totalRowsAffected : Nat)
  | failed (subjectId requestedBy : String) (dryRun : Bool) (error : String)
  deriving DecidableEq

inductive Call where
  | log (action : String) (context : AuditContext) (status : Nat)
  | isHeld (subjectId : String)
  | connect
  | begin
  | select (table : String)
  | update (table rowId : String)
  | writeReceipt (receiptId : String)
  | commit
  | rollback
  deriving DecidableEq

/-- The call is carried out; it rejects and nothing has happened; or it is
carried out and rejects all the same, as when the connection is lost
before the answer is there. -/
inductive Answer where
  | ok
  | refused (error : String)
  | lost (error : String)
  deriving DecidableEq

structure Run where
  /-- What is committed. -/
  db : Database
  /-- What the open transaction of the client sees. -/
  tx : Option Database := none
  calls : List (Call × Answer) := []

namespace Run

def seen (s : Run) : Database := s.tx.getD s.db

/-- A statement outside of a transaction is committed at once. -/
def write (s : Run) (db : Database) : Run :=
  match s.tx with
  | some _ => { s with tx := some db }
  | none => { s with db := db }

def begin (s : Run) : Run := { s with tx := some s.seen }

def commit (s : Run) : Run := { s with db := s.seen, tx := none }

def rollback (s : Run) : Run := { s with tx := none }

def noting (s : Run) (c : Call) (answer : Answer) : Run :=
  { s with calls := s.calls ++ [(c, answer)] }

end Run

/-- A client from the pool. -/
def opened (db : Database) : Run := { db := db }

inductive Failure where
  | legalHoldViolation (subjectId : String)
  | error (message : String)
  deriving DecidableEq

def Failure.message : Failure → String
  | .legalHoldViolation subjectId =>
    "Erasure blocked: subject " ++ subjectId ++ " is under a legal hold."
  | .error message => message

abbrev Erasure := Fallible Failure Run

structure PiiColumn where
  name : String
  storeHash : Bool
  deriving DecidableEq

structure TableNode where
  table : String
  pkCol : String
  fkCol : String
  piiColumns : List PiiColumn
  dependsOn : List String := []
  deriving DecidableEq

/-- What comes from outside. -/
structure Env where
  /-- The hex digest of a text in UTF-8. -/
  sha256 : String → String
  held : Bool := false
  /-- With the message where it throws. -/
  getGraph : Except String (List TableNode)
  /-- The answer to the call with this number. -/
  answer : Nat → Answer := fun _ => .ok
  receiptId : String
  erasedAt : String

namespace Env

variable {α : Type}

/-- A call that is carried out by `effect`, if the other side accepts it. -/
def answered (env : Env) (c : Call) (effect : Run → Except String (α × Run)) (s : Run) :
    Except Failure α × Run :=
  let answer := env.answer s.calls.length
  let s := s.noting c answer
  match answer, effect s with
  | .refused error, _ => (.error (.error error), s)
  | _, .error error => (.error (.error error), s)
  | .ok, .ok (a, s') => (.ok a, s')
  | .lost error, .ok (_, s') => (.error (.error error), s')

def call (env : Env) (c : Call) (effect : Run → Except String (α × Run)) : Erasure α :=
  Fallible.ofFun (env.answered c effect)

/-- A call that leaves the database as it is. -/
def ask (env : Env) (c : Call) (read : Run → α) : Erasure α := env.call c fun s => .ok (read s, s)

/-- A statement that changes what the client sees. -/
def execute (env : Env) (c : Call) (statement : Database → Except String Database) : Erasure Unit :=
  env.call c fun s => (statement s.seen).map fun db => ((), s.write db)

/-- BEGIN, COMMIT or ROLLBACK. -/
def control (env : Env) (c : Call) (f : Run → Run) : Erasure Unit :=
  env.call c fun s => .ok ((), f s)

def log (env : Env) (action : String) (context : AuditContext) (status : Nat) : Erasure Unit :=
  env.ask (.log action context status) fun _ => ()

def graph (env : Env) : Erasure (List TableNode) :=
  Fallible.ofFun fun s => (env.getGraph.mapError Failure.error, s)

end Env

/-- `if (!dryRun) await …`. -/
def whenLive (dryRun : Bool) (x : Erasure Unit) : Erasure Unit := if dryRun then pure () else x

/-! ## Tombstones -/

structure TombstoneAction where
  table : String
  rowId : String
  nulledColumns : List String
  hashedColumns : List String
  deriving DecidableEq

structure TableTombstoneResult where
  table : String
  rowsAffected : Nat
  actions : List TombstoneAction
  deriving DecidableEq

/-- NULL is hashed like the empty text. -/
def Env.sha256Hex (env : Env) (value : Option String) : String := env.sha256 (value.getD "")

def hashColumn (name : String) : String := "hash_" ++ name

def TableNode.effectiveColumns (node : TableNode) : List PiiColumn :=
  node.piiColumns.filter fun c => c.name ≠ node.pkCol ∧ c.name ≠ node.fkCol

/-- The SET clause as far as it is built. -/
structure SetClause where
  setParts : List (String × Option Nat) := []
  params : List String := []
  paramIdx : Nat := 1
  nulledColumns : List String := []
  hashedColumns : List String := []
  deriving DecidableEq

def SetClause.add (env : Env) (row : Row) (clause : SetClause) (piiCol : PiiColumn) : SetClause :=
  let originalValue := row piiCol.name
  let nulled := { clause with
    setParts := clause.setParts ++ [(piiCol.name, none)]
    nulledColumns := clause.nulledColumns ++ [piiCol.name] }
  if piiCol.storeHash ∧ originalValue.isSome then
    { nulled with
      setParts := nulled.setParts ++ [(hashColumn piiCol.name, some nulled.paramIdx)]
      params := nulled.params ++ [env.sha256Hex originalValue]
      paramIdx := nulled.paramIdx + 1
      hashedColumns := nulled.hashedColumns ++ [hashColumn piiCol.name] }
  else nulled

def TableNode.setClause (node : TableNode) (env : Env) (row : Row) : SetClause :=
  node.effectiveColumns.foldl (SetClause.add env row) {}

/-- `String(row[pkCol])`. -/
def TableNode.rowId (node : TableNode) (row : Row) : String := (row node.pkCol).getD "null"

def TableNode.updateStatement (node : TableNode) (env : Env) (row : Row) : UpdateStatement :=
  let clause := node.setClause env row
  { table := node.table
    setParts := clause.setParts
    pkCol := node.pkCol
    paramIdx := clause.paramIdx
    params := clause.params ++ [node.rowId row] }

def TableNode.action (node : TableNode) (env : Env) (row : Row) : TombstoneAction :=
  let clause := node.setClause env row
  ⟨node.table, node.rowId row, clause.nulledColumns, clause.hashedColumns⟩

/-- The loop over the selected rows. -/
def tombstoneRows (env : Env) (node : TableNode) (dryRun : Bool) :
    List Row → Erasure (List TombstoneAction)
  | [] => pure []
  | row :: rows => do
    whenLive dryRun <| env.execute (.update node.table (node.rowId row)) fun db =>
      db.update (node.updateStatement env row)
    let actions ← tombstoneRows env node dryRun rows
    return node.action env row :: actions

def tombstoneTable (env : Env) (node : TableNode) (subjectId : String) (dryRun : Bool) :
    Erasure TableTombstoneResult :=
  if node.effectiveColumns = [] then
    return ⟨node.table, 0, []⟩
  else do
    let rows ← env.ask (.select node.table) fun s => s.seen.select node.table node.fkCol subjectId
    if rows.isEmpty then
      return ⟨node.table, 0, []⟩
    else
      let actions ← tombstoneRows env node dryRun rows
      return ⟨node.table, if dryRun then 0 else rows.length, actions⟩

/-! ## Erasure -/

structure ErasureRequest where
  subjectId : String
  requestedBy : String
  dryRun : Bool
  deriving DecidableEq

structure ErasureResult where
  receipt : ErasureReceipt
  tableResults : List TableTombstoneResult
  deriving DecidableEq

/-- The loop over the graph. -/
def tombstoneGraph (env : Env) (subjectId : String) (dryRun : Bool) :
    List TableNode → Erasure (List TableTombstoneResult)
  | [] => pure []
  | node :: nodes => do
    let result ← tombstoneTable env node subjectId dryRun
    let results ← tombstoneGraph env subjectId dryRun nodes
    return result :: results

def tablesAffected (dryRun : Bool) (results : List TableTombstoneResult) :
    List TableErasureSummary :=
  (results.filter fun r => r.actions.length > 0 ∨ r.rowsAffected > 0).map fun r =>
    ⟨r.table, if dryRun then r.actions.length else r.rowsAffected⟩

def Env.receipt (env : Env) (request : ErasureRequest) (results : List TableTombstoneResult) :
    ErasureReceipt :=
  let tables := tablesAffected request.dryRun results
  { receiptId := env.receiptId
    subjectId := request.subjectId
    erasedAt := env.erasedAt
    tablesAffected := tables
    totalRowsAffected := tables.foldl (fun sum t => sum + t.rowsAffected) 0
    dryRun := request.dryRun
    requestedBy := request.requestedBy }

def Env.logCompleted (env : Env) (receipt : ErasureReceipt) : Erasure Unit :=
  env.log "gdpr.erasure.completed"
    (.completed receipt.receiptId receipt.subjectId receipt.requestedBy receipt.dryRun
      receipt.tablesAffected.length receipt.totalRowsAffected) 200

/-- The body of the `try`. -/
def eraseSubject (env : Env) (request : ErasureRequest) : Erasure ErasureResult := do
  whenLive request.dryRun <| env.control .begin Run.begin
  let graph ← env.graph
  let tableResults ← tombstoneGraph env request.subjectId request.dryRun graph
  let receipt := env.receipt request tableResults
  env.execute (.writeReceipt receipt.receiptId) fun db => db.insert receipt
  whenLive request.dryRun <| env.control .commit Run.commit
  env.logCompleted receipt
  return ⟨receipt, tableResults⟩

/-- The `catch`: the error of the ROLLBACK is swallowed, that of the audit
log takes the place of the first one. -/
def onError (env : Env) (request : ErasureRequest) (error : Failure) : Erasure ErasureResult := do
  whenLive request.dryRun <| tryCatch (env.control .rollback Run.rollback) fun _ => pure ()
  env.log "gdpr.erasure.failed"
    (.failed request.subjectId request.requestedBy request.dryRun error.message) 500
  throw error

def erase (env : Env) (request : ErasureRequest) : Erasure ErasureResult := do
  env.log "gdpr.erasure.requested"
    (.requested request.subjectId request.requestedBy request.dryRun) 202
  let held ← env.ask (.isHeld request.subjectId) fun _ => env.held
  if held then
    env.log "gdpr.erasure.blocked.legalhold"
      (.blocked request.subjectId request.requestedBy) 409
    throw (.legalHoldViolation request.subjectId)
  else
    env.ask .connect fun _ => ()
    tryCatch (eraseSubject env request) (onError env request)

end ChronoPay.GdprErasure
