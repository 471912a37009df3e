import ChronoPay.GdprTombstones

/-!
# GdprErasureSafety — what a rejected and a resolved erasure leave behind

However the calls of a run are answered, what is committed at its end is
what was there before, or the walk over the graph with the receipt on top
(`erase_triple`). Which of the two does not depend on whether the run
rejects: the COMMIT and the audit entry behind it are inside the `try`, so
a run whose COMMIT was carried out may reject, and its ROLLBACK comes too
late.
-/

namespace ChronoPay.GdprErasure

open Fallible List

/-! ## Calls -/

def Answer.carriedOut : Answer → Bool
  | .refused _ => false
  | _ => true

/-- The COMMIT has taken effect. -/
def Run.Committed (s : Run) : Prop :=
  ∃ entry ∈ s.calls, entry.1 = .commit ∧ entry.2.carriedOut = true

instance (s : Run) : Decidable s.Committed := by
  unfold Run.Committed
  infer_instance

section

variable {α : Type} {env : Env} {P E : Run → Prop} {Q : α → Run → Prop} {c : Call}

theorem committed_noting {s : Run} {answer : Answer} :
    (s.noting c answer).Committed ↔ s.Committed ∨ c = .commit ∧ answer.carriedOut = true := by
  unfold Run.Committed Run.noting
  simp only [mem_append, mem_singleton]
  constructor
  · rintro ⟨entry, hentry | rfl, h⟩
    · exact .inl ⟨entry, hentry, h⟩
    · exact .inr h
  · rintro (⟨entry, hentry, h⟩ | h)
    · exact ⟨entry, .inl hentry, h⟩
    · exact ⟨_, .inr rfl, h⟩

/-- A call that is carried out does the same whether its answer arrives or
is lost. -/
theorem call_triple {effect : Run → Except String (α × Run)}
    (hdone : ∀ s answer a s', answer.carriedOut = true → P s →
      effect (s.noting c answer) = .ok (a, s') → Q a s')
    (hlost : ∀ a s, Q a s → E s)
    (hrefused : ∀ s answer error, P s →
      (answer.carriedOut = true → effect (s.noting c answer) = .error error) →
      E (s.noting c answer)) :
    Triple P (env.call c effect) Q (fun _ => E) := by
  intro s hs
  have hcall : outcome (env.call c effect) s = env.answered c effect s := rfl
  rw [hcall]
  unfold Env.answered
  dsimp only
  cases hanswer : env.answer s.calls.length with
  | refused error => exact hrefused s _ error hs nofun
  | ok =>
    cases heffect : effect (s.noting c .ok) with
    | error error => exact hrefused s _ error hs fun _ => heffect
    | ok r => exact hdone s _ r.1 r.2 rfl hs heffect
  | lost error =>
    cases heffect : effect (s.noting c (.lost error)) with
    | error error' => exact hrefused s _ error' hs fun _ => heffect
    | ok r => exact hlost r.1 r.2 (hdone s _ r.1 r.2 rfl hs heffect)

/-- A call that does not touch the database keeps what does not depend on
the calls made. -/
theorem ask_triple {read : Run → α} {R : α → Prop}
    (hP : ∀ s answer, P s → P (s.noting c answer)) (hread : ∀ s, P s → R (read s))
    (hE : ∀ s, P s → E s) :
    Triple P (env.ask c read) (fun a s => R a ∧ P s) (fun _ => E) := by
  refine call_triple (fun s answer a s' _ hs h => ?_) (fun _ s hs => hE s hs.2)
    fun s answer _ hs _ => hE _ (hP s answer hs)
  cases h
  exact ⟨hread _ (hP s answer hs), hP s answer hs⟩

theorem control_triple {Q : Run → Prop} {f : Run → Run}
    (hdone : ∀ s answer, answer.carriedOut = true → P s → Q (f (s.noting c answer)))
    (hlost : ∀ s, Q s → E s)
    (hrefused : ∀ s answer, answer.carriedOut = false → P s → E (s.noting c answer)) :
    Triple P (env.control c f) (fun _ => Q) (fun _ => E) := by
  refine call_triple (fun s answer _ s' hanswer hs h => ?_) (fun _ => hlost)
    fun s answer error hs herror => hrefused s answer ?_ hs
  · cases h
    exact hdone s answer hanswer hs
  · exact Bool.eq_false_iff.mpr fun hanswer => absurd (herror hanswer) nofun

theorem statement_triple {Q : Run → Prop} {statement : Database → Except String Database}
    (hdone : ∀ s answer d, P s → statement (s.noting c answer).seen = .ok d →
      Q ((s.noting c answer).write d))
    (hlost : ∀ s, Q s → E s) (hrefused : ∀ s answer, P s → E (s.noting c answer)) :
    Triple P (env.execute c statement) (fun _ => Q) (fun _ => E) := by
  refine call_triple (fun s answer _ s' _ hs h => ?_) (fun _ => hlost)
    fun s answer _ hs _ => hrefused s answer hs
  cases hd : statement (s.noting c answer).seen with
  | error e =>
    rw [hd] at h
    cases h
  | ok d =>
    rw [hd] at h
    cases h
    exact hdone s answer d hs hd

theorem log_triple {action : String} {context : AuditContext} {status : Nat}
    (hP : ∀ s c answer, c ≠ .commit → P s → P (s.noting c answer)) (hE : ∀ s, P s → E s) :
    Triple P (env.log action context status) (fun _ => P) (fun _ => E) := by
  have hask : Triple P (env.ask (.log action context status) fun _ => ()) (fun _ s => True ∧ P s)
      (fun _ => E) :=
    ask_triple (fun s answer => hP s _ answer nofun) (fun _ _ => trivial) hE
  exact hask.mono (fun _ h => h) (fun _ _ h => h.2) fun _ _ h => h

end

/-! ## The transaction -/

theorem whenLive_true (x : Erasure Unit) : whenLive true x = pure () := rfl

theorem whenLive_false (x : Erasure Unit) : whenLive false x = x := rfl

/-- The run has not touched what is committed; its client sees `d`. -/
structure Within (dryRun : Bool) (db d : Database) (s : Run) : Prop where
  base : s.db = db
  tx : s.tx = if dryRun then none else some d
  dry : dryRun = true → d = db
  uncommitted : ¬ s.Committed

def Untouched (db : Database) (s : Run) : Prop := s.db = db ∧ ¬ s.Committed

section

variable {env : Env} {dryRun : Bool} {db d d' : Database} {s : Run} {c : Call}

theorem Within.untouched (h : Within dryRun db d s) : Untouched db s := ⟨h.base, h.uncommitted⟩

theorem Within.noting (h : Within dryRun db d s) (hc : c ≠ .commit) (answer : Answer) :
    Within dryRun db d (s.noting c answer) :=
  ⟨h.base, h.tx, h.dry, fun hcommitted =>
    (committed_noting.mp hcommitted).elim h.uncommitted fun hcommit => hc hcommit.1⟩

theorem Within.seen (h : Within dryRun db d s) : s.seen = d := by
  unfold Run.seen
  rw [h.tx, h.base]
  cases hdry : dryRun with
  | false => rfl
  | true => exact (h.dry hdry).symm

theorem Within.write (h : Within false db d s) : Within false db d' (s.write d') := by
  have htx : s.tx = some d := h.tx
  unfold Run.write
  rw [htx]
  exact ⟨h.base, rfl, nofun, h.uncommitted⟩

/-- A statement of a live run stays in its transaction. -/
theorem execute_triple {statement : Database → Except String Database} (hc : c ≠ .commit) :
    Triple (Within false db d) (env.execute c statement)
      (fun _ s => ∃ d', statement d = .ok d' ∧ Within false db d' s)
      (fun _ => Untouched db) := by
  refine statement_triple (fun s answer d' hs hd' => ?_) (fun s hs => ?_)
    fun s answer hs => (hs.noting hc answer).untouched
  · rw [(hs.noting hc answer).seen] at hd'
    exact ⟨d', hd', (hs.noting hc answer).write⟩
  · obtain ⟨d', -, hs⟩ := hs
    exact hs.untouched

theorem tombstoneRows_triple (node : TableNode) (rows : List Row) (d : Database) :
    Triple (Within dryRun db d) (tombstoneRows env node dryRun rows)
      (fun actions s => actions = rows.map (node.action env) ∧ ∃ d',
        (if dryRun then .ok d else d.tombstoneRows env node rows) = .ok d' ∧ Within dryRun db d' s)
      (fun _ => Untouched db) := by
  induction rows generalizing d with
  | nil =>
    refine Triple.pure fun s hs => ⟨rfl, d, ?_, hs⟩
    split <;> rfl
  | cons row rows ih =>
    unfold tombstoneRows
    cases dryRun with
    | true =>
      refine Triple.bind (R := fun _ => Within true db d) (Triple.pure fun s hs => hs) fun _ => ?_
      exact Triple.bind (ih d) fun actions => Triple.pure fun s hs => ⟨congrArg _ hs.1, hs.2⟩
    | false =>
      rw [whenLive_false]
      refine Triple.bind (execute_triple (by nofun)) fun _ =>
        Triple.given_exists fun next => Triple.given fun hnext => ?_
      refine Triple.bind (ih next) fun actions => Triple.pure fun s hs => ?_
      obtain ⟨hactions, d', hd', hs⟩ := hs
      refine ⟨congrArg _ hactions, d', ?_, hs⟩
      rw [tombstoneRows_cons, hnext]
      exact hd'

theorem tombstoneTable_triple (node : TableNode) (subjectId : String) (d : Database) :
    Triple (Within dryRun db d) (tombstoneTable env node subjectId dryRun)
      (fun result s => result = node.result dryRun (d.plan env node subjectId) ∧ ∃ d',
        d.tombstone env node subjectId dryRun = .ok d' ∧ Within dryRun db d' s)
      (fun _ => Untouched db) := by
  unfold tombstoneTable Database.plan Database.tombstone
  by_cases hnil : node.effectiveColumns = []
  · rw [if_pos hnil, if_pos hnil, if_pos (.inr hnil)]
    refine Triple.pure fun s hs => ⟨?_, d, rfl, hs⟩
    unfold TableNode.result
    split <;> rfl
  · rw [if_neg hnil, if_neg hnil]
    have hstatements : (if dryRun then .ok d else d.tombstoneRows env node
          (d.select node.table node.fkCol subjectId))
        = if dryRun = true ∨ node.effectiveColumns = [] then .ok d else d.tombstoneRows env node
          (d.select node.table node.fkCol subjectId) :=
      if_congr ⟨.inl, fun h => h.resolve_right hnil⟩ rfl rfl
    rw [← hstatements]
    refine Triple.bind (ask_triple (R := (· = d.select node.table node.fkCol subjectId))
      (fun s answer hs => hs.noting (by nofun) answer) (fun s hs => by rw [hs.seen])
      fun s hs => hs.untouched) fun rows => Triple.given ?_
    rintro rfl
    refine Triple.ite (fun hempty => ?_) fun _ => ?_
    · rw [List.isEmpty_iff] at hempty
      rw [hempty]
      refine Triple.pure fun s hs => ⟨?_, d, ?_, hs⟩
      · unfold TableNode.result
        split <;> rfl
      · split <;> rfl
    · refine Triple.bind (tombstoneRows_triple node _ d) fun actions => Triple.given ?_
      rintro rfl
      refine Triple.pure fun s hs => ⟨?_, hs⟩
      unfold TableNode.result
      rw [length_map]

theorem tombstoneGraph_triple (subjectId : String) (graph : List TableNode) (d : Database) :
    Triple (Within dryRun db d) (tombstoneGraph env subjectId dryRun graph)
      (fun results s => ∃ d', d.walk env subjectId dryRun graph = .ok (d', results) ∧
        Within dryRun db d' s)
      (fun _ => Untouched db) := by
  induction graph generalizing d with
  | nil => exact Triple.pure fun s hs => ⟨d, rfl, hs⟩
  | cons node graph ih =>
    refine Triple.bind (tombstoneTable_triple node subjectId d) fun result => Triple.given ?_
    rintro rfl
    refine Triple.given_exists fun next => Triple.given fun hnext => ?_
    refine Triple.bind (ih next) fun results => Triple.pure fun s hs => ?_
    obtain ⟨d', hd', hs⟩ := hs
    refine ⟨d', ?_, hs⟩
    unfold Database.walk
    rw [hnext]
    show (next.walk env subjectId dryRun graph >>= _) = _
    rw [hd']
    rfl

end

/-! ## The run -/

/-- What is committed is the walk over the graph with the receipt on top. -/
structure Stored (env : Env) (request : ErasureRequest) (db : Database) (result : ErasureResult)
    (s : Run) : Prop where
  committed : s.Committed ↔ request.dryRun = false
  receipt : result.receipt = env.receipt request result.tableResults
  walked : ∃ graph d, env.getGraph = .ok graph ∧
    db.walk env request.subjectId request.dryRun graph = .ok (d, result.tableResults) ∧
    d.insert result.receipt = .ok s.db

/-- The two things a run can leave. -/
def Settled (env : Env) (request : ErasureRequest) (db : Database) (s : Run) : Prop :=
  Untouched db s ∨ ∃ result, Stored env request db result s

section

variable {env : Env} {request : ErasureRequest} {db d d' : Database} {result : ErasureResult}
  {s : Run}

/-- Nothing but a COMMIT and a write outside of a transaction changes what
a run leaves. -/
theorem Stored.congr {s' : Run} (h : Stored env request db result s) (hdb : s'.db = s.db)
    (hcommitted : s'.Committed ↔ s.Committed) : Stored env request db result s' := by
  obtain ⟨hiff, hreceipt, hwalked⟩ := h
  exact ⟨hcommitted.trans hiff, hreceipt, hdb ▸ hwalked⟩

theorem committed_noting_of_ne {c : Call} (hc : c ≠ .commit) (answer : Answer) :
    (s.noting c answer).Committed ↔ s.Committed :=
  committed_noting.trans ⟨fun h => h.resolve_right fun h => hc h.1, .inl⟩

theorem Stored.noting {c : Call} (h : Stored env request db result s) (hc : c ≠ .commit)
    (answer : Answer) : Stored env request db result (s.noting c answer) :=
  h.congr rfl (committed_noting_of_ne hc answer)

theorem Settled.congr {s' : Run} (h : Settled env request db s) (hdb : s'.db = s.db)
    (hcommitted : s'.Committed ↔ s.Committed) : Settled env request db s' := by
  rcases h with ⟨hsame, huncommitted⟩ | ⟨result, hstored⟩
  · exact .inl ⟨hdb.trans hsame, fun h => huncommitted (hcommitted.mp h)⟩
  · exact .inr ⟨result, hstored.congr hdb hcommitted⟩

theorem Settled.noting {c : Call} (h : Settled env request db s) (hc : c ≠ .commit)
    (answer : Answer) : Settled env request db (s.noting c answer) :=
  h.congr rfl (committed_noting_of_ne hc answer)

/-- A client that has just been connected. -/
def Fresh (db : Database) (s : Run) : Prop := s.db = db ∧ s.tx = none ∧ ¬ s.Committed

theorem Fresh.noting {c : Call} (h : Fresh db s) (hc : c ≠ .commit) (answer : Answer) :
    Fresh db (s.noting c answer) :=
  ⟨h.1, h.2.1, fun hcommitted => h.2.2 ((committed_noting_of_ne hc answer).mp hcommitted)⟩

theorem Fresh.settled (h : Fresh db s) : Settled env request db s := .inl ⟨h.1, h.2.2⟩

theorem begin_triple (dryRun : Bool) :
    Triple (Fresh db) (whenLive dryRun (env.control .begin Run.begin))
      (fun _ => Within dryRun db db) (fun _ => Untouched db) := by
  cases dryRun with
  | true => exact Triple.pure fun s hs => ⟨hs.1, hs.2.1, fun _ => rfl, hs.2.2⟩
  | false =>
    refine control_triple (fun s answer _ hs => ?_) (fun _ hs => hs.untouched)
      fun s answer _ hs => ?_
    · have hs := hs.noting (c := .begin) (by nofun) answer
      refine ⟨hs.1, ?_, nofun, hs.2.2⟩
      show some (Option.getD (s.noting .begin answer).tx (s.noting .begin answer).db) = some db
      rw [hs.2.1, hs.1]
      rfl
    · have hs := hs.noting (c := .begin) (by nofun) answer
      exact ⟨hs.1, hs.2.2⟩

/-- Where the receipt is written: in the transaction, or in the database
itself. -/
def Receipted (dryRun : Bool) (db d : Database) (s : Run) : Prop :=
  ¬ s.Committed ∧ if dryRun then s.db = d else s.db = db ∧ s.tx = some d

theorem writeReceipt_triple {receipt : ErasureReceipt} (dryRun : Bool) :
    Triple (Within dryRun db d)
      (env.execute (.writeReceipt receipt.receiptId) fun db => db.insert receipt)
      (fun _ s => ∃ d', d.insert receipt = .ok d' ∧ Receipted dryRun db d' s)
      (fun _ s => Untouched db s ∨
        dryRun = true ∧ ∃ d', d.insert receipt = .ok d' ∧ Receipted dryRun db d' s) := by
  cases dryRun with
  | false =>
    refine (execute_triple (by nofun)).mono (fun _ h => h) (fun _ s hs => ?_) fun _ _ => .inl
    obtain ⟨d', hd', hs⟩ := hs
    exact ⟨d', hd', hs.uncommitted, hs.base, hs.tx⟩
  | true =>
    refine statement_triple (fun s answer d' hs hd' => ?_) (fun _ hs => .inr ⟨rfl, hs⟩)
      fun s answer hs => .inl (hs.noting (by nofun) answer).untouched
    have hs := hs.noting (c := .writeReceipt receipt.receiptId) (by nofun) answer
    have htx : Run.tx (s.noting (.writeReceipt receipt.receiptId) answer) = none := hs.tx
    rw [hs.seen] at hd'
    unfold Run.write
    rw [htx]
    exact ⟨d', hd', hs.uncommitted, rfl⟩

/-- A COMMIT that is refused leaves the transaction to the ROLLBACK. -/
theorem commit_triple (hreceipt : result.receipt = env.receipt request result.tableResults)
    (hwalked : ∃ graph d, env.getGraph = .ok graph ∧
      db.walk env request.subjectId request.dryRun graph = .ok (d, result.tableResults) ∧
      d.insert result.receipt = .ok d') :
    Triple (Receipted request.dryRun db d')
      (whenLive request.dryRun (env.control .commit Run.commit))
      (fun _ => Stored env request db result) (fun _ => Settled env request db) := by
  cases hdry : request.dryRun with
  | true =>
    refine Triple.pure fun s hs => ?_
    have hdb : s.db = d' := hs.2
    exact ⟨⟨fun h => absurd h hs.1, fun h => absurd (hdry.symm.trans h) nofun⟩, hreceipt,
      hdb.symm ▸ hwalked⟩
  | false =>
    refine control_triple (fun s answer hanswer hs => ?_) (fun _ hs => .inr ⟨result, hs⟩)
      fun s answer hanswer hs => .inl ⟨hs.2.1, fun h => ?_⟩
    · have hdb : Run.db (s.noting .commit answer).commit = d' := by
        show Option.getD s.tx s.db = d'
        rw [hs.2.2]
        rfl
      exact ⟨⟨fun _ => hdry, fun _ => committed_noting.mpr (.inr ⟨rfl, hanswer⟩)⟩, hreceipt,
        hdb.symm ▸ hwalked⟩
    · rcases committed_noting.mp h with h | h
      · exact hs.1 h
      · exact absurd (hanswer.symm.trans h.2) nofun

theorem graph_triple {P : Run → Prop} :
    Triple P env.graph (fun graph s => env.getGraph = .ok graph ∧ P s) (fun _ => P) := by
  intro s hs
  have hgraph : outcome env.graph s = (env.getGraph.mapError Failure.error, s) := rfl
  rw [hgraph]
  cases hget : env.getGraph with
  | error message => exact hs
  | ok graph => exact ⟨rfl, hs⟩

theorem eraseSubject_triple :
    Triple (Fresh db) (eraseSubject env request) (Stored env request db)
      (fun _ => Settled env request db) := by
  refine Triple.bind ((begin_triple request.dryRun).mono (fun _ h => h) (fun _ _ h => h)
    fun _ _ => .inl) fun _ => ?_
  refine Triple.bind (graph_triple.mono (fun _ h => h) (fun _ _ h => h)
    fun _ _ h => .inl h.untouched) fun graph => Triple.given fun hgraph => ?_
  refine Triple.bind ((tombstoneGraph_triple request.subjectId graph db).mono (fun _ h => h)
    (fun _ _ h => h) fun _ _ => .inl) fun results => ?_
  refine Triple.given_exists fun d => Triple.given fun hwalk => ?_
  let result : ErasureResult := ⟨env.receipt request results, results⟩
  have hstored : ∀ d', d.insert result.receipt = .ok d' →
      Triple (Receipted request.dryRun db d')
        (whenLive request.dryRun (env.control .commit Run.commit))
        (fun _ => Stored env request db result) (fun _ => Settled env request db) :=
    fun d' hd' => commit_triple rfl ⟨graph, d, hgraph, hwalk, hd'⟩
  refine Triple.bind ((writeReceipt_triple request.dryRun).mono (fun _ h => h) (fun _ _ h => h)
    fun _ s hs => ?_) fun _ => Triple.given_exists fun d' => Triple.given fun hd' => ?_
  · rcases hs with huntouched | ⟨hdry, d', hd', hs⟩
    · exact .inl huntouched
    · -- a receipt of a dry run is there though its answer is lost
      have hnothing := hstored d' hd' s hs
      rw [hdry, whenLive_true] at hnothing
      exact .inr ⟨result, hnothing⟩
  refine Triple.bind (hstored d' hd') fun _ => ?_
  refine Triple.bind (log_triple (fun s c answer hc hs => hs.noting hc answer)
    fun s hs => .inr ⟨result, hs⟩) fun _ => Triple.pure fun s hs => hs

theorem rollback_triple :
    Triple (Settled env request db)
      (whenLive request.dryRun
        (tryCatch (env.control .rollback Run.rollback) fun _ => pure ()))
      (fun _ => Settled env request db) (fun _ => Settled env request db) := by
  cases request.dryRun with
  | true => exact Triple.pure fun s hs => hs
  | false =>
    refine Triple.tryCatch (R := fun _ => Settled env request db) ?_
      fun _ => Triple.pure fun s hs => hs
    exact control_triple
      (fun s answer _ hs => (hs.noting (c := .rollback) (by nofun) answer).congr rfl Iff.rfl)
      (fun _ h => h) fun s answer _ hs => hs.noting (by nofun) answer

/-- The `catch` neither undoes nor does anything that lasts. -/
theorem onError_triple (error : Failure) {Q : ErasureResult → Run → Prop} :
    Triple (Settled env request db) (onError env request error) Q
      (fun _ => Settled env request db) := by
  refine Triple.bind rollback_triple fun _ => ?_
  refine Triple.bind (log_triple (fun s c answer hc hs => hs.noting hc answer) fun _ h => h)
    fun _ => Triple.throw fun _ h => h

/-- Whatever the answers: a run that resolves has stored its walk and its
receipt; one that rejects has stored them or left everything as it was. -/
theorem erase_triple :
    Triple (Fresh db) (erase env request) (Stored env request db)
      (fun _ => Settled env request db) := by
  refine Triple.bind (log_triple (fun s c answer hc hs => hs.noting hc answer)
    fun _ => Fresh.settled) fun _ => ?_
  refine Triple.bind (ask_triple (R := fun _ => True) (fun s answer hs => hs.noting (by nofun) answer)
    (fun _ _ => trivial) fun _ => Fresh.settled) fun held => Triple.given fun _ => ?_
  refine Triple.ite (fun _ => ?_) fun _ => ?_
  · exact Triple.bind (log_triple (fun s c answer hc hs => hs.noting hc answer)
      fun _ => Fresh.settled) fun _ => Triple.throw fun _ => Fresh.settled
  · refine Triple.bind (ask_triple (R := fun _ => True)
      (fun s answer hs => hs.noting (by nofun) answer) (fun _ _ => trivial)
      fun _ => Fresh.settled) fun _ => Triple.given fun _ => ?_
    exact Triple.tryCatch eraseSubject_triple fun error => onError_triple error

theorem opened_fresh (db : Database) : Fresh db (opened db) := by
  refine ⟨rfl, rfl, fun h => ?_⟩
  obtain ⟨entry, hentry, -⟩ := h
  exact absurd hentry not_mem_nil

/-- A run from a database, with what comes of it. -/
def ended (env : Env) (request : ErasureRequest) (db : Database) :
    Except Failure ErasureResult × Run :=
  outcome (erase env request) (opened db)

theorem ended_stored (h : (ended env request db).1 = .ok result) :
    Stored env request db result (ended env request db).2 :=
  erase_triple.ok (opened_fresh db) (Prod.ext h rfl)

theorem ended_settled (env : Env) (request : ErasureRequest) (db : Database) :
    Settled env request db (ended env request db).2 := by
  rcases hended : ended env request db with ⟨error | result, s⟩
  · exact erase_triple.error (opened_fresh db) hended
  · exact .inr ⟨result, erase_triple.ok (opened_fresh db) hended⟩

theorem insert_ok {receipt : ErasureReceipt} (h : d.insert receipt = .ok d') :
    d' = { d with events := d.events ++ [receipt] } ∧
      receipt.receiptId ∉ d.events.map ErasureReceipt.receiptId := by
  unfold Database.insert at h
  split at h
  · cases h
  next hnew => exact ⟨(Except.ok.inj h).symm, hnew⟩

theorem Stored.events (h : Stored env request db result s) :
    s.db.events = db.events ++ [result.receipt] ∧
      result.receipt.receiptId ∉ db.events.map ErasureReceipt.receiptId := by
  obtain ⟨graph, d, -, hwalk, hinsert⟩ := h.walked
  obtain ⟨hs, hnew⟩ := insert_ok hinsert
  rw [hs, ← walk_events hwalk]
  exact ⟨rfl, hnew⟩

theorem Stored.dryRun_eq (h : Stored env request db result s) :
    result.receipt.dryRun = request.dryRun := by
  rw [h.receipt]
  rfl

theorem Stored.tables_dry (h : Stored env request db result s) (hdry : request.dryRun = true) :
    s.db.tables = db.tables := by
  obtain ⟨graph, d, -, hwalk, hinsert⟩ := h.walked
  rw [hdry, walk_dry] at hwalk
  obtain ⟨rfl, -⟩ := Prod.mk.inj (Except.ok.inj hwalk)
  rw [(insert_ok hinsert).1]

/-- The walk of a live run that has been committed. -/
theorem Stored.live (h : Stored env request db result s) (hlive : request.dryRun = false)
    {graph : List TableNode} (hgraph : env.getGraph = .ok graph)
    (hunique : ∀ node ∈ graph, UniqueKeys node db) (htables : (graph.map TableNode.table).Nodup) :
    ∃ d, Walked env request.subjectId graph db d result.tableResults ∧
      s.db = { d with events := d.events ++ [result.receipt] } := by
  obtain ⟨graph', d, hgraph', hwalk, hinsert⟩ := h.walked
  cases hgraph.symm.trans hgraph'
  rw [hlive] at hwalk
  exact ⟨d, walk_ok hunique htables hwalk, (insert_ok hinsert).1⟩

/-! ## Rejected and resolved runs -/

/-- The receipts of runs that were no dry runs. -/
def Database.liveReceipts (db : Database) : List ErasureReceipt :=
  db.events.filter fun receipt => !receipt.dryRun

/-- Nothing has changed but, perhaps, the receipts of dry runs. -/
def Unchanged (db db' : Database) : Prop :=
  db'.tables = db.tables ∧ db'.liveReceipts = db.liveReceipts

theorem Settled.unchanged_iff (h : Settled env request db s) :
    Unchanged db s.db ↔ ¬ s.Committed := by
  rcases h with ⟨hsame, huncommitted⟩ | ⟨result, hstored⟩
  · exact ⟨fun _ => huncommitted, fun _ => by rw [hsame]; exact ⟨rfl, rfl⟩⟩
  · have hlive : s.db.liveReceipts
        = db.liveReceipts ++ [result.receipt].filter fun receipt => !receipt.dryRun := by
      unfold Database.liveReceipts
      rw [hstored.events.1, filter_append]
    cases hdry : request.dryRun with
    | true =>
      have huncommitted : ¬ s.Committed := fun h =>
        absurd (hdry.symm.trans (hstored.committed.mp h)) nofun
      refine ⟨fun _ => huncommitted, fun _ => ⟨hstored.tables_dry hdry, ?_⟩⟩
      rw [hlive, filter_cons_of_neg (by rw [hstored.dryRun_eq, hdry]; exact nofun)]
      exact append_nil _
    | false =>
      refine ⟨fun hsame => ?_, fun h => absurd (hstored.committed.mpr hdry) h⟩
      rw [Unchanged, hlive, filter_cons_of_pos (by rw [hstored.dryRun_eq, hdry]; rfl)] at hsame
      exact absurd (append_right_eq_self.mp hsame.2) (cons_ne_nil _ _)

/-- A run that rejects has left everything unchanged exactly if its COMMIT
was not carried out. A live run that resolves has stored one receipt; it
counts the rows that changed exactly if no row of the subject was a
tombstone before. -/
theorem erase_atomic_iff (env : Env) (request : ErasureRequest) (db : Database) :
    (∀ error, (ended env request db).1 = .error error →
      (Unchanged db (ended env request db).2.db ↔ ¬ (ended env request db).2.Committed)) ∧
    (∀ result graph, (ended env request db).1 = .ok result → request.dryRun = false →
      env.getGraph = .ok graph →
      (ended env request db).2.db.events = db.events ++ [result.receipt] ∧
      result.receipt.receiptId ∉ db.events.map ErasureReceipt.receiptId ∧
      ((∀ node ∈ graph, UniqueKeys node db) → (graph.map TableNode.table).Nodup →
        ((∀ table, countOf result.receipt.tablesAffected table
            = changedRows (db.tables table) ((ended env request db).2.db.tables table)) ↔
          ∀ node ∈ graph, node.effectiveColumns ≠ [] → ∀ row ∈ db.tables node.table,
            row node.fkCol = some request.subjectId →
              ∃ c ∈ node.effectiveColumns, row c.name ≠ none))) := by
  refine ⟨fun error _ => (ended_settled env request db).unchanged_iff, fun result graph hok hlive hgraph => ?_⟩
  have hstored := ended_stored hok
  refine ⟨hstored.events.1, hstored.events.2, fun hunique htables => ?_⟩
  obtain ⟨d, hwalked, hdb⟩ := hstored.live hlive hgraph hunique htables
  rw [hdb, hstored.receipt, ← hwalked.counts_iff htables]
  show (∀ table, countOf (tablesAffected request.dryRun result.tableResults) table = _) ↔ _
  rw [hlive]

end

/-! ### Ann is erased -/

/-- A row by the cells that are not NULL. -/
def rowOf (cells : List (String × String)) : Row := fun column =>
  (KeyedList.get Prod.fst column cells).map Prod.snd

def users : TableNode where
  table := "users"
  pkCol := "id"
  fkCol := "id"
  piiColumns := [⟨"email", true⟩, ⟨"name", true⟩]

def annAndBen : Database where
  tables := fun table => if table = "users" then
    [rowOf [("id", "ann"), ("email", "ann@x"), ("name", "Ann")],
      rowOf [("id", "ben"), ("email", "ben@x")]] else []
  primaryKey := fun _ => "id"

/-- The calls are answered but the one with this number. -/
def failingAt (graph : List TableNode) (n : Nat) (answer : Answer) : Env where
  sha256 := fun text => "sha256 of " ++ text
  getGraph := .ok graph
  answer := fun m => if m = n then answer else .ok
  receiptId := "r" ++ toString n
  erasedAt := "2026-01-01T00:00:00.000Z"

def eraseAnn (dryRun : Bool) : ErasureRequest := ⟨"ann", "admin", dryRun⟩

/-- The audit log rejects the entry behind the COMMIT. -/
def unaudited : Except Failure ErasureResult × Run :=
  ended (failingAt [users] 8 (.refused "audit log")) (eraseAnn false) annAndBen

/-- The answer to the COMMIT is lost. -/
def unanswered : Except Failure ErasureResult × Run :=
  ended (failingAt [users] 7 (.lost "timeout")) (eraseAnn false) annAndBen

/-- Every call is answered. -/
def undisturbed : Env := failingAt [users] 99 .ok

/-- Once more, after the audit log is back. -/
def erasedAgain : Except Failure ErasureResult × Run :=
  ended undisturbed (eraseAnn false) unaudited.2.db

def emailsOf (db : Database) : List (Option String) :=
  (db.tables "users").map fun row => row "email"

def summaryOf (outcome : Except Failure ErasureResult) : Option (List TableErasureSummary) :=
  outcome.toOption.map fun result => result.receipt.tablesAffected

theorem unaudited_atomic :
    (Unchanged annAndBen unaudited.2.db ↔ ¬ unaudited.2.Committed) ∧ unaudited.2.Committed :=
  ⟨(erase_atomic_iff (failingAt [users] 8 (.refused "audit log")) (eraseAnn false) annAndBen).1
    (.error "audit log") (by decide +kernel), by decide +kernel⟩

/-- The run rejects, and the row is erased and its receipt stored: when the
audit log fails behind the COMMIT, and when the answer to the COMMIT is
lost. And a second erasure counts a row in which no cell changes. -/
theorem unaudited_erased :
    unaudited.1 = .error (.error "audit log") ∧
      emailsOf annAndBen = [some "ann@x", some "ben@x"] ∧
      emailsOf unaudited.2.db = [none, some "ben@x"] ∧
      unaudited.2.db.liveReceipts.length = 1 ∧
    unanswered.1 = .error (.error "timeout") ∧ emailsOf unanswered.2.db = [none, some "ben@x"] ∧
    summaryOf erasedAgain.1 = some [⟨"users", 1⟩] ∧
      emailsOf erasedAgain.2.db = emailsOf unaudited.2.db := by
  decide +kernel

/-! ## Erased tables -/

section

variable {env : Env} {db d d' : Database}

/-- A table that has been erased has nothing left to erase. -/
theorem eraseRow_eraseRow {node : TableNode} {subjectId : String} {row : Row} (again : Env)
    (hnodup : row node.fkCol = some subjectId → ((node.sets env row).map Prod.fst).Nodup) :
    node.eraseRow again subjectId (node.eraseRow env subjectId row)
      = node.eraseRow env subjectId row := by
  by_cases hsubject : row node.fkCol = some subjectId
  · have herased : node.eraseRow env subjectId row = node.tombstone env row := if_pos hsubject
    rw [herased, TableNode.eraseRow, ite_eq_right_iff]
    exact fun _ => tombstone_eq_self fun c hc => tombstone_name (hnodup hsubject) hc
  · have hkept : node.eraseRow env subjectId row = row := if_neg hsubject
    rw [hkept, hkept.symm.trans (if_neg hsubject), TableNode.eraseRow, if_neg hsubject]

theorem Walked.again {graph : List TableNode} {subjectId : String} {again : Env}
    {results results' : List TableTombstoneResult} {d'' : Database}
    (h : Walked env subjectId graph db d results)
    (h' : Walked again subjectId graph d' d'' results') (hd : d'.tables = d.tables) :
    d''.tables = d.tables := by
  funext table
  by_cases hmem : ∃ node ∈ graph, node.table = table
  · obtain ⟨node, hnode, rfl⟩ := hmem
    rw [h'.erased node hnode, hd, h.erased node hnode, map_map]
    exact map_congr_left fun row hrow =>
      eraseRow_eraseRow again (h.setOnce node hnode row hrow)
  · have hother : ∀ node ∈ graph, node.table ≠ table := fun node hnode heq =>
      hmem ⟨node, hnode, heq⟩
    rw [h'.kept table hother, hd]

/-- A live run that resolves erases the rows of the subject and nothing
else; another run finds nothing to change, however it ends; and a dry run
changes no table and announces what the live run does. -/
theorem erase_tombstones (env : Env) (request : ErasureRequest) (db : Database)
    (graph : List TableNode) (result : ErasureResult) (hlive : request.dryRun = false)
    (hgraph : env.getGraph = .ok graph) (hunique : ∀ node ∈ graph, UniqueKeys node db)
    (htables : (graph.map TableNode.table).Nodup) (hapart : ∀ node ∈ graph, node.HashesApart)
    (hresolves : (ended env request db).1 = .ok result) :
    (∀ node ∈ graph, List.Forall₂ (RowErased env.sha256 node request.subjectId)
      (db.tables node.table) ((ended env request db).2.db.tables node.table)) ∧
    (∀ table, (∀ node ∈ graph, node.table ≠ table) →
      (ended env request db).2.db.tables table = db.tables table) ∧
    (∀ (again : Env) (request' : ErasureRequest), again.getGraph = .ok graph →
      request'.subjectId = request.subjectId →
      (ended again request' (ended env request db).2.db).2.db.tables
        = (ended env request db).2.db.tables) ∧
    (∀ (preview : Env) (request' : ErasureRequest), preview.getGraph = .ok graph →
      request'.subjectId = request.subjectId → request'.dryRun = true →
      (ended preview request' db).2.db.tables = db.tables ∧
      ∀ plan, (ended preview request' db).1 = .ok plan →
        plan.receipt.tablesAffected = result.receipt.tablesAffected) := by
  have hstored := ended_stored hresolves
  obtain ⟨d, hwalked, hdb⟩ := hstored.live hlive hgraph hunique htables
  have hdbTables : (ended env request db).2.db.tables = d.tables := by rw [hdb]
  refine ⟨fun node hnode => ?_, fun table htable => ?_, fun again request' hagain hsubject => ?_,
    fun preview request' hpreview hsubject hdry => ⟨?_, fun plan hplan => ?_⟩⟩
  · rw [hdbTables, hwalked.erased node hnode, forall₂_map_right_iff]
    exact forall₂_same.mpr fun row hrow =>
      eraseRow_erased (hapart node hnode) (hwalked.setOnce node hnode row hrow)
  · rw [hdbTables]
    exact hwalked.kept table htable
  · have hunique' : ∀ node ∈ graph, UniqueKeys node (ended env request db).2.db := by
      intro node hnode
      rw [hdb]
      exact (hwalked.unique node hnode).congr rfl rfl
    rcases ended_settled again request' (ended env request db).2.db with
      ⟨hsame, -⟩ | ⟨result', hstored'⟩
    · rw [hsame]
    · cases hdry : request'.dryRun with
      | true => exact hstored'.tables_dry hdry
      | false =>
        obtain ⟨d', hwalked', hdb'⟩ := hstored'.live hdry hagain hunique' htables
        rw [hsubject] at hwalked'
        rw [hdb', hdbTables]
        show d'.tables = d.tables
        exact hwalked.again hwalked' hdbTables
  · rcases ended_settled preview request' db with ⟨hsame, -⟩ | ⟨result', hstored'⟩
    · rw [hsame]
    · exact hstored'.tables_dry hdry
  · have hplanned := ended_stored hplan
    obtain ⟨graph', d', hgraph', hwalk, -⟩ := hplanned.walked
    cases hpreview.symm.trans hgraph'
    rw [hdry, walk_dry, hsubject] at hwalk
    have hresults := (Prod.mk.inj (Except.ok.inj hwalk)).2
    rw [hplanned.receipt, hstored.receipt]
    show tablesAffected request'.dryRun plan.tableResults
      = tablesAffected request.dryRun result.tableResults
    rw [hdry, hlive, ← hresults, hwalked.results]
    exact tablesAffected_congr (fun node => by rw [length_plan, length_plan]) graph

end

/-! ### Ann is erased, and other graphs -/

theorem annAndBen_unique : ∀ node ∈ [users], UniqueKeys node annAndBen := by
  intro node hnode
  obtain rfl := mem_singleton.mp hnode
  exact ⟨rfl, by decide +kernel, by decide +kernel⟩

theorem users_apart : ∀ node ∈ [users], node.HashesApart := by
  unfold TableNode.HashesApart
  decide +kernel

def annErased : TableTombstoneResult :=
  ⟨"users", 1, [⟨"users", "ann", ["email", "name"], ["hash_email", "hash_name"]⟩]⟩

theorem undisturbed_tombstones :
    List.Forall₂ (RowErased undisturbed.sha256 users "ann") (annAndBen.tables "users")
      ((ended undisturbed (eraseAnn false) annAndBen).2.db.tables "users") :=
  (erase_tombstones undisturbed (eraseAnn false) annAndBen [users]
    ⟨undisturbed.receipt (eraseAnn false) [annErased], [annErased]⟩ rfl rfl annAndBen_unique
    (by decide) users_apart (by decide +kernel)).1 users mem_cons_self

/-- The hash of the e-mail is stored in a column that is erased itself. -/
def selfHashing : TableNode := { users with piiColumns := [⟨"email", true⟩, ⟨"hash_email", false⟩] }

def hashedOnly : Database where
  tables := fun table => if table = "users" then [rowOf [("id", "ann"), ("hash_email", "h")]] else []
  primaryKey := fun _ => "id"

def hashesOf (db : Database) : List (Option String × Option String) :=
  (db.tables "users").map fun row => (row "email", row "hash_email")

def hashErased : Except Failure ErasureResult × Run :=
  ended (failingAt [selfHashing] 99 .ok) (eraseAnn false) hashedOnly

/-- One table, found by two columns of which one is PII. -/
def byOwner : TableNode := ⟨"notes", "id", "owner_id", [⟨"customer_id", false⟩], []⟩

def byCustomer : TableNode := ⟨"notes", "id", "customer_id", [⟨"text", false⟩], []⟩

def notes : Database where
  tables := fun table => if table = "notes" then
    [rowOf [("id", "n1"), ("owner_id", "ann"), ("customer_id", "ann"), ("text", "hello")]] else []
  primaryKey := fun _ => "id"

def notesErased (dryRun : Bool) : Except Failure ErasureResult × Run :=
  ended (failingAt [byOwner, byCustomer] 99 .ok) (eraseAnn dryRun) notes

/-- Where the e-mail is NULL the hash column does not keep its value. And
where a table is listed twice the second node may miss rows that the dry
run announces: their PII stays. -/
theorem selfHashing_overwritten :
    (summaryOf hashErased.1 = some [⟨"users", 1⟩] ∧ hashesOf hashedOnly = [(none, some "h")] ∧
      hashesOf hashErased.2.db = [(none, none)]) ∧
    summaryOf (notesErased false).1 = some [⟨"notes", 1⟩] ∧
      summaryOf (notesErased true).1 = some [⟨"notes", 1⟩, ⟨"notes", 1⟩] ∧
      ((notesErased false).2.db.tables "notes").map (fun row => row "text") = [some "hello"] := by
  decide +kernel

end ChronoPay.GdprErasure
