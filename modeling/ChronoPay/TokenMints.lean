import ChronoPay.TokenService

/-!
# TokenMints — how often the token of an intent is minted

A transaction is submitted by a call that has the lock of its issuer and
has found no token in the intent. The token is recorded after the
transaction, before the lock is given back.

So one intent is minted once if all calls for it go by ONE issuer and no
token that was minted fails to be recorded (`mints_le_one`). Neither can
be left out: callers that name two issuers do not wait for each other,
and a token that is not recorded is minted again by the next call
(`mintedTwice`).
-/

namespace ChronoPay.TokenService

open Coop List Machine TicketLock

variable {deps : Deps} {e : Env} {pc pc' : Pc} {s : Server} {σ : State} {k : Cmd}
  {intentId issuer : String}

/-- How many transactions were carried out for the intent. -/
def mintsOf (intentId : String) (s : Server) : Nat :=
  s.mints.countP fun mint => mint.intentId = intentId

/-- The intent is in the repository. -/
def Known (intentId : String) (s : Server) : Prop := (s.intents.findById intentId).isSome = true

/-- Its token is recorded there. -/
def Recorded (intentId : String) (s : Server) : Prop :=
  ∃ intent, s.intents.findById intentId = some intent ∧ intent.token ≠ none

/-! ## What a segment does to the intents and the transactions -/

theorem findById_updateTokenInfo (intents : Intents) (id tokenAsset mintTxHash : String) :
    (intents.updateTokenInfo id tokenAsset mintTxHash).findById intentId
      = if intentId = id then (intents.findById intentId).map fun intent =>
          { intent with tokenAsset := some tokenAsset, mintTxHash := some mintTxHash }
        else intents.findById intentId := by
  rw [Intents.findById, Intents.updateTokenInfo, KeyedList.get_modify]
  · rfl
  · intro intent
    rfl

/-- The lock is all that the end of a call touches. -/
theorem resume_inside (deps : Deps) (e : Env) (job : Job) (stage : Stage) (s : Server) :
    (resume deps e (.inside job stage) s).1.intents = (runStage deps e job stage s).1.intents ∧
      (resume deps e (.inside job stage) s).1.mints = (runStage deps e job stage s).1.mints := by
  cases hturn : (runStage deps e job stage s).2 with
  | next stage' =>
    rw [resume_next hturn]
    exact ⟨rfl, rfl⟩
  | exit outcome =>
    rw [resume_exit hturn]
    exact ⟨rfl, rfl⟩

/-- **Inversion**: a segment carries a transaction out, records a token or
leaves the intents and the transactions alone. -/
theorem resume_cases (deps : Deps) (e : Env) (pc : Pc) (s : Server) :
    (∃ job plan result, pc = .inside job (.sending plan) ∧
      sendTransaction e job.request.options plan = .ok result ∧
      (resume deps e pc s).1.intents = s.intents ∧
      (resume deps e pc s).1.mints
        = s.mints ++ [⟨job.request.intentId, plan.amount, result.txHash⟩]) ∨
    (∃ job result, pc = .inside job (.updating result) ∧ e.stored = true ∧
      (resume deps e pc s).1.mints = s.mints ∧
      (resume deps e pc s).1.intents
        = s.intents.updateTokenInfo job.request.intentId result.asset result.txHash) ∨
    ((resume deps e pc s).1.intents = s.intents ∧ (resume deps e pc s).1.mints = s.mints) := by
  cases pc with
  | finding | queued => exact .inr (.inr ⟨rfl, rfl⟩)
  | found request initialIntent =>
    cases initialIntent with
    | none | some => exact .inr (.inr ⟨rfl, rfl⟩)
  | inside job stage =>
    obtain ⟨hintents, hmints⟩ := resume_inside deps e job stage s
    rw [hintents, hmints]
    cases stage with
    | sending plan =>
      rw [runStage]
      cases hsend : sendTransaction e job.request.options plan with
      | ok result => exact .inl ⟨job, plan, result, rfl, hsend, rfl, rfl⟩
      | error err => exact .inr (.inr ⟨rfl, rfl⟩)
    | updating result =>
      rw [runStage]
      by_cases hstored : e.stored = true
      · rw [if_pos hstored]
        exact .inr (.inl ⟨job, result, rfl, hstored, rfl, rfl⟩)
      · rw [if_neg hstored]
        exact .inr (.inr ⟨rfl, rfl⟩)
    | rereading | reread | limiting | listing | listed | updated => exact .inr (.inr ⟨rfl, rfl⟩)

/-- Intents stay in the repository. -/
theorem Known.resume (h : Known intentId s) : Known intentId (resume deps e pc s).1 := by
  rw [Known] at h ⊢
  obtain ⟨job, plan, result, -, -, hintents, -⟩ | ⟨job, result, -, -, -, hintents⟩ |
    ⟨hintents, -⟩ := resume_cases deps e pc s
  · rw [hintents]
    exact h
  · rw [hintents, findById_updateTokenInfo]
    split
    · rw [Option.isSome_map]
      exact h
    · exact h
  · rw [hintents]
    exact h

/-- The pc is at the transaction for the intent. -/
def sendsFor (intentId : String) : Pc → Prop
  | .inside job (.sending _) => job.request.intentId = intentId
  | _ => False

theorem mintsOf_resume (h : ¬ sendsFor intentId pc) :
    mintsOf intentId (resume deps e pc s).1 = mintsOf intentId s := by
  rw [mintsOf, mintsOf]
  obtain ⟨job, plan, result, rfl, -, -, hmints⟩ | ⟨job, result, -, -, hmints, -⟩ |
    ⟨-, hmints⟩ := resume_cases deps e pc s
  · have hne : ¬ job.request.intentId = intentId := h
    rw [hmints, countP_append, countP_singleton, if_neg (by simpa using hne)]
    rfl
  · rw [hmints]
  · rw [hmints]

theorem mintsOf_resume_le : mintsOf intentId (resume deps e pc s).1 ≤ mintsOf intentId s + 1 := by
  rw [mintsOf, mintsOf]
  obtain ⟨job, plan, result, -, -, -, hmints⟩ | ⟨job, result, -, -, hmints, -⟩ |
    ⟨-, hmints⟩ := resume_cases deps e pc s
  · rw [hmints, countP_append]
    exact Nat.add_le_add_left countP_le_length _
  · rw [hmints]
    exact Nat.le_succ _
  · rw [hmints]
    exact Nat.le_succ _

/-! ## The calls for one intent -/

/-- What a call for the intent that has the lock goes by. -/
def Due (intentId : String) (s : Server) : Stage → Prop
  | .rereading => True
  | .reread intent => intent.token = none → mintsOf intentId s = 0
  | .limiting _ | .listing _ _ | .listed _ _ _ => mintsOf intentId s = 0
  | .sending plan => mintsOf intentId s = 0 ∧ plan.asset ≠ ""
  | .updating result => result.asset ≠ "" ∧ result.txHash ≠ ""
  | .updated _ => True

/-- Where the calls for the intent are. -/
def Watched (intentId issuer : String) (s : Server) : Pc → Prop
  | .finding _ => True
  | .found request initialIntent =>
    request.intentId = intentId → initialIntent.isSome = true → Known intentId s
  | .queued job => job.request.intentId = intentId → job.issuerPubKey = issuer ∧ Known intentId s
  | .inside job stage =>
    job.request.intentId = intentId →
      job.issuerPubKey = issuer ∧ Known intentId s ∧ Due intentId s stage

/-- The intent whose token a call is about to record. -/
def updatingOf : Pc → Option String
  | .inside job (.updating _) => some job.request.intentId
  | _ => none

structure Minted (intentId issuer : String) (σ : State) : Prop where
  locked : Locked Server.locks Pc.place σ
  watched : Held (Watched intentId issuer) σ
  settled : Free updatingOf intentId σ → mintsOf intentId σ.shared = 0 ∨ Recorded intentId σ.shared
  once : mintsOf intentId σ.shared ≤ 1

/-- Every call for the intent waits for the lock of this issuer. -/
def WaitsFor (issuer intentId : String) (σ : State) (k : Cmd) : Prop :=
  match resumed σ k with
  | some (_, .found request (some initialIntent)) =>
    request.intentId = intentId → request.issuer initialIntent = issuer
  | _ => True

/-- A token of the intent that was minted is recorded. -/
def Records (deps : Deps) (intentId : String) (σ : State) (k : Cmd) : Prop :=
  match resumed σ k with
  | some (_, .inside job (.sending _)) =>
    job.request.intentId = intentId → deps.updateTokenInfo = true
  | some (e, .inside job (.updating _)) => job.request.intentId = intentId → e.stored = true
  | _ => True

instance (issuer intentId : String) (σ : State) (k : Cmd) :
    Decidable (WaitsFor issuer intentId σ k) := by
  unfold WaitsFor
  exact match resumed σ k with
    | some (_, .found _ (some _)) => inferInstanceAs (Decidable (_ → _))
    | some (_, .found _ none) | some (_, .finding _) | some (_, .queued _) | some (_, .inside _ _)
    | none => .isTrue trivial

instance (deps : Deps) (intentId : String) (σ : State) (k : Cmd) :
    Decidable (Records deps intentId σ k) := by
  unfold Records
  exact match resumed σ k with
    | some (_, .inside _ (.sending _)) => inferInstanceAs (Decidable (_ → _))
    | some (_, .inside _ (.updating _)) => inferInstanceAs (Decidable (_ → _))
    | some (_, .inside _ .rereading) | some (_, .inside _ (.reread _))
    | some (_, .inside _ (.limiting _)) | some (_, .inside _ (.listing _ _))
    | some (_, .inside _ (.listed _ _ _)) | some (_, .inside _ (.updated _))
    | some (_, .finding _) | some (_, .found _ _) | some (_, .queued _) | none => .isTrue trivial

/-! ## Steps -/

variable {stage : Stage} {intent : TokenIntent} {job : Job}

theorem Due.of_mintsOf_eq {s' : Server} (h : Due intentId s stage)
    (heq : mintsOf intentId s' = mintsOf intentId s) : Due intentId s' stage := by
  cases stage with
  | rereading | updated => trivial
  | reread intent => exact fun htoken => heq.trans (h htoken)
  | limiting | listing | listed => exact heq.trans h
  | sending plan => exact ⟨heq.trans h.1, h.2⟩
  | updating result => exact h

theorem submit_eq_next (h : submit deps job intent = .next stage) :
    ∃ plan, stage = .sending plan ∧ plan.asset ≠ "" ∧
      plan.amount = job.request.options.amount.getD "1" := by
  rw [submit] at h
  split at h
  next plan hplan =>
    obtain ⟨⟨needed, insufficient⟩, -, hplan⟩ := Result.bind_eq_ok.mp hplan
    dsimp only at hplan
    split at hplan
    · cases hplan
    · cases hplan
      exact ⟨_, (Turn.next.inj h).symm, by simp [assetCodeOf], rfl⟩
  · cases h

theorem submit_due (hzero : mintsOf intentId s = 0) (h : submit deps job intent = .next stage) :
    Due intentId s stage := by
  obtain ⟨plan, rfl, hasset, -⟩ := submit_eq_next h
  exact ⟨hzero, hasset⟩

theorem answer_eq_next {turn : Turn} (h : answer e turn = .next stage) : turn = .next stage := by
  rw [answer] at h
  split at h
  · exact h
  · cases h

theorem sendTransaction_txHash {options : MintTimeTokenOptions} {plan : MintPlan}
    {result : MintResult} (h : sendTransaction e options plan = .ok result) :
    result.asset = plan.asset ∧ result.txHash ≠ "" := by
  rw [sendTransaction] at h
  split at h
  · cases h
  · cases h
  · cases h
    exact ⟨rfl, by simp⟩

/-- **One stage**: a call for the intent goes on towards a transaction only
if there was none. -/
theorem Due.next {stage' : Stage} (hdue : Due intentId s stage)
    (hjob : job.request.intentId = intentId)
    (hread : stage = .rereading → mintsOf intentId s = 0 ∨ Recorded intentId s)
    (hnext : (runStage deps e job stage s).2 = .next stage') :
    Due intentId (runStage deps e job stage s).1 stage' := by
  cases stage with
  | rereading =>
    obtain rfl := Turn.next.inj (answer_eq_next hnext)
    intro htoken
    rcases hread rfl with hzero | ⟨intent, hintent, hrecorded⟩
    · exact hzero
    · rw [hjob, hintent] at htoken
      exact absurd htoken hrecorded
  | reread intent =>
    rw [runStage] at hnext
    split at hnext
    · cases hnext
    next htoken =>
      have hzero : mintsOf intentId s = 0 := hdue htoken
      split at hnext
      · cases hnext
        exact hzero
      · split at hnext
        · cases hnext
          exact hzero
        · exact submit_due hzero hnext
  | limiting intent =>
    have hlimited := answer_eq_next hnext
    rw [limited.eq_def] at hlimited
    split at hlimited
    · cases hlimited
      exact hdue
    · exact submit_due hdue hlimited
  | listing intent limit =>
    obtain rfl := Turn.next.inj (answer_eq_next hnext)
    exact hdue
  | listed intent limit allIntents =>
    rw [runStage] at hnext
    split at hnext
    · exact submit_due hdue hnext
    · cases hnext
  | sending plan =>
    rw [runStage] at hnext
    split at hnext
    next result hsend =>
      split at hnext
      · cases hnext
        obtain ⟨hasset, htxHash⟩ := sendTransaction_txHash hsend
        refine ⟨?_, htxHash⟩
        rw [hasset]
        exact hdue.2
      · cases hnext
    · cases hnext
  | updating result =>
    obtain rfl := Turn.next.inj (answer_eq_next hnext)
    trivial
  | updated result => cases hnext

theorem Watched.next (h : Watched intentId issuer s pc)
    (hissuer : ∀ request initialIntent, pc = .found request (some initialIntent) →
      request.intentId = intentId → request.issuer initialIntent = issuer)
    (hread : ∀ job, pc = .inside job .rereading → job.request.intentId = intentId →
      mintsOf intentId s = 0 ∨ Recorded intentId s)
    (hnext : (resume deps e pc s).2 = .waiting pc') :
    Watched intentId issuer (resume deps e pc s).1 pc' := by
  cases pc with
  | finding request =>
    rw [resume] at hnext ⊢
    split at hnext
    · cases hnext
      rintro rfl hsome
      exact hsome
    · cases hnext
  | found request initialIntent =>
    cases initialIntent with
    | none => cases hnext
    | some initialIntent =>
      cases hnext
      intro hid
      exact ⟨hissuer request initialIntent rfl hid, h hid rfl⟩
  | queued job =>
    cases hnext
    split
    · intro hid
      exact ⟨(h hid).1, (h hid).2, trivial⟩
    · exact h
  | inside job stage =>
    cases hturn : (runStage deps e job stage s).2 with
    | exit outcome =>
      rw [resume_exit hturn] at hnext
      cases hnext
    | next stage' =>
      have hstays : Known intentId s → Known intentId (resume deps e (.inside job stage) s).1 :=
        Known.resume
      rw [resume_next hturn] at hnext hstays ⊢
      cases hnext
      intro hid
      obtain ⟨hkey, hknown, hdue⟩ := h hid
      refine ⟨hkey, hstays hknown, hdue.next hid ?_ hturn⟩
      rintro rfl
      exact hread job rfl hid

/-- No two calls for the intent have the lock. -/
theorem Minted.unique (h : Minted intentId issuer σ) {i j : Nat} {q q' : Request} {job' : Job}
    {stage' : Stage} (hi : σ.calls[i]? = some ⟨q, .waiting (.inside job stage)⟩)
    (hj : σ.calls[j]? = some ⟨q', .waiting (.inside job' stage')⟩)
    (hid : job.request.intentId = intentId) (hid' : job'.request.intentId = intentId) : i = j := by
  have hkey := (h.watched _ (mem_of_getElem? hi) _ rfl hid).1
  have hkey' := (h.watched _ (mem_of_getElem? hj) _ rfl hid').1
  refine h.locked.exclusive i j _ _ issuer hi hj ?_ ?_
  · exact congrArg some hkey
  · exact congrArg some hkey'

theorem updatingOf_eq_some (h : updatingOf pc = some intentId) :
    ∃ job result, pc = .inside job (.updating result) ∧ job.request.intentId = intentId := by
  rw [updatingOf.eq_def] at h
  split at h
  next job result => exact ⟨job, result, rfl, Option.some.inj h⟩
  · cases h

theorem sendsFor_iff :
    sendsFor intentId pc ↔ ∃ job plan, pc = .inside job (.sending plan) ∧
      job.request.intentId = intentId := by
  rw [sendsFor.eq_def]
  split
  next job plan =>
    exact ⟨fun h => ⟨job, plan, rfl, h⟩, fun ⟨job', plan', hpc, h⟩ => by cases hpc; exact h⟩
  next hnone => exact ⟨nofun, fun ⟨job, plan, hpc, _⟩ => hnone job plan hpc⟩

/-- While a call for the intent reads it, no token of it is on the way to
its record. -/
theorem Minted.free_of_rereading (h : Minted intentId issuer σ)
    (hk : resumed σ k = some (e, .inside job .rereading))
    (hid : job.request.intentId = intentId) : Free updatingOf intentId σ := by
  obtain ⟨i, q, -, hi⟩ := resumed_eq_some hk
  intro c hc hheld
  obtain ⟨pc, hpc, hupdating⟩ := heldBy_eq_some.mp hheld
  obtain ⟨job', result, rfl, hid'⟩ := updatingOf_eq_some hupdating
  obtain ⟨j, hj⟩ := mem_iff_getElem?.mp hc
  obtain ⟨q', task⟩ := c
  obtain rfl := hpc
  obtain rfl := h.unique hi hj hid hid'
  cases hi.symm.trans hj

theorem Watched.frame {s' : Server} (h : Watched intentId issuer s pc)
    (hknown : Known intentId s → Known intentId s')
    (hmints : ∀ job stage, pc = .inside job stage → job.request.intentId = intentId →
      mintsOf intentId s' = mintsOf intentId s) : Watched intentId issuer s' pc := by
  cases pc with
  | finding request => trivial
  | found request initialIntent => exact fun hid hsome => hknown (h hid hsome)
  | queued job => exact fun hid => ⟨(h hid).1, hknown (h hid).2⟩
  | inside job stage =>
    intro hid
    obtain ⟨hkey, hthere, hdue⟩ := h hid
    exact ⟨hkey, hknown hthere, hdue.of_mintsOf_eq (hmints job stage rfl hid)⟩

theorem Minted.watched_step (h : Minted intentId issuer σ) (hissuer : WaitsFor issuer intentId σ k) :
    Held (Watched intentId issuer) (step (program deps) σ k) := by
  refine h.watched.step_others (fun q _ => trivial) ?_ ?_
  · intro e pc pc' hk hpc hnext
    refine hpc.next ?_ ?_ hnext
    · rintro request initialIntent rfl
      rw [WaitsFor, hk] at hissuer
      exact hissuer
    · rintro job rfl hid
      exact h.settled (h.free_of_rereading hk hid)
  · intro i e q pc j q' pc' hk hi hji hj hpc hpc'
    refine hpc'.frame Known.resume ?_
    rintro job stage rfl hid
    refine mintsOf_resume fun hsends => hji ?_
    obtain ⟨job', plan, rfl, hid'⟩ := sendsFor_iff.mp hsends
    exact h.unique hj hi hid hid'

/-- What is not recorded was not minted, unless it is about to be. -/
theorem Minted.settled_step (h : Minted intentId issuer σ) (hrecords : Records deps intentId σ k)
    (hfree : Free updatingOf intentId (step (program deps) σ k)) :
    mintsOf intentId (step (program deps) σ k).shared = 0 ∨
      Recorded intentId (step (program deps) σ k).shared := by
  rw [step_shared]
  split
  next e pc hk =>
    change mintsOf intentId (resume deps e pc σ.shared).1 = 0 ∨
      Recorded intentId (resume deps e pc σ.shared).1
    rw [Records, hk] at hrecords
    by_cases hupdating : updatingOf pc = some intentId
    · -- the token is recorded now
      right
      obtain ⟨job, result, rfl, hid⟩ := updatingOf_eq_some hupdating
      obtain ⟨-, hknown, hasset, htxHash⟩ := h.watched.at_resumed hk hid
      have hstored : e.stored = true := hrecords hid
      obtain ⟨intent, hintent⟩ := Option.isSome_iff_exists.mp hknown
      refine ⟨{ intent with tokenAsset := some result.asset, mintTxHash := some result.txHash },
        ?_, ?_⟩
      · rw [(resume_inside deps e job (.updating result) σ.shared).1, runStage, if_pos hstored, hid,
          findById_updateTokenInfo, if_pos rfl, hintent]
        rfl
      · simp [TokenIntent.token, hasset, htxHash]
    · have hbefore : Free updatingOf intentId σ := by
        refine hfree.of_step fun e' pc' hk' => ?_
        cases hk.symm.trans hk'
        exact hupdating
      obtain ⟨job, plan, result, rfl, hsend, hintents, -⟩ | ⟨job, result, rfl, -, hmints, hintents⟩ |
        ⟨hintents, hmints⟩ := resume_cases deps e pc σ.shared
      · have hne : job.request.intentId ≠ intentId := by
          intro hid
          have hturn : (runStage deps e job (.sending plan) σ.shared).2 = .next (.updating result) := by
            rw [runStage, hsend]
            exact if_pos (hrecords hid)
          exact hfree.next hk (congrArg Prod.snd (resume_next hturn)) (congrArg some hid)
        have hmints : mintsOf intentId (resume deps e (.inside job (.sending plan)) σ.shared).1
            = mintsOf intentId σ.shared := mintsOf_resume hne
        rw [hmints, Recorded, hintents]
        exact h.settled hbefore
      · have hne : intentId ≠ job.request.intentId := fun hid => hupdating (congrArg some hid.symm)
        rw [mintsOf, hmints, Recorded, hintents, findById_updateTokenInfo, if_neg hne]
        exact h.settled hbefore
      · rw [mintsOf, hmints, Recorded, hintents]
        exact h.settled hbefore
  next hk =>
    refine h.settled (hfree.of_step fun e pc hk' => ?_)
    rw [hk] at hk'
    cases hk'

/-- The transaction for the intent is carried out when there was none. -/
theorem Minted.once_step (h : Minted intentId issuer σ) :
    mintsOf intentId (step (program deps) σ k).shared ≤ 1 := by
  refine shared_step (I := fun s => mintsOf intentId s ≤ 1) h.once fun e pc hk => ?_
  by_cases hsends : sendsFor intentId pc
  · obtain ⟨job, plan, rfl, hid⟩ := sendsFor_iff.mp hsends
    obtain ⟨-, -, hzero, -⟩ := h.watched.at_resumed hk hid
    calc mintsOf intentId (resume deps e (.inside job (.sending plan)) σ.shared).1
      _ ≤ mintsOf intentId σ.shared + 1 := mintsOf_resume_le
      _ = 1 := by rw [hzero]
  · exact (mintsOf_resume hsends).trans_le h.once

theorem Minted.step (h : Minted intentId issuer σ) (hissuer : WaitsFor issuer intentId σ k)
    (hrecords : Records deps intentId σ k) :
    Minted intentId issuer (step (program deps) σ k) where
  locked := h.locked.step follows k
  watched := h.watched_step hissuer
  settled := h.settled_step hrecords
  once := h.once_step

theorem minted_started (intents : Intents) : Minted intentId issuer (started intents) where
  locked := locked_empty rfl
  watched := forall_mem_nil _
  settled _ := .inl rfl
  once := Nat.zero_le 1

/-- **An issuer's mints exclude each other**: no two calls are past the
lock of one issuer, whatever fails in them. -/
theorem issuers_apart (deps : Deps) (intents : Intents) (ks : List Cmd) :
    Always (step (program deps))
      (fun σ : State => ∀ (i j : Nat) q q' job job' stage stage',
        σ.calls[i]? = some ⟨q, .waiting (.inside job stage)⟩ →
        σ.calls[j]? = some ⟨q', .waiting (.inside job' stage')⟩ →
        job.issuerPubKey = job'.issuerPubKey → i = j) (started intents) ks := by
  refine (always_of_inv (I := Locked Server.locks Pc.place) (fun _ k h => h.step follows k)
    (locked_empty rfl) ks).mono fun σ h i j q q' job job' stage stage' hi hj hissuer => ?_
  exact h.exclusive i j _ _ job.issuerPubKey hi hj rfl (congrArg some hissuer.symm)

/-- **An intent is minted at most once**, if all calls for it wait for one
lock and what is minted is recorded. -/
theorem mints_le_one (deps : Deps) (intents : Intents) (intentId issuer : String)
    (ks : List Cmd)
    (hks : Along (step (program deps))
      (fun σ k => WaitsFor issuer intentId σ k ∧ Records deps intentId σ k) (started intents) ks) :
    Always (step (program deps)) (fun σ => mintsOf intentId σ.shared ≤ 1)
      (started intents) ks := by
  have hminted := always_of_along (I := Minted intentId issuer)
    (fun σ k hσ hk => hσ.step hk.1 hk.2) (minted_started intents) hks
  exact hminted.mono fun σ hσ => hσ.once

/-! ## Two calls for one intent -/

def plainDeps : Deps where
  parseFloat text := if text = "5" then .finite 5 else if text = "1" then .finite 1 else .nan
  numberText _ := ""
  getTime _ := some 0
  getSupplierLimit := false
  updateTokenInfo := true

def bookedSlot (id : String) : TokenIntent :=
  { id, slotId := "s", professional := "pro", customerId := "c", startTime := 1, endTime := 2
    status := .confirmed, createdAt := "2026-01-01T00:00:00.000Z" }

/-- The call made first is resumed, then the other one, seven times. -/
def overlapping (request request' : Request) : List Cmd :=
  [.call request, .call request'] ++ (List.replicate 7 [.resume 0 {}, .resume 1 {}]).flatten

/-- Calls that name no issuer both wait for the professional. -/
theorem sameIssuer_mints :
    Along (step (program plainDeps))
        (fun σ k => WaitsFor "pro" "i" σ k ∧ Records plainDeps "i" σ k)
        (started [bookedSlot "i"]) (overlapping ⟨"i", {}⟩ ⟨"i", {}⟩) ∧
      Always (step (program plainDeps)) (fun σ => mintsOf "i" σ.shared ≤ 1)
        (started [bookedSlot "i"]) (overlapping ⟨"i", {}⟩ ⟨"i", {}⟩) := by
  have hks : Along (step (program plainDeps))
      (fun σ k => WaitsFor "pro" "i" σ k ∧ Records plainDeps "i" σ k)
      (started [bookedSlot "i"]) (overlapping ⟨"i", {}⟩ ⟨"i", {}⟩) := by
    decide +kernel
  exact ⟨hks, mints_le_one plainDeps [bookedSlot "i"] "i" "pro" _ hks⟩

/-- The same intent under two issuers. -/
def twoIssuers : List Cmd :=
  overlapping ⟨"i", { issuerPublicKey := some "GA" }⟩ ⟨"i", { issuerPublicKey := some "GB" }⟩

/-- The update of the first call is lost, then the call is made again. -/
def lostUpdate : List Cmd :=
  .call ⟨"i", {}⟩ :: List.replicate 6 (.resume 0 {}) ++
    [.resume 0 { answered := false, stored := false }] ++
    .call ⟨"i", {}⟩ :: List.replicate 8 (.resume 1 {})

/-- **Two issuers, or an update that fails, and the intent is minted
twice.** -/
theorem mintedTwice :
    mintsOf "i" (Coop.run (program plainDeps) (started [bookedSlot "i"]) twoIssuers).shared = 2 ∧
    mintsOf "i" (Coop.run (program plainDeps) (started [bookedSlot "i"]) lostUpdate).shared = 2 := by
  decide +kernel

end ChronoPay.TokenService
