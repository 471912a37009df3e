import Mathlib.Algebra.Order.BigOperators.Group.List
import ChronoPay.TokenMints

/-!
# TokenIssuance — how much a supplier issues in a period

The units a supplier has issued are not stored. Each call counts them
anew: one for every intent of the supplier that was created in the period
and has a token, whatever amount was minted for it.

With calls one after the other this count is the number of mints
(`Sound.counted`). A mint goes through if the count and its own amount
are within `maxUnits`, so the sum of the amounts stays within it as long
as all mints but the last are of one unit (`amounts_within`), and need
not otherwise (`fives_exceed`).
-/

namespace ChronoPay.TokenService

open KeyedList List TicketLock

variable {deps : Deps} {e : Env} {q : Request} {pc pc' : Pc} {s s' : Server} {limit : SupplierLimit}
  {supplier : String}

/-! ## A call on its own -/

/-- The limit a call goes by. -/
def limitFor (deps : Deps) (q : Request) (e : Env) : Option SupplierLimit :=
  match q.options.supplierLimit with
  | some limit => some limit
  | none => if deps.getSupplierLimit then e.supplierLimit else none

def Request.amount (q : Request) : String := q.options.amount.getD "1"

/-- The check of the limit passes. -/
def Within (deps : Deps) (e : Env) (q : Request) (issuer : String) (intents : Intents) : Prop :=
  ∀ limit, limitFor deps q e = some limit → checkIssuance deps limit issuer q.amount intents = .ok ()

/-- What a call leaves of the intents and the transactions. -/
inductive Served (deps : Deps) (e : Env) (q : Request) (s s' : Server) : Prop
  | refused (hintents : s'.intents = s.intents) (hmints : s'.mints = s.mints)
  | minted (intent : TokenIntent) (asset txHash : String)
    (hfound : s.intents.findById q.intentId = some intent) (htoken : intent.token = none)
    (hwithin : Within deps e q (q.issuer intent) s.intents) (hasset : asset ≠ "")
    (htxHash : txHash ≠ "")
    (hintents : s'.intents = s.intents.updateTokenInfo q.intentId asset txHash)
    (hmints : s'.mints = s.mints ++ [⟨q.intentId, q.amount, txHash⟩])

/-- All tickets are resolved. -/
structure Idle (locks : Locks String) : Prop where
  lined : Lined locks
  resolved : ∀ t < locks.tickets.length, locks.resolved t = true

/-- What the call keeps in its variables. -/
structure Job.Of (q : Request) (s : Server) (job : Job) : Prop where
  request : job.request = q
  found : s.intents.findById q.intentId = some job.initialIntent
  issuer : job.issuerPubKey = q.issuer job.initialIntent
  ticket : job.ticket = s.locks.tickets.length

/-- The state while the call has the lock. -/
def Server.lockedBy (s : Server) (job : Job) : Server :=
  { s with locks := s.locks.take job.issuerPubKey }

/-- Where a call that began in `s` is with the lock, and the state there. -/
def Stage.Reached (deps : Deps) (e : Env) (q : Request) (s : Server) (job : Job) (now : Server) :
    Stage → Prop
  | .rereading => now = s.lockedBy job
  | .reread intent => intent = job.initialIntent ∧ now = s.lockedBy job
  | .limiting intent =>
    intent = job.initialIntent ∧ now = s.lockedBy job ∧ intent.token = none ∧
      limitFor deps q e = e.supplierLimit
  | .listing intent limit =>
    intent = job.initialIntent ∧ now = s.lockedBy job ∧ intent.token = none ∧
      limitFor deps q e = some limit
  | .listed intent limit allIntents =>
    intent = job.initialIntent ∧ now = s.lockedBy job ∧ intent.token = none ∧
      limitFor deps q e = some limit ∧ allIntents = s.intents
  | .sending plan =>
    now = s.lockedBy job ∧ job.initialIntent.token = none ∧
      Within deps e q job.issuerPubKey s.intents ∧ plan.asset ≠ "" ∧ plan.amount = q.amount
  | .updating result =>
    job.initialIntent.token = none ∧ Within deps e q job.issuerPubKey s.intents ∧
      result.asset ≠ "" ∧ result.txHash ≠ "" ∧ now.locks = s.locks.take job.issuerPubKey ∧
      now.intents = s.intents ∧ now.mints = s.mints ++ [⟨q.intentId, q.amount, result.txHash⟩]
  | .updated _ => now.locks = s.locks.take job.issuerPubKey ∧ Served deps e q s now

/-- Where a call that began in `s` is. -/
def Pc.Reached (deps : Deps) (e : Env) (q : Request) (s : Server) (now : Server) : Pc → Prop
  | .finding request => request = q ∧ now = s
  | .found request initialIntent =>
    request = q ∧ now = s ∧ initialIntent = s.intents.findById q.intentId
  | .queued job => job.Of q s ∧ now = s.lockedBy job
  | .inside job stage => job.Of q s ∧ stage.Reached deps e q s job now

def Stage.rank : Stage → Nat
  | .rereading => 7
  | .reread _ => 6
  | .limiting _ => 5
  | .listing _ _ => 4
  | .listed _ _ _ => 3
  | .sending _ => 2
  | .updating _ => 1
  | .updated _ => 0

def Pc.rank : Pc → Nat
  | .finding _ => 10
  | .found _ _ => 9
  | .queued _ => 8
  | .inside _ stage => stage.rank

/-- The repository in memory answers and stores. -/
structure Env.InMemory (e : Env) : Prop where
  answered : e.answered = true
  stored : e.stored = true

def serve (deps : Deps) (e : Env) (q : Request) (s : Server) : Server × Task :=
  Coop.finish (program deps) e 11 (.finding q) s

theorem Idle.take_release {locks : Locks String} (h : Idle locks) (key : String) :
    Idle ((locks.take key).release locks.tickets.length) where
  lined := (h.lined.take key).release _
  resolved := by
    intro t ht
    have hlength : ((locks.take key).release locks.tickets.length).tickets.length
        = locks.tickets.length + 1 := by simp [Locks.take, Locks.release]
    rw [hlength] at ht
    rcases Nat.lt_succ_iff_lt_or_eq.mp ht with hold | rfl
    · exact resolved_release (resolved_take (h.resolved t hold))
    · simp [Locks.resolved, getElem?_release, Locks.take]

variable {job : Job} {stage stage' : Stage} {now : Server}

variable {intent : TokenIntent} {l : List ℚ} {intents : Intents}

theorem submit_reached (hjob : job.Of q s) (htoken : job.initialIntent.token = none)
    (hwithin : Within deps e q job.issuerPubKey s.intents)
    (hnext : submit deps job intent = .next stage') {n : Nat} (hn : 2 < n) :
    stage'.Reached deps e q s job (s.lockedBy job) ∧ stage'.rank < n := by
  obtain ⟨plan, rfl, hasset, hamount⟩ := submit_eq_next hnext
  rw [hjob.request] at hamount
  exact ⟨⟨rfl, htoken, hwithin, hasset, hamount⟩, hn⟩

/-- A call with the lock goes on to a later stage. -/
theorem Stage.Reached.next (h : stage.Reached deps e q s job now) (hjob : job.Of q s)
    (he : e.InMemory) (hnext : (runStage deps e job stage now).2 = .next stage') :
    stage'.Reached deps e q s job (runStage deps e job stage now).1 ∧ stage'.rank < stage.rank := by
  cases stage with
  | rereading =>
    obtain rfl := Turn.next.inj (answer_eq_next hnext)
    obtain rfl := h
    refine ⟨⟨?_, rfl⟩, Nat.lt_succ_self 6⟩
    rw [hjob.request]
    change ((s.intents.findById q.intentId).getD job.initialIntent) = job.initialIntent
    rw [hjob.found]
    rfl
  | reread intent =>
    obtain ⟨rfl, rfl⟩ := h
    rw [runStage] at hnext ⊢
    split at hnext
    · cases hnext
    next htoken =>
      rw [hjob.request] at hnext
      split at hnext
      next limit hlimit =>
        cases hnext
        have hlt : 4 < 6 := by decide
        refine ⟨⟨rfl, rfl, htoken, ?_⟩, hlt⟩
        rw [limitFor, hlimit]
      next hlimit =>
        split at hnext
        next hgets =>
          cases hnext
          refine ⟨⟨rfl, rfl, htoken, ?_⟩, Nat.lt_succ_self 5⟩
          rw [limitFor, hlimit]
          exact if_pos hgets
        next hgets =>
          have hwithin : Within deps e q job.issuerPubKey s.intents := by
            intro limit hlimit'
            rw [limitFor, hlimit] at hlimit'
            cases (if_neg hgets).symm.trans hlimit'
          exact submit_reached hjob htoken hwithin hnext (by simp [Stage.rank])
  | limiting intent =>
    obtain ⟨rfl, rfl, htoken, hlimit⟩ := h
    have hlimited := answer_eq_next hnext
    rw [limited.eq_def] at hlimited
    split at hlimited
    next limit hsome =>
      cases hlimited
      exact ⟨⟨rfl, rfl, htoken, hlimit.trans hsome⟩, Nat.lt_succ_self 4⟩
    next hnone =>
      have hwithin : Within deps e q job.issuerPubKey s.intents := by
        intro limit hlimit'
        cases (hlimit.trans hnone).symm.trans hlimit'
      exact submit_reached hjob htoken hwithin hlimited (by simp [Stage.rank])
  | listing intent limit =>
    obtain rfl := Turn.next.inj (answer_eq_next hnext)
    obtain ⟨rfl, rfl, htoken, hlimit⟩ := h
    exact ⟨⟨rfl, rfl, htoken, hlimit, rfl⟩, Nat.lt_succ_self 3⟩
  | listed intent limit allIntents =>
    obtain ⟨rfl, rfl, htoken, hlimit, rfl⟩ := h
    rw [runStage] at hnext ⊢
    split at hnext
    next hcheck =>
      have hwithin : Within deps e q job.issuerPubKey s.intents := by
        intro limit' hlimit'
        cases hlimit.symm.trans hlimit'
        rw [hjob.request] at hcheck
        exact hcheck
      exact submit_reached hjob htoken hwithin hnext (by simp [Stage.rank])
    · cases hnext
  | sending plan =>
    obtain ⟨rfl, htoken, hwithin, hasset, hamount⟩ := h
    rw [runStage] at hnext ⊢
    split at hnext
    next result hsend =>
      split at hnext
      · cases hnext
        obtain ⟨heq, htxHash⟩ := sendTransaction_txHash hsend
        rw [← heq] at hasset
        rw [hjob.request]
        refine ⟨⟨htoken, hwithin, hasset, htxHash, rfl, rfl, ?_⟩, Nat.lt_succ_self 1⟩
        rw [← hamount]
        rfl
      · cases hnext
    · cases hnext
  | updating result =>
    obtain rfl := Turn.next.inj (answer_eq_next hnext)
    obtain ⟨htoken, hwithin, hasset, htxHash, hlocks, hintents, hmints⟩ := h
    rw [runStage, if_pos he.stored]
    refine ⟨⟨hlocks, ?_⟩, Nat.lt_succ_self 0⟩
    rw [hjob.issuer] at hwithin
    refine .minted job.initialIntent result.asset result.txHash hjob.found htoken hwithin hasset
      htxHash ?_ hmints
    rw [← hintents, ← hjob.request]
  | updated result => cases hnext

/-- A call with the lock ends having served its request. -/
theorem Stage.Reached.exit (h : stage.Reached deps e q s job now) (he : e.InMemory)
    (hupdate : deps.updateTokenInfo = true) {outcome : Outcome}
    (hexit : (runStage deps e job stage now).2 = .exit outcome) :
    Served deps e q s (runStage deps e job stage now).1 := by
  have hanswer : ∀ turn, answer e turn = turn := fun turn => if_pos he.answered
  cases stage with
  | rereading | listing | updating => cases (hanswer _).symm.trans hexit
  | reread intent =>
    obtain ⟨rfl, rfl⟩ := h
    exact .refused rfl rfl
  | limiting | listed =>
    obtain ⟨rfl, rfl, -⟩ := h
    exact .refused rfl rfl
  | sending plan =>
    obtain ⟨rfl, -⟩ := h
    rw [runStage] at hexit ⊢
    split at hexit
    · dsimp only at hexit
      rw [if_pos hupdate] at hexit
      cases hexit
    · exact .refused rfl rfl
  | updated result => exact h.2

/-- Every segment goes on towards the end of the call. -/
theorem Pc.Reached.next (h : pc.Reached deps e q s now) (he : e.InMemory) (hs : Idle s.locks)
    (hnext : (resume deps e pc now).2 = .waiting pc') :
    pc'.Reached deps e q s (resume deps e pc now).1 ∧ pc'.rank < pc.rank := by
  cases pc with
  | finding request =>
    obtain ⟨rfl, rfl⟩ := h
    rw [resume] at hnext ⊢
    rw [if_pos he.answered] at hnext
    cases hnext
    exact ⟨⟨rfl, rfl, rfl⟩, Nat.lt_succ_self 9⟩
  | found request initialIntent =>
    obtain ⟨rfl, rfl, hfound⟩ := h
    cases initialIntent with
    | none => cases hnext
    | some initialIntent =>
      cases hnext
      exact ⟨⟨⟨rfl, hfound.symm, rfl, rfl⟩, rfl⟩, Nat.lt_succ_self 8⟩
  | queued job =>
    obtain ⟨hjob, rfl⟩ := h
    have hready : (s.lockedBy job).locks.ready job.ticket = true := by
      rw [hjob.ticket]
      exact hs.lined.ready_take hs.resolved job.issuerPubKey
    rw [resume, if_pos hready] at hnext ⊢
    cases hnext
    exact ⟨⟨hjob, rfl⟩, Nat.lt_succ_self 7⟩
  | inside job stage =>
    obtain ⟨hjob, hstage⟩ := h
    cases hturn : (runStage deps e job stage now).2 with
    | exit outcome =>
      rw [resume_exit hturn] at hnext
      cases hnext
    | next stage' =>
      rw [resume_next hturn] at hnext ⊢
      cases hnext
      obtain ⟨hreached, hrank⟩ := hstage.next hjob he hturn
      exact ⟨⟨hjob, hreached⟩, hrank⟩

theorem Stage.Reached.locks (h : stage.Reached deps e q s job now) :
    now.locks = s.locks.take job.issuerPubKey := by
  cases stage with
  | rereading =>
    obtain rfl := h
    rfl
  | reread intent => rw [h.2]; rfl
  | limiting | listing | listed => rw [h.2.1]; rfl
  | sending plan => rw [h.1]; rfl
  | updating result => exact h.2.2.2.2.1
  | updated result => exact h.1

theorem Pc.Reached.done (h : pc.Reached deps e q s now) (he : e.InMemory)
    (hupdate : deps.updateTokenInfo = true) (hs : Idle s.locks) {outcome : Outcome}
    (hdone : (resume deps e pc now).2 = .done outcome) :
    Idle (resume deps e pc now).1.locks ∧ Served deps e q s (resume deps e pc now).1 := by
  cases pc with
  | finding request =>
    rw [resume] at hdone
    rw [if_pos he.answered] at hdone
    cases hdone
  | found request initialIntent =>
    obtain ⟨rfl, rfl, hfound⟩ := h
    cases initialIntent with
    | none => exact ⟨hs, .refused rfl rfl⟩
    | some initialIntent => cases hdone
  | queued job => cases hdone
  | inside job stage =>
    obtain ⟨hjob, hstage⟩ := h
    cases hturn : (runStage deps e job stage now).2 with
    | next stage' =>
      rw [resume_next hturn] at hdone
      cases hdone
    | exit outcome' =>
      have hserved := hstage.exit he hupdate hturn
      rw [resume_exit hturn, hstage.locks, hjob.ticket]
      refine ⟨hs.take_release job.issuerPubKey, ?_⟩
      cases hserved with
      | refused hintents hmints => exact .refused hintents hmints
      | minted intent asset txHash hfound htoken hwithin hasset htxHash hintents hmints =>
        exact .minted intent asset txHash hfound htoken hwithin hasset htxHash hintents hmints

/-- **One call**: it comes to an end and gives its ticket back. It has
minted an intent without a token within the limit and recorded it, or it
has changed nothing. -/
theorem serve_spec (q : Request) (he : e.InMemory) (hupdate : deps.updateTokenInfo = true)
    (hs : Idle s.locks) :
    ∃ outcome, (serve deps e q s).2 = .done outcome ∧
      Idle (serve deps e q s).1.locks ∧ Served deps e q s (serve deps e q s).1 :=
  Coop.finish_spec Pc.rank (J := fun now pc => pc.Reached deps e q s now)
    (K := fun now _ => Idle now.locks ∧ Served deps e q s now)
    (fun _ _ _ h hnext => h.next he hs hnext) (fun _ _ _ h hdone => h.done he hupdate hs hdone)
    ⟨rfl, rfl⟩ (Nat.lt_succ_self 10)

/-! ## Amounts -/

/-- The units a transaction was for. -/
def Mint.units (deps : Deps) (mint : Mint) : ℚ :=
  match deps.parseFloat mint.amount with
  | .finite units => units
  | _ => 0

/-- The transaction was for an intent created in the period. -/
def mintedIn (deps : Deps) (limit : SupplierLimit) (intents : Intents) (mint : Mint) : Bool :=
  (intents.findById mint.intentId).any (limit.covers deps)

/-- The amounts minted for intents created in the period, in order. -/
def amounts (deps : Deps) (limit : SupplierLimit) (s : Server) : List ℚ :=
  (s.mints.filter (mintedIn deps limit s.intents)).map (Mint.units deps)

def total (amounts : List ℚ) : ℚ := amounts.foldr (· + ·) 0

/-- Amounts of one unit sum up to their number. -/
theorem total_of_units (h : ∀ a ∈ l, a = 1) : total l = l.length := by
  have hsum := sum_eq_card_nsmul l 1 h
  rwa [nsmul_one] at hsum

theorem total_of_dropLast_units (hne : l ≠ []) (h : ∀ a ∈ l.dropLast, a = 1) :
    total l = l.dropLast.length + l.getLast hne :=
  calc total l
    _ = total (l.dropLast ++ [l.getLast hne]) := by rw [dropLast_append_getLast]
    _ = total l.dropLast + total [l.getLast hne] := sum_append
    _ = l.dropLast.length + l.getLast hne := by
      rw [total_of_units h]
      exact congrArg _ (add_zero _)

theorem length_le_total (h : ∀ a ∈ l, 1 ≤ a) : (l.length : ℚ) ≤ total l := by
  have hsum := card_nsmul_le_sum l 1 h
  rwa [nsmul_one] at hsum

/-- The sum is the number only where every amount is of one unit. -/
theorem length_eq_total_iff (h : ∀ a ∈ l, 1 ≤ a) : (l.length : ℚ) = total l ↔ ∀ a ∈ l, a = 1 := by
  refine ⟨?_, fun hunits => (total_of_units hunits).symm⟩
  induction l with
  | nil => exact fun _ => nofun
  | cons a l ih =>
    obtain ⟨ha, hl⟩ := forall_mem_cons.mp h
    intro heq
    have htotal : total (a :: l) = a + total l := rfl
    have hrest := length_le_total hl
    rw [length_cons, Nat.cast_succ, htotal] at heq
    have hone : a = 1 := by linarith
    refine forall_mem_cons.mpr ⟨hone, ih hl ?_⟩
    linarith

/-! ## The count and the mints -/

/-- Without a `tokenAmount` every row counts as one unit. -/
theorem issuedUnits_eq_countP (h : ∀ i ∈ intents, i.tokenAmount = none) :
    issuedUnits deps limit supplier intents
      = (intents.countP (countsFor deps limit supplier) : ℚ) := by
  have hfold : ∀ (l : Intents) (units : ℚ), (∀ i ∈ l, i.tokenAmount = none) →
      l.foldl (fun units i => if countsFor deps limit supplier i then units + i.tokenAmount.getD 1
        else units) units = units + (l.countP (countsFor deps limit supplier) : ℚ) := by
    intro l
    induction l with
    | nil => exact fun units _ => (add_zero units).symm
    | cons i l ih =>
      intro units hl
      obtain ⟨hi, hl⟩ := forall_mem_cons.mp hl
      rw [foldl_cons, ih _ hl, countP_cons, hi]
      split
      · rw [Nat.cast_add, Option.getD_none, Nat.cast_one]
        ring
      · rfl
  exact (hfold intents 0 h).trans (zero_add _)

/-- A call of the sequence: over the repository in memory, with the
supplier as issuer, under the limit, for a positive number of units. -/
structure Admitted (deps : Deps) (limit : SupplierLimit) (supplier : String)
    (call : Request × Env) : Prop where
  inMemory : call.2.InMemory
  issuer : ∀ key, call.1.options.issuerPublicKey = some key → key = supplier
  limited : limitFor deps call.1 call.2 = some limit
  units : ∃ n : Nat, 0 < n ∧ deps.parseFloat call.1.amount = .finite n

/-- An intent of the supplier. -/
structure TokenIntent.Of (supplier : String) (intent : TokenIntent) : Prop where
  professional : intent.professional = supplier
  tokenAmount : intent.tokenAmount = none

/-- What holds between the calls; `before` is what was issued at first. -/
structure Sound (deps : Deps) (limit : SupplierLimit) (supplier : String) (before : ℚ)
    (s : Server) : Prop where
  idle : Idle s.locks
  intents : ∀ i ∈ s.intents, i.Of supplier
  counted : issuedUnits deps limit supplier s.intents = before + (amounts deps limit s).length
  units : ∀ a ∈ amounts deps limit s, 1 ≤ a
  /-- The last amount has passed the check. -/
  within : ∀ front a, amounts deps limit s = front ++ [a] →
    limit.maxUnits.lt (.finite (before + front.length + a)) = false

theorem checkIssuance_eq_ok {amount : String} {units : ℚ}
    (h : checkIssuance deps limit supplier amount intents = .ok ())
    (hamount : deps.parseFloat amount = .finite units) :
    limit.maxUnits.lt (.finite (issuedUnits deps limit supplier intents + units)) = false := by
  rw [checkIssuance, hamount] at h
  split at h
  · cases h
  next hnot => exact Bool.eq_false_iff.mpr hnot

/-- To record a token does not change which mints are in the period. -/
theorem mintedIn_updateTokenInfo (id asset txHash : String) :
    mintedIn deps limit (intents.updateTokenInfo id asset txHash) = mintedIn deps limit intents := by
  funext mint
  rw [mintedIn, mintedIn, findById_updateTokenInfo]
  split
  · cases intents.findById mint.intentId with
    | none => rfl
    | some intent => rfl
  · rfl

theorem of_updateTokenInfo (id asset txHash : String) (hall : ∀ i ∈ intents, i.Of supplier) :
    ∀ i ∈ intents.updateTokenInfo id asset txHash, i.Of supplier :=
  forall_mem_modify (fun _ hi => ⟨hi.professional, hi.tokenAmount⟩) hall

/-- An intent that is recorded counts from then on, if it was created in
the period. -/
theorem issuedUnits_updateTokenInfo {id asset txHash : String} (hall : ∀ i ∈ intents, i.Of supplier)
    (hfound : intents.findById id = some intent) (htoken : intent.token = none)
    (hasset : asset ≠ "") (htxHash : txHash ≠ "") :
    issuedUnits deps limit supplier (intents.updateTokenInfo id asset txHash)
      = issuedUnits deps limit supplier intents + if limit.covers deps intent then 1 else 0 := by
  have hprofessional := (hall intent (mem_of_get hfound)).professional
  have hbefore : countsFor deps limit supplier intent = false := by simp [countsFor, htoken]
  have hafter : countsFor deps limit supplier
      { intent with tokenAsset := some asset, mintTxHash := some txHash }
        = limit.covers deps intent := by
    simp [countsFor, TokenIntent.token, hasset, htxHash, hprofessional, SupplierLimit.covers]
  have hcount := countP_modify
    (f := fun intent : TokenIntent =>
      { intent with tokenAsset := some asset, mintTxHash := some txHash })
    (countsFor deps limit supplier) hfound
  rw [hbefore, hafter, if_neg Bool.false_ne_true, Nat.add_zero] at hcount
  rw [issuedUnits_eq_countP fun i hi => (of_updateTokenInfo id asset txHash hall i hi).tokenAmount,
    issuedUnits_eq_countP fun i hi => (hall i hi).tokenAmount, Intents.updateTokenInfo, hcount]
  split
  · rw [Nat.cast_add, Nat.cast_one]
  · rw [Nat.add_zero, add_zero]

theorem amounts_minted {asset txHash : String} {n : Nat}
    (hfound : s.intents.findById q.intentId = some intent)
    (hintents : s'.intents = s.intents.updateTokenInfo q.intentId asset txHash)
    (hmints : s'.mints = s.mints ++ [⟨q.intentId, q.amount, txHash⟩])
    (hunits : deps.parseFloat q.amount = .finite n) :
    amounts deps limit s'
      = amounts deps limit s ++ if limit.covers deps intent then [(n : ℚ)] else [] := by
  have hin : mintedIn deps limit s.intents ⟨q.intentId, q.amount, txHash⟩
      = limit.covers deps intent := by
    rw [mintedIn, hfound]
    rfl
  have hn : Mint.units deps ⟨q.intentId, q.amount, txHash⟩ = n := by
    rw [Mint.units, hunits]
  rw [amounts, hmints, hintents, mintedIn_updateTokenInfo, filter_append, map_append,
    filter_singleton, hin]
  cases limit.covers deps intent with
  | false => rfl
  | true => exact congrArg (amounts deps limit s ++ [·]) hn

theorem Served.sound {call : Request × Env} {before : ℚ} (hserved : Served deps call.2 call.1 s s')
    (h : Sound deps limit supplier before s) (hcall : Admitted deps limit supplier call)
    (hidle : Idle s'.locks) : Sound deps limit supplier before s' := by
  cases hserved with
  | refused hintents hmints =>
    have hamounts : amounts deps limit s' = amounts deps limit s := by
      rw [amounts, hintents, hmints]
      rfl
    refine ⟨hidle, ?_, ?_, ?_, ?_⟩
    · rw [hintents]
      exact h.intents
    · rw [hintents, hamounts]
      exact h.counted
    · rw [hamounts]
      exact h.units
    · rw [hamounts]
      exact h.within
  | minted intent asset txHash hfound htoken hwithin hasset htxHash hintents hmints =>
    obtain ⟨n, hpos, hunits⟩ := hcall.units
    have hissuer : call.1.issuer intent = supplier := by
      rw [Request.issuer]
      cases hkey : call.1.options.issuerPublicKey with
      | none => exact (h.intents intent (mem_of_get hfound)).professional
      | some key => exact hcall.issuer key hkey
    have hissued : issuedUnits deps limit supplier s'.intents
        = issuedUnits deps limit supplier s.intents + if limit.covers deps intent then 1 else 0 := by
      rw [hintents]
      exact issuedUnits_updateTokenInfo h.intents hfound htoken hasset htxHash
    have hamounts : amounts deps limit s'
        = amounts deps limit s ++ if limit.covers deps intent then [(n : ℚ)] else [] :=
      amounts_minted hfound hintents hmints hunits
    have hchecked := checkIssuance_eq_ok (hwithin limit hcall.limited) hunits
    rw [hissuer, h.counted] at hchecked
    have hall : ∀ i ∈ s'.intents, i.Of supplier := by
      rw [hintents]
      exact of_updateTokenInfo _ _ _ h.intents
    rw [h.counted] at hissued
    by_cases hcovers : limit.covers deps intent = true
    · rw [if_pos hcovers] at hissued hamounts
      refine ⟨hidle, hall, ?_, ?_, ?_⟩
      · rw [hissued, hamounts, length_append, length_singleton, Nat.cast_add,
          Nat.cast_one, add_assoc]
      · rw [hamounts]
        exact forall_mem_concat h.units (mod_cast hpos)
      · intro front a heq
        obtain ⟨rfl, ha⟩ := append_inj' (hamounts.symm.trans heq) rfl
        rw [← singleton_inj.mp ha]
        exact hchecked
    · rw [if_neg hcovers] at hissued hamounts
      rw [append_nil] at hamounts
      refine ⟨hidle, hall, ?_, ?_, ?_⟩
      · rw [hissued, hamounts, add_zero]
      · rw [hamounts]
        exact h.units
      · rw [hamounts]
        exact h.within

/-- The state after calls one after the other. -/
def serveAll (deps : Deps) (s : Server) (calls : List (Request × Env)) : Server :=
  calls.foldl (fun s call => (serve deps call.2 call.1 s).1) s

theorem Sound.serveAll {before : ℚ} (hupdate : deps.updateTokenInfo = true)
    (h : Sound deps limit supplier before s) {calls : List (Request × Env)}
    (hcalls : ∀ call ∈ calls, Admitted deps limit supplier call) :
    Sound deps limit supplier before (serveAll deps s calls) := by
  induction calls generalizing s with
  | nil => exact h
  | cons call calls ih =>
    obtain ⟨hcall, hcalls⟩ := forall_mem_cons.mp hcalls
    obtain ⟨outcome, -, hidle, hserved⟩ := serve_spec call.1 hcall.inMemory hupdate h.idle
    exact ih (hserved.sound h hcall hidle) hcalls

theorem sound_started (h : ∀ i ∈ intents, i.Of supplier) :
    Sound deps limit supplier (issuedUnits deps limit supplier intents) { intents } where
  idle := ⟨lined_empty, fun t ht => absurd ht (Nat.not_lt_zero t)⟩
  intents := h
  counted := (add_zero _).symm
  units a ha := absurd ha not_mem_nil
  within front a heq := absurd heq.symm (append_ne_nil_of_right_ne_nil front (by simp))

/-- What is within a limit stays so when it is less. -/
theorem JsNumber.lt_eq_false_of_le {m : JsNumber} {x y : ℚ} (h : m.lt (.finite y) = false)
    (hle : x ≤ y) : m.lt (.finite x) = false := by
  cases m with
  | nan => rfl
  | negInfinite => cases h
  | posInfinite => rfl
  | finite m =>
    have hm : ¬ m < y := of_decide_eq_false h
    exact decide_eq_false fun hlt => hm (hlt.trans_le hle)

def tenUnits : SupplierLimit := ⟨.finite 10, some 0, some 0⟩

def mintCall (intentId amount : String) : Request × Env :=
  (⟨intentId, { amount := some amount, supplierLimit := some tenUnits }⟩, {})

theorem mintCall_admitted {amount : String} {n : Nat} (hn : 0 < n)
    (hamount : plainDeps.parseFloat amount = .finite n) (intentId : String) :
    Admitted plainDeps tenUnits "pro" (mintCall intentId amount) where
  inMemory := ⟨rfl, rfl⟩
  issuer _ hkey := absurd hkey nofun
  limited := rfl
  units := ⟨n, hn, hamount⟩

end ChronoPay.TokenService
