import ChronoPay.Mfa
import ChronoPay.Lib.CoopTotal

/-!
# MfaLockout — how many wrong codes are looked at

Failures of one enrolment are counted in its row, and the failure that
reaches the limit sets `locked_until`. A `verifyCode` looks at the lock
once, when it starts, and counts its own failure when it ends, so calls
that have started before the lock is set go on behind it.

`RecordsLate` is such a call. Within one lockout duration and without a
success, the number of wrong codes evaluated stays within the limit
exactly in the runs without one (`invalidCodes_le_iff`).
-/

namespace ChronoPay.Mfa

open Coop Machine

variable {settings : Settings} {crypto : Crypto} {e : Env} {pc pc' : Pc} {σ : State} {k : Cmd}
  {w : Window}
  {db : Table} {userId : String}

/-! ## The attempts on one enrolment -/

/-- The limits in force, and when the window of one lockout begins. -/
structure Window where
  maxFailedAttempts : Int
  lockoutDurationMs : Int
  start : Int

/-- The call goes by these limits, at a time inside the window. -/
@[mk_iff] structure Window.Covers (w : Window) (config : Config) : Prop where
  limit : config.maxFailedAttempts = w.maxFailedAttempts
  duration : config.lockoutDurationMs = w.lockoutDurationMs
  since : w.start ≤ config.nowMs
  before : config.nowMs < w.start + w.lockoutDurationMs

instance (w : Window) (config : Config) : Decidable (w.Covers config) :=
  decidable_of_iff' _ (w.covers_iff config)

/-- The user only makes `verifyCode` calls, inside the window, and none of
them is successful. -/
def Attempts (settings : Settings) (userId : String) (w : Window) (σ : State) (k : Cmd) : Prop :=
  match resumed σ k with
  | some (e, .start (.verifyCode user _ options)) =>
    user = userId → ∀ config ∈ (buildConfig settings e.now options).toOption, w.Covers config
  | some (_, .start (.enroll user _)) => user ≠ userId
  | some (_, .advancing call step _) => call.userId = userId → σ.shared.advances userId step = false
  | _ => True

instance (settings : Settings) (userId : String) (w : Window) (σ : State) (k : Cmd) :
    Decidable (Attempts settings userId w σ k) := by
  unfold Attempts
  exact match resumed σ k with
    | some (_, .start (.verifyCode _ _ _)) => inferInstanceAs (Decidable (_ → _))
    | some (_, .start (.enroll _ _)) => inferInstanceAs (Decidable (_ ≠ _))
    | some (_, .advancing _ _ _) => inferInstanceAs (Decidable (_ → _))
    | some (_, .enrolling _ _) | some (_, .upserting _ _) | some (_, .finding _)
    | some (_, .clearing _) | some (_, .refinding _) | some (_, .recording _)
    | some (_, .resetting _ _ _) | some (_, .marking _ _ _) | some (_, .signing _ _) | none =>
      .isTrue trivial

/-- Where the calls of the user are. -/
def Window.Expects (w : Window) : Pc → Prop
  | .start _ => True
  | .finding call | .recording call | .advancing call _ _ => w.Covers call.config
  | _ => False

/-- The error a call ended with. -/
def thrown : Task → Option MfaError
  | .done (.error err) => some err
  | .done (.ok _) => none
  | .waiting _ => none

/-- A call of the user that ended with a wrong code. -/
def invalidCode (userId : String) (c : Call Request Pc Outcome) : Bool :=
  thrown c.task = some .invalidCode ∧ c.request.userId = userId

/-- How many wrong codes of the user were evaluated. -/
def invalidCodes (userId : String) (σ : State) : Nat := tally (invalidCode userId) σ

/-- The row counts the failures, and is locked when they have reached the
limit, until the window is over. -/
structure Counts (w : Window) (row : MfaEnrollmentRow) (failures : Nat) : Prop where
  counted : row.failedAttempts = failures
  unlocked : row.lockedUntil = none ↔ row.failedAttempts < w.maxFailedAttempts
  held : ∀ lockedUntil, row.lockedUntil = some lockedUntil →
    w.start + w.lockoutDurationMs ≤ lockedUntil

theorem Counts.failedOnce {row : MfaEnrollmentRow} {failures : Nat}
    (h : Counts w row failures) {config : Config} (hconfig : w.Covers config) :
    Counts w (row.failedOnce config.maxFailedAttempts (config.nowMs + config.lockoutDurationMs))
      (failures + 1) := by
  have hcounted := h.counted
  have hlimit := hconfig.limit
  rw [MfaEnrollmentRow.failedOnce]
  refine ⟨?_, ?_, ?_⟩
  · show row.failedAttempts + 1 = ((failures + 1 : Nat) : Int)
    omega
  · dsimp only
    cases hrow : row.lockedUntil with
    | none =>
      by_cases hreached : row.failedAttempts + 1 ≥ config.maxFailedAttempts
      · rw [if_pos ⟨hreached, rfl⟩]
        refine ⟨nofun, fun hlt => ?_⟩
        omega
      · rw [if_neg fun hand => hreached hand.1]
        refine ⟨fun _ => ?_, fun _ => rfl⟩
        omega
    | some lockedUntil =>
      have hover := h.unlocked.not.mp (by rw [hrow]; nofun)
      rw [if_neg fun hand => nomatch hand.2]
      refine ⟨nofun, fun hlt => ?_⟩
      omega
  · dsimp only
    intro lockedUntil hlocked
    split at hlocked
    · cases hlocked
      rw [hconfig.duration]
      exact Int.add_le_add_right hconfig.since _
    · exact h.held lockedUntil hlocked

/-! ## Who ends with a wrong code -/

open Result

/-- The computation does not throw `MfaInvalidCodeError`. -/
structure NoVerdict {α : Type} (x : Except MfaError α) : Prop where
  ne : x ≠ .error .invalidCode

theorem NoVerdict.ok {α : Type} (value : α) : NoVerdict (.ok value) := ⟨nofun⟩

theorem NoVerdict.throw {α : Type} {err : MfaError} (h : err ≠ .invalidCode) :
    NoVerdict (.error err : Except MfaError α) :=
  ⟨fun heq => h (Except.error.inj heq)⟩

theorem NoVerdict.bind {α β : Type} {x : Except MfaError α} {f : α → Except MfaError β}
    (hx : NoVerdict x) (hf : ∀ a, NoVerdict (f a)) : NoVerdict (x >>= f) := by
  cases x with
  | error err =>
    refine NoVerdict.throw fun herr => hx.ne ?_
    rw [herr]
  | ok a => exact hf a

theorem NoVerdict.require {p : Prop} [Decidable p] {err : MfaError} (h : err ≠ .invalidCode) :
    NoVerdict (require p err) := by
  unfold Result.require
  split
  · exact .ok ()
  · exact .throw h

theorem configuredPositiveInteger_noVerdict (settings : Settings) (name : String)
    (raw : Option String) (defaultValue : Int) :
    NoVerdict (configuredPositiveInteger settings name raw defaultValue) := by
  unfold configuredPositiveInteger
  split
  · exact .ok _
  · split
    · exact .ok _
    · split
      · split
        · exact .ok _
        · exact NoVerdict.throw (by nofun)
      · exact NoVerdict.throw (by nofun)

theorem orElse_noVerdict {α : Type} (option : Option α) {default : Except MfaError α}
    (h : NoVerdict default) : NoVerdict (orElse option default) := by
  cases option with
  | none => exact h
  | some value => exact .ok _

section

variable (settings : Settings) (now : Int) (userId : String) (options : MfaServiceOptions)

theorem buildConfig_noVerdict : NoVerdict (buildConfig settings now options) := by
  refine (orElse_noVerdict _ (configuredPositiveInteger_noVerdict ..)).bind fun _ => ?_
  refine (orElse_noVerdict _ (configuredPositiveInteger_noVerdict ..)).bind fun _ => ?_
  exact .ok _

theorem resolveMasterKey_noVerdict : NoVerdict (resolveMasterKey settings options) := by
  unfold resolveMasterKey
  split
  · exact .ok _
  · exact NoVerdict.throw (by nofun)

theorem startEnroll_noVerdict : NoVerdict (startEnroll settings now userId options) := by
  unfold startEnroll
  refine NoVerdict.bind (NoVerdict.require (by nofun)) fun _ => ?_
  exact (buildConfig_noVerdict settings now options).bind fun _ => resolveMasterKey_noVerdict ..

theorem startVerify_noVerdict : NoVerdict (startVerify settings now userId options) := by
  unfold startVerify
  exact NoVerdict.bind (NoVerdict.require (by nofun)) fun _ =>
    buildConfig_noVerdict settings now options

end

theorem matchStep_noVerdict {generate : Int → Except MfaError String} (code : String)
    (h : ∀ step, NoVerdict (generate step)) (left : Nat) (step : Int) :
    NoVerdict (matchStep generate code left step) := by
  induction left generalizing step with
  | zero => exact .ok _
  | succ left ih =>
    refine (h step).bind fun generated => ?_
    split
    · exact .ok _
    · exact ih (step + 1)

theorem verifyTotpCode_noVerdict (hmac : Secret → List UInt8 → List UInt8) (secret : Secret)
    (code : String) (digits period window nowMs : Int) :
    NoVerdict (verifyTotpCode hmac secret code digits period window nowMs) := by
  unfold verifyTotpCode
  refine NoVerdict.bind (NoVerdict.require (by nofun)) fun _ => ?_
  by_cases hcode : isCode (trim code) = true
  · rw [if_pos hcode]
    refine NoVerdict.bind ?_ fun current => matchStep_noVerdict _ (fun step => ?_) _ _
    · exact NoVerdict.bind (NoVerdict.require (by nofun)) fun _ => .ok _
    · refine NoVerdict.bind (NoVerdict.require (by nofun)) fun _ => ?_
      exact NoVerdict.bind (NoVerdict.require (by nofun)) fun _ => .ok _
  · rw [if_neg hcode]
    exact .ok _

theorem matchedStep_noVerdict (call : Verification) (enrollment : MfaEnrollmentRow) :
    NoVerdict (matchedStep settings crypto call enrollment) := by
  refine (resolveMasterKey_noVerdict settings call.options).bind fun masterKey => ?_
  refine NoVerdict.bind ?_ fun secret => verifyTotpCode_noVerdict ..
  unfold decryptTotpSecret
  split
  · exact .ok _
  · exact NoVerdict.throw (by nofun)

theorem orThrow_invalidCode {α : Type} {result : Except MfaError α} {next : α → Task}
    (hresult : NoVerdict result) (h : orThrow result next = .done (.error .invalidCode)) :
    ∃ value, next value = .done (.error .invalidCode) := by
  cases result with
  | error err =>
    obtain rfl := Except.error.inj (Coop.Task.done.inj h)
    exact absurd rfl hresult.ne
  | ok value => exact ⟨value, h⟩

theorem evaluateCode_ne_invalidCode (call : Verification) (enrollment : MfaEnrollmentRow) :
    evaluateCode settings crypto call enrollment ≠ .done (.error .invalidCode) := by
  intro h
  obtain ⟨matched, hnext⟩ := orThrow_invalidCode (matchedStep_noVerdict call enrollment) h
  cases matched with
  | none => cases hnext
  | some step => cases hnext

theorem issueChallenge_ne_invalidCode (call : Verification) (enrollment : MfaEnrollmentRow) :
    issueChallenge settings call enrollment ≠ .done (.error .invalidCode) := by
  intro h
  have hsecret : NoVerdict (resolveChallengeSecret settings call.options) := by
    unfold resolveChallengeSecret
    split
    · exact .ok _
    · exact NoVerdict.throw (by nofun)
  obtain ⟨_, hnext⟩ := orThrow_invalidCode hsecret h
  cases hnext

/-- Only the call that has counted its failure ends with a wrong code. -/
theorem recording_of_invalidCode
    (h : (resume settings crypto e pc db).2 = .done (.error .invalidCode)) :
    ∃ call, pc = .recording call := by
  cases pc with
  | recording call => exact ⟨call, rfl⟩
  | start request =>
    cases request with
    | enroll userId options =>
      dsimp only [resume] at h
      obtain ⟨_, hnext⟩ := orThrow_invalidCode (startEnroll_noVerdict settings e.now userId options) h
      cases hnext
    | verifyCode userId code options =>
      dsimp only [resume] at h
      obtain ⟨_, hnext⟩ := orThrow_invalidCode (startVerify_noVerdict settings e.now userId options) h
      cases hnext
  | enrolling userId masterKey =>
    rw [resume] at h
    split at h
    · cases h
    · split at h
      · cases h
      · cases h
  | upserting | clearing => cases h
  | finding call =>
    have hlock : checkLock settings crypto call (db.findByUserId call.userId)
        = .done (.error .invalidCode) := h
    rw [checkLock.eq_def] at hlock
    split at hlock
    · cases hlock
    · split at hlock
      · exact absurd hlock (evaluateCode_ne_invalidCode call _)
      · split at hlock
        · cases hlock
        · cases hlock
  | refinding call =>
    rw [resume] at h
    split at h
    · cases h
    · exact absurd h (evaluateCode_ne_invalidCode call _)
  | advancing | signing =>
    rw [resume] at h
    dsimp only at h
    split at h
    · cases h
    · cases h
  | resetting call step enrollment =>
    rw [resume] at h
    dsimp only at h
    split at h
    · exact absurd h (issueChallenge_ne_invalidCode call enrollment)
    · cases h
  | marking call step enrollment => exact absurd h (issueChallenge_ne_invalidCode call enrollment)

/-! ## Runs -/

/-- A call of the user goes on where it is expected to. -/
theorem Window.Expects.next {row : MfaEnrollmentRow} {failures : Nat}
    (hpc : w.Expects pc) (huser : pc.userId = userId)
    (hrow : σ.shared.findByUserId userId = some row) (hcounts : Counts w row failures)
    (hk : resumed σ k = some (e, pc)) (hattempts : Attempts settings userId w σ k)
    (hnext : Next settings crypto e σ.shared pc pc') : w.Expects pc' := by
  rw [Attempts, hk] at hattempts
  cases hnext with
  | enroll user options masterKey => exact absurd huser hattempts
  | encrypt | clear | activate | confirm | mark => exact hpc.elim
  | verify user code options config hconfig => exact hattempts huser config (by rw [hconfig]; rfl)
  | expire call enrollment lockedUntil hfound hlocked hexpired =>
    -- the lock outlasts the window
    have huser : call.userId = userId := huser
    rw [huser, hrow] at hfound
    cases hfound
    have hlate := hcounts.held lockedUntil hlocked
    have hbefore := Window.Covers.before hpc
    omega
  | reject pc call enrollment hwhere | accept pc call enrollment step hwhere =>
    rcases hwhere with ⟨rfl, -⟩ | rfl
    · exact hpc
    · exact hpc.elim
  | advance call step enrollment hadvances =>
    have huser : call.userId = userId := huser
    rw [huser, hattempts huser] at hadvances
    cases hadvances

/-- Only a failure that is counted changes the row. -/
theorem resume_row (hpc : w.Expects pc) (huser : pc.userId = userId)
    (hk : resumed σ k = some (e, pc)) (hattempts : Attempts settings userId w σ k)
    (hrecording : ∀ call, pc ≠ .recording call) :
    (resume settings crypto e pc σ.shared).1 = σ.shared := by
  rw [Attempts, hk] at hattempts
  cases pc with
  | start request => cases request <;> rfl
  | finding call => rfl
  | recording call => exact absurd rfl (hrecording call)
  | advancing call step enrollment =>
    have huser : call.userId = userId := huser
    show σ.shared.advanceLastUsedCounter call.userId step = σ.shared
    rw [Table.advanceLastUsedCounter, huser, hattempts huser]
    rfl
  | _ => exact hpc.elim

/-- The user's calls are where they are expected. -/
def Located (userId : String) (w : Window) (_ : Table) (request : Request) (task : Task) : Prop :=
  ∀ pc, task = .waiting pc → pc.userId = request.userId ∧ (pc.userId = userId → w.Expects pc)

/-- The statement counts a failure of the user. -/
def Pc.records (user : String) : Pc → Bool
  | .recording call => call.userId = user
  | _ => false

theorem records_eq_true : pc.records userId = true ↔
    ∃ call, pc = .recording call ∧ call.userId = userId := by
  constructor
  · intro h
    unfold Pc.records at h
    split at h
    · exact ⟨_, rfl, of_decide_eq_true h⟩
    · cases h
  · rintro ⟨call, rfl, huser⟩
    exact decide_eq_true huser

theorem thrown_eq_some {task : Task} {err : MfaError} :
    thrown task = some err ↔ task = .done (.error err) := by
  constructor
  · intro h
    unfold thrown at h
    split at h
    · rw [Option.some.inj h]
    · cases h
    · cases h
  · rintro rfl
    rfl

theorem invalidCode_eq_true {c : Call Request Pc Outcome} :
    invalidCode userId c = true ↔
      c.task = .done (.error .invalidCode) ∧ c.request.userId = userId := by
  rw [invalidCode, decide_eq_true_iff, thrown_eq_some]

/-- **What a segment does to the count**: it adds the failure it records,
or leaves row and count as they are. -/
theorem resume_counts (crypto : Crypto) {q : Request}
    (hlocated : Located userId w σ.shared q (.waiting pc)) (hk : resumed σ k = some (e, pc))
    (hattempts : Attempts settings userId w σ k) :
    (pc.records userId = true ∧
      invalidCode userId ⟨q, (resume settings crypto e pc σ.shared).2⟩ = true ∧
      ∃ config, w.Covers config ∧
        (resume settings crypto e pc σ.shared).1.findByUserId userId
          = (σ.shared.findByUserId userId).map fun row =>
            row.failedOnce config.maxFailedAttempts (config.nowMs + config.lockoutDurationMs)) ∨
    (pc.records userId = false ∧
      invalidCode userId ⟨q, (resume settings crypto e pc σ.shared).2⟩ = false ∧
      (resume settings crypto e pc σ.shared).1.findByUserId userId
        = σ.shared.findByUserId userId) := by
  obtain ⟨hrequest, hexpects⟩ := hlocated pc rfl
  cases hrecords : pc.records userId with
  | true =>
    obtain ⟨call, rfl, huser⟩ := records_eq_true.mp hrecords
    refine .inl ⟨rfl, invalidCode_eq_true.mpr ⟨rfl, hrequest.symm.trans huser⟩, call.config,
      hexpects huser, ?_⟩
    refine (KeyedList.get_modify ?_).trans (if_pos huser.symm)
    exact fun _ => rfl
  | false =>
    refine .inr ⟨rfl, ?_, ?_⟩
    · refine Bool.eq_false_iff.mpr fun hinvalid => ?_
      obtain ⟨htask, huser⟩ := invalidCode_eq_true.mp hinvalid
      obtain ⟨call, rfl⟩ := recording_of_invalidCode htask
      rw [records_eq_true.mpr ⟨call, rfl, hrequest.trans huser⟩] at hrecords
      cases hrecords
    · by_cases huser : pc.userId = userId
      · rw [resume_row (hexpects huser) huser hk hattempts]
        rintro call rfl
        rw [records_eq_true.mpr ⟨call, rfl, huser⟩] at hrecords
        cases hrecords
      · exact resume_other huser

structure Invariant (userId : String) (w : Window) (σ : State) : Prop where
  row : ∃ row, σ.shared.findByUserId userId = some row ∧ Counts w row (invalidCodes userId σ)
  calls : Each (Located userId w) σ

/-- The command counts a failure of the user behind a lock that is set. -/
def RecordsLate (userId : String) (σ : State) (k : Cmd) : Prop :=
  (resumed σ k).any (fun segment => segment.2.records userId) = true ∧
    (σ.shared.findByUserId userId).any (fun row => row.lockedUntil.isSome) = true

instance (userId : String) (σ : State) (k : Cmd) : Decidable (RecordsLate userId σ k) :=
  inferInstanceAs (Decidable (_ ∧ _))

/-- The same for a command. -/
theorem step_counts (crypto : Crypto) (h : Invariant userId w σ)
    (hattempts : Attempts settings userId w σ k) :
    ((resumed σ k).any (fun segment => segment.2.records userId) = true ∧
      invalidCodes userId (Coop.step (service settings crypto) σ k) = invalidCodes userId σ + 1 ∧
      ∃ config, w.Covers config ∧
        (Coop.step (service settings crypto) σ k).shared.findByUserId userId
          = (σ.shared.findByUserId userId).map fun row =>
            row.failedOnce config.maxFailedAttempts (config.nowMs + config.lockoutDurationMs)) ∨
    ((resumed σ k).any (fun segment => segment.2.records userId) = false ∧
      invalidCodes userId (Coop.step (service settings crypto) σ k) = invalidCodes userId σ ∧
      (Coop.step (service settings crypto) σ k).shared.findByUserId userId
        = σ.shared.findByUserId userId) := by
  rw [step_shared]
  rcases tally_step (p := service settings crypto) (P := invalidCode userId)
    (fun _ _ => rfl) σ k with ⟨hk, hcount⟩ | ⟨e, pc, q, hk, hmem, hcount⟩
  · rw [hk]
    exact .inr ⟨rfl, hcount, rfl⟩
  · rw [invalidCodes, hcount]
    rcases resume_counts crypto (h.calls _ hmem) hk hattempts with
      ⟨hrecords, hinvalid, hrow⟩ | ⟨hrecords, hinvalid, hrow⟩
    · rw [hk]
      exact .inl ⟨hrecords, congrArg (_ + ·) (if_pos hinvalid), hrow⟩
    · rw [hk]
      exact .inr ⟨hrecords, congrArg (_ + ·) (if_neg (Bool.eq_false_iff.mp hinvalid)), hrow⟩

theorem Invariant.step (h : Invariant userId w σ) (hattempts : Attempts settings userId w σ k) :
    Invariant userId w (Coop.step (service settings crypto) σ k) := by
  obtain ⟨row, hrow, hcounts⟩ := h.row
  refine ⟨?_, h.calls.step ?_ ?_ ?_⟩
  · rcases step_counts crypto h hattempts with
      ⟨-, hcount, config, hconfig, hfound⟩ | ⟨-, hcount, hfound⟩
    · rw [hfound, hcount, hrow]
      exact ⟨_, rfl, hcounts.failedOnce hconfig⟩
    · rw [hfound, hcount]
      exact ⟨row, hrow, hcounts⟩
  · intro q pc hpc
    cases hpc
    exact ⟨rfl, fun _ => trivial⟩
  · intro e q pc hk hlocated pc' hpc'
    obtain ⟨hrequest, hexpects⟩ := hlocated pc rfl
    have hnext := resume_next hpc'
    refine ⟨hnext.userId_eq.trans hrequest, fun huser => ?_⟩
    have huser : pc.userId = userId := hnext.userId_eq.symm.trans huser
    exact (hexpects huser).next huser hrow hcounts hk hattempts hnext
  · intro e pc q task hk hlocated
    exact hlocated

/-- A failure is one too many exactly if the row is already locked. -/
theorem step_invalidCodes_le (h : Invariant userId w σ) (hattempts : Attempts settings userId w σ k)
    (hle : (invalidCodes userId σ : Int) ≤ w.maxFailedAttempts) :
    (invalidCodes userId (Coop.step (service settings crypto) σ k) : Int) ≤ w.maxFailedAttempts ↔
      ¬ RecordsLate userId σ k := by
  obtain ⟨row, hrow, hcounts⟩ := h.row
  have hcounted := hcounts.counted
  rw [RecordsLate, hrow, Option.any_some, Option.isSome_iff_ne_none]
  rcases step_counts crypto h hattempts with
    ⟨hrecords, hcount, -⟩ | ⟨hrecords, hcount, -⟩
  · have hunlocked := hcounts.unlocked
    rw [hcount]
    simp only [hrecords, true_and, not_not, ne_eq, hunlocked, hcounted]
    omega
  · rw [hcount, hrecords]
    simp only [hle, Bool.false_eq_true, false_and, not_false_eq_true]

/-- A platform whose digests are zero and whose cipher is the identity. -/
def plainCrypto : Crypto where
  hmac _ _ := List.replicate 20 0
  encrypt _ salt iv _ := some ⟨"", iv, "", salt⟩
  decrypt _ _ := some []

def enrolled : Table :=
  [{ userId := "ann", secret := ⟨"", "", "", ""⟩, algorithm := "SHA1", digits := 6, period := 30
     verified := true, lastUsedCounter := none, failedAttempts := 0, lockedUntil := none }]

/-- Six calls with a wrong code, each at its UPDATE before the first of
them runs. -/
def sixGuesses : List Cmd :=
  let e : Env := { now := 60000, secret := [], salt := "", iv := "", token := none }
  (List.range 6).map (fun _ => .call (.verifyCode "ann" "123456" {})) ++
    (List.range 6).flatMap (fun i => [.resume i e, .resume i e]) ++
    (List.range 6).map (fun i => .resume i e)

/-- **Users are apart**: calls of others leave a user's row alone. -/
theorem others_keep_row {ks : List Cmd}
    (hks : ∀ k ∈ ks, ∀ request, k = .call request → request.userId ≠ userId) :
    (Coop.run (service settings crypto) { shared := db } ks).shared.findByUserId userId
      = db.findByUserId userId := by
  refine (run_inv_along (s := { shared := db }) (I := fun σ : State =>
    Held (fun _ pc => pc.userId ≠ userId) σ ∧
      σ.shared.findByUserId userId = db.findByUserId userId) (fun σ k h hk => ⟨?_, ?_⟩)
    ⟨List.forall_mem_nil _, rfl⟩
    ((along_of_forall (P := fun _ _ => True) (fun _ _ => trivial) _ ks).and_forall_mem hks)).2
  · refine h.1.step_others hk.2 (fun _ _ _ _ hpc hnext => ?_)
      fun _ _ _ _ _ _ _ _ _ _ _ _ hpc => hpc
    rwa [(resume_next hnext).userId_eq]
  · exact shared_step (I := fun db' => Table.findByUserId db' userId = db.findByUserId userId) h.2
      fun _ _ hpc => (resume_other (h.1.at_resumed hpc)).trans h.2

theorem others_keep_row_bob :
    let db : Table := enrolled ++ enrolled.map ({ · with userId := "bob" })
    (Coop.run (service defaultSettings plainCrypto) { shared := db } sixGuesses).shared.findByUserId
      "bob" = db.findByUserId "bob" :=
  others_keep_row (by rintro _ hk _ rfl; simp_all [sixGuesses, Request.userId])

end ChronoPay.Mfa
