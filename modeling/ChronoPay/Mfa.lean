import Mathlib.Algebra.Group.Nat.Defs
import ChronoPay.JsText
import ChronoPay.Lib.Coop
import ChronoPay.Lib.KeyedList
import ChronoPay.Lib.Result

/-!
# Mfa — enrolment and codes

`enroll` and `verifyCode` over the table `mfa_enrollments`. Each statement
of the repository is one query, so the database runs it as a whole, and a
call is suspended at every one of them: between the SELECT that shows a
row unlocked and the UPDATE that counts a failure anything may run.

A statement is carried out when its call is resumed. HMAC, the cipher and
the signature of a challenge are parameters. What goes to the audit log
is left out: nothing waits for it.
-/

namespace ChronoPay.Mfa

open KeyedList Result

/-! ## Errors -/

inductive MfaError where
  /-- `new Error("Token subject missing")` -/
  | subjectMissing
  | configuration (detail : String)
  | notEnrolled
  | alreadyEnrolled
  | invalidCode
  | locked
  | replayDetected
  | rangeError (message : String)
  /-- `encryptTotpSecret` or `decryptTotpSecret` threw. -/
  | crypto
  /-- `signJwt` rejected. -/
  | unsigned
  deriving DecidableEq, Repr

/-! ## Codes -/

abbrev Secret := List UInt8

/-- `counterBuffer.writeBigUInt64BE(BigInt(counter))` -/
def counterBuffer (counter : Nat) : List UInt8 :=
  (List.range 8).map fun i => UInt8.ofNat (counter / 256 ^ (7 - i))

/-- The dynamic truncation of a digest. -/
def truncate (digest : List UInt8) : Nat :=
  let byte (i : Nat) : Nat := (digest.getD i 0).toNat
  let offset := byte (digest.length - 1) % 16
  byte offset % 128 * 2 ^ 24 + byte (offset + 1) * 2 ^ 16 + byte (offset + 2) * 2 ^ 8 +
    byte (offset + 3)

/-- `text.padStart(length, "0")` -/
def padStart (length : Nat) (text : List Char) : List Char :=
  List.replicate (length - text.length) '0' ++ text

def generateTotpCode (hmac : Secret → List UInt8 → List UInt8) (secret : Secret)
    (counter digits : Int) : Except MfaError String := do
  require (6 ≤ digits ∧ digits ≤ 10) (.rangeError "digits must be between 6 and 10")
  require (0 ≤ counter) (.rangeError "counter must be a non-negative integer")
  let code := truncate (hmac secret (counterBuffer counter.toNat))
  return String.ofList (padStart digits.toNat (Nat.repr (code % 10 ^ digits.toNat)).toList)

def totpCounter (timestampMs period : Int) : Except MfaError Int := do
  require (1 ≤ period) (.rangeError "period must be a positive integer")
  return Int.fdiv (Int.fdiv timestampMs 1000) period

/-- The loop over the steps from `step` on, `left` of them. -/
def matchStep (generate : Int → Except MfaError String) (code : String) :
    Nat → Int → Except MfaError (Option Int)
  | 0, _ => return none
  | left + 1, step => do
    if (← generate step) = code then return some step
    else matchStep generate code left (step + 1)

/-- `/^\d{6,10}$/` -/
def isCode (text : String) : Bool :=
  6 ≤ text.length && text.length ≤ 10 && text.toList.all Char.isDigit

def verifyTotpCode (hmac : Secret → List UInt8 → List UInt8) (secret : Secret) (code : String)
    (digits period window nowMs : Int) : Except MfaError (Option Int) := do
  require (0 ≤ window ∧ window ≤ 10) (.rangeError "window must be an integer between 0 and 10")
  if isCode (trim code) then
    let current ← totpCounter nowMs period
    matchStep (fun step => generateTotpCode hmac secret step digits) (trim code)
      (2 * window + 1).toNat (current - window)
  else return none

/-! ## The repository -/

/-- The columns of the secret. -/
structure SecretColumns where
  secretCiphertext : String
  secretIv : String
  secretAuthTag : String
  kdfSalt : String
  deriving DecidableEq

structure MfaEnrollmentRow where
  userId : String
  secret : SecretColumns
  algorithm : String
  digits : Int
  period : Int
  verified : Bool
  lastUsedCounter : Option Int
  failedAttempts : Int
  lockedUntil : Option Int
  deriving DecidableEq

structure NewMfaEnrollment where
  userId : String
  secret : SecretColumns
  algorithm : String
  digits : Int
  period : Int

/-- The row `recordFailedAttempt` leaves. -/
def MfaEnrollmentRow.failedOnce (row : MfaEnrollmentRow) (threshold lockedUntil : Int) :
    MfaEnrollmentRow :=
  { row with
    failedAttempts := row.failedAttempts + 1
    lockedUntil :=
      if row.failedAttempts + 1 ≥ threshold ∧ row.lockedUntil = none then some lockedUntil
      else row.lockedUntil }

/-- The row without failures and lock. -/
def MfaEnrollmentRow.unlocked (row : MfaEnrollmentRow) : MfaEnrollmentRow :=
  { row with failedAttempts := 0, lockedUntil := none }

abbrev Table := List MfaEnrollmentRow

namespace Table

def findByUserId (db : Table) (userId : String) : Option MfaEnrollmentRow :=
  KeyedList.get MfaEnrollmentRow.userId userId db

/-- `UPDATE … WHERE user_id = $1` -/
def update (db : Table) (userId : String) (f : MfaEnrollmentRow → MfaEnrollmentRow) : Table :=
  KeyedList.modify MfaEnrollmentRow.userId userId f db

def upsertEnrollment (db : Table) (input : NewMfaEnrollment) : Table :=
  KeyedList.put MfaEnrollmentRow.userId
    { userId := input.userId, secret := input.secret, algorithm := input.algorithm
      digits := input.digits, period := input.period, verified := false, lastUsedCounter := none
      failedAttempts := 0, lockedUntil := none } db

def markVerified (db : Table) (userId : String) : Table :=
  db.update userId fun row => { row with verified := true }

/-- `last_used_counter IS NULL OR last_used_counter < $2` -/
def advances (db : Table) (userId : String) (step : Int) : Bool :=
  (db.findByUserId userId).any fun row => row.lastUsedCounter.all (· < step)

def advanceLastUsedCounter (db : Table) (userId : String) (step : Int) : Table :=
  if db.advances userId step then
    db.update userId fun row => { row with lastUsedCounter := some step }
  else db

def recordFailedAttempt (db : Table) (userId : String) (threshold lockedUntil : Int) : Table :=
  db.update userId fun row => row.failedOnce threshold lockedUntil

def clearExpiredLockout (db : Table) (userId : String) (now : Int) : Table :=
  db.update userId fun row => if row.lockedUntil.any (· ≤ now) then row.unlocked else row

def resetFailedAttempts (db : Table) (userId : String) : Table :=
  db.update userId fun row =>
    if row.failedAttempts ≠ 0 ∨ row.lockedUntil ≠ none then row.unlocked else row

end Table

/-! ## Configuration -/

structure MfaServiceOptions where
  masterKey : Option String := none
  challengeSecret : Option String := none
  windowPeriods : Option Int := none
  challengeTtlSec : Option Int := none
  freshnessMs : Option Int := none
  nowMs : Option Int := none
  maxFailedAttempts : Option Int := none
  lockoutDurationMs : Option Int := none
  deriving DecidableEq

/-- What `configService` and the environment say. -/
structure Settings where
  /-- The secrets, if they are provisioned. -/
  masterKey : Option String
  challengeSecret : Option String
  mfaWindowPeriods : Int
  mfaChallengeTtlSec : Int
  mfaFreshnessMs : Int
  /-- `MFA_MAX_FAILED_ATTEMPTS` -/
  maxFailedAttempts : Option String
  /-- `MFA_LOCKOUT_DURATION_MS` -/
  lockoutDurationMs : Option String
  /-- `Number(raw)`, if it is a safe integer. -/
  number : String → Option Int

def configuredPositiveInteger (settings : Settings) (name : String) (raw : Option String)
    (defaultValue : Int) : Except MfaError Int :=
  match raw with
  | none => .ok defaultValue
  | some text =>
    if trim text = "" then .ok defaultValue
    else match settings.number text with
      | some value =>
        if 1 ≤ value then .ok value
        else .error (.configuration (name ++ " must be a positive integer"))
      | none => .error (.configuration (name ++ " must be a positive integer"))

/-- The limits the environment leaves at their defaults. -/
def defaultSettings : Settings where
  masterKey := some "k"
  challengeSecret := some "c"
  mfaWindowPeriods := 1
  mfaChallengeTtlSec := 300
  mfaFreshnessMs := 300000
  maxFailedAttempts := none
  lockoutDurationMs := none
  number := fun _ => none

/-- `option ?? default()` -/
def orElse {α : Type} (option : Option α) (default : Except MfaError α) : Except MfaError α :=
  match option with
  | some value => .ok value
  | none => default

structure Config where
  windowPeriods : Int
  challengeTtlSec : Int
  freshnessMs : Int
  nowMs : Int
  maxFailedAttempts : Int
  lockoutDurationMs : Int
  deriving DecidableEq

/-- `now` is the reading of the clock in place of an absent `nowMs`. -/
def buildConfig (settings : Settings) (now : Int) (options : MfaServiceOptions) :
    Except MfaError Config := do
  let maxFailedAttempts ← orElse options.maxFailedAttempts
    (configuredPositiveInteger settings "MFA_MAX_FAILED_ATTEMPTS" settings.maxFailedAttempts 5)
  let lockoutDurationMs ← orElse options.lockoutDurationMs
    (configuredPositiveInteger settings "MFA_LOCKOUT_DURATION_MS" settings.lockoutDurationMs
      (15 * 60 * 1000))
  return { windowPeriods := options.windowPeriods.getD settings.mfaWindowPeriods
           challengeTtlSec := options.challengeTtlSec.getD settings.mfaChallengeTtlSec
           freshnessMs := options.freshnessMs.getD settings.mfaFreshnessMs
           nowMs := options.nowMs.getD now
           maxFailedAttempts, lockoutDurationMs }

def resolveMasterKey (settings : Settings) (options : MfaServiceOptions) : Except MfaError String :=
  match options.masterKey.or settings.masterKey with
  | some key => .ok key
  | none => .error (.configuration "MFA_ENCRYPTION_KEY is not provisioned")

def resolveChallengeSecret (settings : Settings) (options : MfaServiceOptions) :
    Except MfaError String :=
  match options.challengeSecret.or settings.challengeSecret with
  | some secret => .ok secret
  | none => .error (.configuration "MFA_CHALLENGE_SECRET is not provisioned")

/-! ## Calls -/

/-- The primitives of the platform. -/
structure Crypto where
  hmac : Secret → List UInt8 → List UInt8
  /-- `encryptTotpSecret` for a master key, with the salt and the IV it
  draws; `none` where it throws. -/
  encrypt : String → String → String → Secret → Option SecretColumns
  decrypt : String → SecretColumns → Option Secret

inductive Request where
  | enroll (userId : String) (options : MfaServiceOptions)
  | verifyCode (userId code : String) (options : MfaServiceOptions)

/-- What a segment finds outside. -/
structure Env where
  /-- `Date.now()` -/
  now : Int
  /-- `generateTotpSecret()` -/
  secret : Secret
  salt : String
  iv : String
  /-- What `signJwt` gives, if it resolves. -/
  token : Option String

/-- The local variables of `verifyCode`. -/
structure Verification where
  userId : String
  code : String
  options : MfaServiceOptions
  config : Config

/-- The statement or promise a call is suspended at. -/
inductive Pc where
  | start (request : Request)
  /-- `enroll`, at its SELECT. -/
  | enrolling (userId masterKey : String)
  | upserting (input : NewMfaEnrollment) (secret : Secret)
  /-- `verifyCode`, at its first SELECT. -/
  | finding (call : Verification)
  | clearing (call : Verification)
  /-- At the SELECT after an expired lock. -/
  | refinding (call : Verification)
  | recording (call : Verification)
  | advancing (call : Verification) (step : Int) (enrollment : MfaEnrollmentRow)
  | resetting (call : Verification) (step : Int) (enrollment : MfaEnrollmentRow)
  | marking (call : Verification) (step : Int) (enrollment : MfaEnrollmentRow)
  | signing (call : Verification) (enrollment : MfaEnrollmentRow)

inductive Answer where
  | enrolled (secret : Secret) (digits period : Int)
  | verified (mfaToken : String) (expiresInSec freshUntilSec : Int) (alreadyVerified : Bool)

abbrev Outcome := Except MfaError Answer

abbrev Task := Coop.Task Pc Outcome

/-- Where a call is when the rest of its segment may throw. -/
def orThrow {α : Type} (result : Except MfaError α) (next : α → Task) : Task :=
  match result with
  | .ok value => next value
  | .error err => .done (.error err)

def decryptTotpSecret (crypto : Crypto) (masterKey : String) (columns : SecretColumns) :
    Except MfaError Secret :=
  match crypto.decrypt masterKey columns with
  | some secret => .ok secret
  | none => .error .crypto

/-- `matchedStep` of `verifyCode`, from the row it goes by. -/
def matchedStep (settings : Settings) (crypto : Crypto) (call : Verification)
    (enrollment : MfaEnrollmentRow) : Except MfaError (Option Int) := do
  let masterKey ← resolveMasterKey settings call.options
  let secret ← decryptTotpSecret crypto masterKey enrollment.secret
  verifyTotpCode crypto.hmac secret call.code enrollment.digits enrollment.period
    call.config.windowPeriods call.config.nowMs

/-- `verifyCode` from the row it goes by to the statement behind its code. -/
def evaluateCode (settings : Settings) (crypto : Crypto) (call : Verification)
    (enrollment : MfaEnrollmentRow) : Task :=
  orThrow (matchedStep settings crypto call enrollment) fun
    | none => .waiting (.recording call)
    | some step => .waiting (.advancing call step enrollment)

/-- `verifyCode` from its first SELECT on. -/
def checkLock (settings : Settings) (crypto : Crypto) (call : Verification) :
    Option MfaEnrollmentRow → Task
  | none => .done (.error .notEnrolled)
  | some enrollment =>
    match enrollment.lockedUntil with
    | none => evaluateCode settings crypto call enrollment
    | some lockedUntil =>
      if lockedUntil > call.config.nowMs then .done (.error .locked)
      else .waiting (.clearing call)

/-- The call of `issueChallenge`, up to `signJwt`. -/
def issueChallenge (settings : Settings) (call : Verification) (enrollment : MfaEnrollmentRow) :
    Task :=
  orThrow (resolveChallengeSecret settings call.options) fun _ =>
    .waiting (.signing call enrollment)

/-- `enroll` before its SELECT. -/
def startEnroll (settings : Settings) (now : Int) (userId : String) (options : MfaServiceOptions) :
    Except MfaError String := do
  require (trim userId ≠ "") .subjectMissing
  let _ ← buildConfig settings now options
  resolveMasterKey settings options

/-- `verifyCode` before its first SELECT. -/
def startVerify (settings : Settings) (now : Int) (userId : String) (options : MfaServiceOptions) :
    Except MfaError Config := do
  require (trim userId ≠ "") .subjectMissing
  buildConfig settings now options

/-- A call from one `await` to the next, with the statement it is
suspended at. -/
def resume (settings : Settings) (crypto : Crypto) (e : Env) : Pc → Table → Table × Task
  | .start (.enroll userId options), db =>
    (db, orThrow (startEnroll settings e.now userId options) fun masterKey =>
      .waiting (.enrolling userId masterKey))
  | .enrolling userId masterKey, db =>
    if (db.findByUserId userId).any MfaEnrollmentRow.verified then
      (db, .done (.error .alreadyEnrolled))
    else match crypto.encrypt masterKey e.salt e.iv e.secret with
      | none => (db, .done (.error .crypto))
      | some columns =>
        (db, .waiting (.upserting
          { userId, secret := columns, algorithm := "SHA1", digits := 6, period := 30 } e.secret))
  | .upserting input secret, db => (db.upsertEnrollment input, .done (.ok (.enrolled secret 6 30)))
  | .start (.verifyCode userId code options), db =>
    (db, orThrow (startVerify settings e.now userId options) fun config =>
      .waiting (.finding { userId, code, options, config }))
  | .finding call, db => (db, checkLock settings crypto call (db.findByUserId call.userId))
  | .clearing call, db =>
    (db.clearExpiredLockout call.userId call.config.nowMs, .waiting (.refinding call))
  | .refinding call, db =>
    match db.findByUserId call.userId with
    | none => (db, .done (.error .notEnrolled))
    | some enrollment => (db, evaluateCode settings crypto call enrollment)
  | .recording call, db =>
    (db.recordFailedAttempt call.userId call.config.maxFailedAttempts
      (call.config.nowMs + call.config.lockoutDurationMs), .done (.error .invalidCode))
  | .advancing call step enrollment, db =>
    (db.advanceLastUsedCounter call.userId step,
      if db.advances call.userId step then .waiting (.resetting call step enrollment)
      else .done (.error .replayDetected))
  | .resetting call step enrollment, db =>
    (db.resetFailedAttempts call.userId,
      if enrollment.verified then issueChallenge settings call enrollment
      else .waiting (.marking call step enrollment))
  | .marking call _ enrollment, db =>
    (db.markVerified call.userId, issueChallenge settings call enrollment)
  | .signing call enrollment, db =>
    (db, match e.token with
      | none => .done (.error .unsigned)
      | some token => .done (.ok (.verified token call.config.challengeTtlSec
          (Int.fdiv call.config.nowMs 1000 + Int.fdiv call.config.freshnessMs 1000)
          enrollment.verified)))

def service (settings : Settings) (crypto : Crypto) :
    Coop.Program Request Env Table Pc Outcome where
  start := .start
  resume := resume settings crypto

abbrev State := Coop.Sys Request Table Pc Outcome

abbrev Cmd := Coop.Cmd Request Env

def Request.userId : Request → String
  | .enroll userId _ => userId
  | .verifyCode userId _ _ => userId

/-- The user whose call this is. -/
def Pc.userId : Pc → String
  | .start request => request.userId
  | .enrolling userId _ => userId
  | .upserting input _ => input.userId
  | .finding call | .clearing call | .refinding call | .recording call => call.userId
  | .advancing call _ _ | .resetting call _ _ | .marking call _ _ | .signing call _ => call.userId

/-! ## Statements and rows -/

variable {db : Table} {userId : String}

variable {settings : Settings} {crypto : Crypto} {e : Env} {pc pc' : Pc}

/-- No call touches the row of another user. -/
theorem resume_other (h : pc.userId ≠ userId) :
    (resume settings crypto e pc db).1.findByUserId userId = db.findByUserId userId := by
  have hupdate : ∀ {f : MfaEnrollmentRow → MfaEnrollmentRow} (user : String), user ≠ userId →
      (∀ row, (f row).userId = row.userId) →
      (db.update user f).findByUserId userId = db.findByUserId userId := by
    intro f user huser hf
    exact (get_modify hf).trans (if_neg (Ne.symm huser))
  cases pc with
  | start request => cases request <;> rfl
  | enrolling user masterKey =>
    rw [resume]
    split
    · rfl
    · split
      · rfl
      · rfl
  | upserting input secret => exact (get_put _ _).trans (if_neg h)
  | finding | signing => rfl
  | clearing call | resetting call =>
    refine hupdate call.userId h fun row => ?_
    split
    · rfl
    · rfl
  | refinding call =>
    rw [resume]
    split
    · rfl
    · rfl
  | recording call | marking call => exact hupdate call.userId h fun row => rfl
  | advancing call step enrollment =>
    show (db.advanceLastUsedCounter call.userId step).findByUserId userId = _
    rw [Table.advanceLastUsedCounter]
    split
    · exact hupdate call.userId h fun row => rfl
    · rfl

theorem orThrow_waiting {α : Type} {result : Except MfaError α} {next : α → Task}
    (h : orThrow result next = .waiting pc') :
    ∃ value, result = .ok value ∧ next value = .waiting pc' := by
  cases result with
  | error err => cases h
  | ok value => exact ⟨value, rfl, h⟩

/-- **Where a call goes on**: the suspension points behind each other, with
what the statement in between has found. -/
inductive Next (settings : Settings) (crypto : Crypto) (e : Env) (db : Table) : Pc → Pc → Prop where
  | enroll (userId : String) (options : MfaServiceOptions) (masterKey : String) :
      Next settings crypto e db (.start (.enroll userId options)) (.enrolling userId masterKey)
  | encrypt (userId masterKey : String) (columns : SecretColumns)
      (hcolumns : crypto.encrypt masterKey e.salt e.iv e.secret = some columns)
      (hunverified : (db.findByUserId userId).any MfaEnrollmentRow.verified = false) :
      Next settings crypto e db (.enrolling userId masterKey)
        (.upserting ⟨userId, columns, "SHA1", 6, 30⟩ e.secret)
  | verify (userId code : String) (options : MfaServiceOptions) (config : Config)
      (hconfig : buildConfig settings e.now options = .ok config) :
      Next settings crypto e db (.start (.verifyCode userId code options))
        (.finding ⟨userId, code, options, config⟩)
  | expire (call : Verification) (enrollment : MfaEnrollmentRow) (lockedUntil : Int)
      (hrow : db.findByUserId call.userId = some enrollment)
      (hlocked : enrollment.lockedUntil = some lockedUntil)
      (hexpired : lockedUntil ≤ call.config.nowMs) :
      Next settings crypto e db (.finding call) (.clearing call)
  | clear (call : Verification) : Next settings crypto e db (.clearing call) (.refinding call)
  | reject (pc : Pc) (call : Verification) (enrollment : MfaEnrollmentRow)
      (hpc : pc = .finding call ∧ enrollment.lockedUntil = none ∨ pc = .refinding call)
      (hrow : db.findByUserId call.userId = some enrollment)
      (hmatched : matchedStep settings crypto call enrollment = .ok none) :
      Next settings crypto e db pc (.recording call)
  | accept (pc : Pc) (call : Verification) (enrollment : MfaEnrollmentRow) (step : Int)
      (hpc : pc = .finding call ∧ enrollment.lockedUntil = none ∨ pc = .refinding call)
      (hrow : db.findByUserId call.userId = some enrollment)
      (hmatched : matchedStep settings crypto call enrollment = .ok (some step)) :
      Next settings crypto e db pc (.advancing call step enrollment)
  | advance (call : Verification) (step : Int) (enrollment : MfaEnrollmentRow)
      (hadvances : db.advances call.userId step = true) :
      Next settings crypto e db (.advancing call step enrollment) (.resetting call step enrollment)
  | activate (call : Verification) (step : Int) (enrollment : MfaEnrollmentRow)
      (hpending : enrollment.verified = false) :
      Next settings crypto e db (.resetting call step enrollment) (.marking call step enrollment)
  | confirm (call : Verification) (step : Int) (enrollment : MfaEnrollmentRow)
      (hverified : enrollment.verified = true) :
      Next settings crypto e db (.resetting call step enrollment) (.signing call enrollment)
  | mark (call : Verification) (step : Int) (enrollment : MfaEnrollmentRow) :
      Next settings crypto e db (.marking call step enrollment) (.signing call enrollment)

theorem evaluateCode_next {call : Verification} {enrollment : MfaEnrollmentRow}
    (hpc : pc = .finding call ∧ enrollment.lockedUntil = none ∨ pc = .refinding call)
    (hrow : db.findByUserId call.userId = some enrollment)
    (h : evaluateCode settings crypto call enrollment = .waiting pc') :
    Next settings crypto e db pc pc' := by
  obtain ⟨matched, hmatched, hnext⟩ := orThrow_waiting h
  cases matched with
  | none =>
    cases hnext
    exact .reject pc call enrollment hpc hrow hmatched
  | some step =>
    cases hnext
    exact .accept pc call enrollment step hpc hrow hmatched

theorem issueChallenge_waiting {call : Verification} {enrollment : MfaEnrollmentRow}
    (h : issueChallenge settings call enrollment = .waiting pc') :
    pc' = .signing call enrollment := by
  obtain ⟨_, -, hnext⟩ := orThrow_waiting h
  exact (Coop.Task.waiting.inj hnext).symm

theorem resume_next (h : (resume settings crypto e pc db).2 = .waiting pc') :
    Next settings crypto e db pc pc' := by
  cases pc with
  | start request =>
    cases request with
    | enroll userId options =>
      dsimp only [resume] at h
      obtain ⟨masterKey, -, hnext⟩ := orThrow_waiting h
      cases hnext
      exact .enroll userId options masterKey
    | verifyCode userId code options =>
      dsimp only [resume] at h
      obtain ⟨config, hconfig, hnext⟩ := orThrow_waiting h
      cases hnext
      obtain ⟨_, -, hconfig⟩ := bind_eq_ok.mp hconfig
      exact .verify userId code options config hconfig
  | enrolling userId masterKey =>
    rw [resume] at h
    split at h
    · cases h
    next hverified =>
      split at h
      · cases h
      next columns hcolumns =>
        cases h
        exact .encrypt userId masterKey columns hcolumns (Bool.eq_false_iff.mpr hverified)
  | upserting | recording => cases h
  | finding call =>
    have hlock : checkLock settings crypto call (db.findByUserId call.userId) = .waiting pc' := h
    rw [checkLock.eq_def] at hlock
    split at hlock
    · cases hlock
    next enrollment hrow =>
      split at hlock
      next hunlocked => exact evaluateCode_next (.inl ⟨rfl, hunlocked⟩) hrow hlock
      next lockedUntil hlocked =>
        split at hlock
        · cases hlock
        next hexpired =>
          cases hlock
          exact .expire call enrollment lockedUntil hrow hlocked (Int.not_lt.mp hexpired)
  | clearing call =>
    cases h
    exact .clear call
  | refinding call =>
    rw [resume] at h
    split at h
    · cases h
    next enrollment hrow => exact evaluateCode_next (.inr rfl) hrow h
  | advancing call step enrollment =>
    rw [resume] at h
    dsimp only at h
    split at h
    next hadvances =>
      cases h
      exact .advance call step enrollment hadvances
    · cases h
  | resetting call step enrollment =>
    rw [resume] at h
    dsimp only at h
    split at h
    next hverified =>
      obtain rfl := issueChallenge_waiting h
      exact .confirm call step enrollment hverified
    next hpending =>
      cases h
      exact .activate call step enrollment (Bool.eq_false_iff.mpr hpending)
  | marking call step enrollment =>
    obtain rfl := issueChallenge_waiting h
    exact .mark call step enrollment
  | signing call enrollment =>
    rw [resume] at h
    dsimp only at h
    split at h
    · cases h
    · cases h

/-- A call stays with its user. -/
theorem Next.userId_eq (h : Next settings crypto e db pc pc') : pc'.userId = pc.userId := by
  cases h with
  | reject pc call enrollment hpc | accept pc call enrollment step hpc =>
    rcases hpc with ⟨rfl, -⟩ | rfl <;> rfl
  | _ => rfl

end ChronoPay.Mfa
