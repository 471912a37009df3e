import ChronoPay.IdempotencyPayloadCodec
import ChronoPay.Lib.Coop
import ChronoPay.RequestHash

/-!
# Idempotency — one handler run for an `Idempotency-Key`

`idempotencyMiddleware` in front of a handler. A request reads its storage
key with GET, claims it with SET NX, runs the handler, and has `res.json`
write the answer behind its back; another request that finds the key gets
the stored answer or an error.

Redis carries out a command at some time after it was sent, and the
request goes on at some time after that, so each command is a step of its
own. A reply can get lost, with or without the command having been carried
out. Nothing waits for the write of the answer.

`Server` is Redis together with a record of what the handlers did.
-/

namespace ChronoPay.Idempotency

open Coop IdempotencyPayloadCodec JsonText List Machine Option

/-! ## The storage key -/

/-- `req.route?.path` -/
inductive RoutePath where
  | unmatched
  | pattern (path : String)
  | patterns (paths : List String)

/-- What is read of `req.user`. -/
structure JwtUser where
  sub : Option String
  id : Option String

/-- What the middleware reads of a request. -/
structure Request where
  idempotencyKey : Option String
  method : String
  originalUrl : String
  body : Option Json
  authUserId : Option String
  user : Option JwtUser
  apiKeyId : Option String
  ip : Option String
  remoteAddress : Option String
  baseUrl : String
  routePath : RoutePath

/-- A text that is there and not empty. -/
def nonEmpty (text : Option String) : Option String := text.filter (· ≠ "")

def deriveIdempotencyPrincipal (sha256 : String → String) (req : Request) : String :=
  match nonEmpty req.authUserId with
  | some userId => s!"user:{userId}"
  | none =>
    match req.user.bind fun user => (nonEmpty user.sub).or (nonEmpty user.id) with
    | some jwtUserId => s!"user:{jwtUserId}"
    | none =>
      match nonEmpty req.apiKeyId with
      | some apiKeyId => s!"apiKey:{apiKeyId}"
      | none =>
        let ip := ((nonEmpty req.ip).or (nonEmpty req.remoteAddress)).getD "anonymous"
        s!"ip:{sha256 ip}"

def readMatchedRoutePattern (req : Request) : Option String :=
  match req.routePath with
  | .unmatched => none
  | .pattern path => some path
  | .patterns paths => some ("|".intercalate paths)

/-- `path.replace(/\/+$/, "")`, or `/` if nothing is left. -/
def normalizeRoutePath (path : String) : String :=
  let stripped := String.ofList (path.toList.reverse.dropWhile (· = '/')).reverse
  if stripped = "" then "/" else stripped

def deriveIdempotencyRoute (req : Request) : String :=
  let raw := match nonEmpty (readMatchedRoutePattern req) with
    | some matchedPattern => req.baseUrl ++ matchedPattern
    | none => String.ofList (req.originalUrl.toList.takeWhile (· ≠ '?'))
  normalizeRoutePath raw

def buildIdempotencyStorageKey (sha256 : String → String) (req : Request)
    (idempotencyKey : String) : String :=
  let namespacedParts := [deriveIdempotencyPrincipal sha256 req, req.method,
    deriveIdempotencyRoute req, idempotencyKey]
  let text := print (.array (namespacedParts.map fun part => .string (units part)))
  s!"idempotency:req:{sha256 (String.ofList text)}"

/-- `/^[a-zA-Z0-9\-_.]{1,255}$/`, a character of it. -/
def isKeyChar (c : Char) : Bool := c.isAlphanum || c = '-' || c = '_' || c = '.'

/-- The reason a key is refused for. -/
def validateIdempotencyKey (value : String) : Option String :=
  if value.length = 0 then some "Idempotency-Key must not be empty"
  else if 255 < (units value).length then
    some "Idempotency-Key exceeds maximum length of 255 characters"
  else if ¬ value.toList.all isKeyChar then
    some ("Idempotency-Key contains invalid characters. " ++
      "Allowed: alphanumerics, hyphens (-), underscores (_), and dots (.)")
  else none

/-! ## The stored states -/

/-- What goes to the client: the status code as the text it prints as, and
the JSON value handed to `res.json`, if not `undefined`. -/
structure Response where
  statusCode : List Char
  body : Option Json

structure Response.Printable (r : Response) : Prop where
  statusCode : IsNumber r.statusCode
  body : ∀ v ∈ r.body, Everywhere JsonText.Printable v

def processingState (requestHash : String) : Json :=
  literalObject [("status", .string (units "processing")),
    ("requestHash", .string (units requestHash))]

/-- `JSON.stringify` leaves an undefined `responseBody` out. -/
def completedState (requestHash : String) (response : Response) : Json :=
  literalObject ([("status", .string (units "completed")),
      ("requestHash", .string (units requestHash)),
      ("statusCode", .number response.statusCode)]
    ++ response.body.toList.map fun body => ("responseBody", body))

/-! ## The middleware -/

structure Deps where
  sha256 : String → String
  cipher : Cipher
  configOverride : Option EncryptionConfig

def Deps.config (deps : Deps) : EncryptionConfig := codecConfig deps.configOverride

def Deps.serialize (deps : Deps) (nonce : List UInt8) (value : Json) : List Char :=
  IdempotencyPayloadCodec.serialize deps.cipher deps.config nonce value

def Deps.deserialize (deps : Deps) (rawValue : List Char) : Except CodecError Json :=
  IdempotencyPayloadCodec.deserialize deps.cipher deps.config rawValue

/-- What a request is known by: its storage key and `incomingHash`. -/
structure Entry where
  storageKey : String
  requestHash : String
  deriving DecidableEq

structure IdempotencyError where
  message : String
  code : String

def inProgress : IdempotencyError :=
  ⟨"Conflict: This transaction is actively running.", "IDEMPOTENCY_IN_PROGRESS"⟩

def keyMismatch : IdempotencyError :=
  ⟨"Unprocessable Entity: Idempotency-Key used with different payload.", "IDEMPOTENCY_KEY_MISMATCH"⟩

/-- What is passed to `next(error)`. -/
inductive Failure where
  /-- A Redis command was rejected. -/
  | redis
  | codec (error : CodecError)
  /-- A member of `null` was read, or the status is none. -/
  | typeError

inductive Outcome where
  /-- There was no key: the handler runs unguarded. -/
  | passed
  /-- 503, "Redis is currently unavailable" -/
  | unavailable
  | refused (error : IdempotencyError)
  | replayed (response : Response)
  | failed (failure : Failure)
  /-- The handler of this request answered. -/
  | handled (response : Response)

/-- What is sent for a key that is already there. -/
def answer (deps : Deps) (incomingHash : String) (existingData : List Char) : Outcome :=
  match deps.deserialize existingData with
  | .error error => .failed (.codec error)
  | .ok .null => .failed .typeError
  | .ok parsedData =>
    if stringAt "status" parsedData = some (units "processing") then .refused inProgress
    else if stringAt "requestHash" parsedData ≠ some (units incomingHash) then .refused keyMismatch
    else
      match parsedData.get "statusCode" with
      | some (.number statusCode) => .replayed ⟨statusCode, parsedData.get "responseBody"⟩
      | _ => .failed .typeError

/-- Where a request is suspended. -/
inductive Pc where
  | received (req : Request)
  /-- GET is on its way. -/
  | getting (entry : Entry)
  | got (entry : Entry) (existingData : Option (List Char))
  /-- SET NX is on its way. -/
  | locking (entry : Entry) (text : List Char)
  | locked (entry : Entry) (lockAcquired : Bool)
  /-- `next()` was called, the handler runs. -/
  | handling (entry : Entry)
  /-- The answer was sent, SET is on its way. -/
  | persisting (entry : Entry) (response : Response) (text : List Char)

/-- What becomes of a command that was sent. -/
inductive Reply where
  | answered
  /-- It was carried out, but the client gets an error. -/
  | lost
  /-- It was not carried out. -/
  | rejected

structure Env where
  /-- `getRedisClient()` has a client. -/
  connected : Bool
  /-- The bytes `serialize` draws. -/
  nonce : List UInt8
  reply : Reply
  /-- What the handler passes to `res.json`, if it does so now. -/
  response : {r : Response // r.Printable}

abbrev Store := List (String × List Char)

structure Server where
  store : Store := []
  /-- The requests whose handler was run. -/
  ran : List Entry := []
  /-- What their handlers passed to `res.json`. -/
  answered : List (Entry × Response) := []

def Store.get (s : Store) (key : String) : Option (List Char) :=
  (KeyedList.get Prod.fst key s).map Prod.snd

def Store.set (s : Store) (key : String) (text : List Char) : Store :=
  KeyedList.put Prod.fst (key, text) s

/-- The entry of a request that comes with a key that is accepted. -/
def Request.entry (deps : Deps) (req : Request) : Option Entry :=
  match nonEmpty req.idempotencyKey with
  | none => none
  | some key =>
    match validateIdempotencyKey key with
    | some _ => none
    | none => some ⟨buildIdempotencyStorageKey deps.sha256 req key,
        RequestHash.generateRequestHash deps.sha256 req.method req.originalUrl req.body⟩

/-- The middleware up to the GET. -/
def receive (deps : Deps) (connected : Bool) (req : Request) : Coop.Task Pc Outcome :=
  match nonEmpty req.idempotencyKey with
  | none => .done .passed
  | some key =>
    if ¬ connected then .done .unavailable
    else
      match validateIdempotencyKey key with
      | some reason => .done (.refused ⟨reason, "IDEMPOTENCY_KEY_INVALID"⟩)
      | none => .waiting (.getting ⟨buildIdempotencyStorageKey deps.sha256 req key,
          RequestHash.generateRequestHash deps.sha256 req.method req.originalUrl req.body⟩)

def resume (deps : Deps) (e : Env) : Pc → Server → Server × Coop.Task Pc Outcome
  | .received req, s => (s, receive deps e.connected req)
  | .getting entry, s =>
    match e.reply with
    | .answered => (s, .waiting (.got entry (s.store.get entry.storageKey)))
    | _ => (s, .done (.failed .redis))
  | .got entry existingData, s =>
    match existingData with
    | some (c :: text) => (s, .done (answer deps entry.requestHash (c :: text)))
    | _ =>
      (s, .waiting (.locking entry (deps.serialize e.nonce (processingState entry.requestHash))))
  | .locking entry text, s =>
    let claimed := if (s.store.get entry.storageKey).isNone then
      { s with store := s.store.set entry.storageKey text } else s
    match e.reply with
    | .answered => (claimed, .waiting (.locked entry (s.store.get entry.storageKey).isNone))
    | .lost => (claimed, .done (.failed .redis))
    | .rejected => (s, .done (.failed .redis))
  | .locked entry lockAcquired, s =>
    if lockAcquired then ({ s with ran := s.ran ++ [entry] }, .waiting (.handling entry))
    else (s, .done (.refused inProgress))
  | .handling entry, s =>
    ({ s with answered := s.answered ++ [(entry, e.response.val)] },
      .waiting (.persisting entry e.response.val
        (deps.serialize e.nonce (completedState entry.requestHash e.response.val))))
  | .persisting entry response text, s =>
    match e.reply with
    | .rejected => (s, .done (.handled response))
    | _ => ({ s with store := s.store.set entry.storageKey text }, .done (.handled response))

def middleware (deps : Deps) : Program Request Env Server Pc Outcome where
  start := .received
  resume := resume deps

/-! ## What a stored state is answered with -/

section

variable {deps : Deps} (hopens : deps.config.Opens)

theorem processingState_printable (requestHash : String) :
    Everywhere Printable (processingState requestHash) := by
  refine printable_literalObject ?_
  simp only [forall_mem_cons, printable_string, true_and]
  exact forall_mem_nil _

theorem completedState_printable (requestHash : String) {r : Response} (hr : r.Printable) :
    Everywhere Printable (completedState requestHash r) := by
  refine printable_literalObject ?_
  simp only [cons_append, nil_append, forall_mem_cons, printable_string, true_and]
  refine ⟨.intro hr.statusCode (forall_mem_nil _), ?_⟩
  intro m hm
  obtain ⟨v, hv, rfl⟩ := List.mem_map.mp hm
  exact hr.body v (mem_toList.mp hv)

include hopens

theorem Deps.deserialize_serialize (nonce : List UInt8) {value : Json}
    (hvalue : Everywhere Printable value) (hplain : encryptedEnvelope value = none) :
    deps.deserialize (deps.serialize nonce value) = .ok value := by
  exact IdempotencyPayloadCodec.deserialize_serialize deps.cipher hopens nonce hvalue hplain

theorem answer_processing (nonce : List UInt8) (requestHash incomingHash : String) :
    answer deps incomingHash (deps.serialize nonce (processingState requestHash))
      = .refused inProgress := by
  have hplain : encryptedEnvelope (processingState requestHash) = none := by
    simp [encryptedEnvelope, processingState, get_literalObject]
  have hstatus : stringAt "status" (processingState requestHash) = some (units "processing") := by
    simp [stringAt, processingState, get_literalObject]
  have hread : deps.deserialize (deps.serialize nonce (processingState requestHash))
      = .ok (processingState requestHash) :=
    deps.deserialize_serialize hopens nonce (processingState_printable requestHash) hplain
  rw [answer, hread]
  exact if_pos hstatus

theorem answer_completed (nonce : List UInt8) (requestHash incomingHash : String) {r : Response}
    (hr : r.Printable) :
    answer deps incomingHash (deps.serialize nonce (completedState requestHash r))
      = if requestHash = incomingHash then .replayed r else .refused keyMismatch := by
  have hget : ∀ key, (completedState requestHash r).get key
      = if key = "responseBody" then r.body
        else if key = "statusCode" then some (.number r.statusCode)
        else if key = "requestHash" then some (.string (units requestHash))
        else if key = "status" then some (.string (units "completed")) else none := by
    intro key
    obtain ⟨statusCode, body⟩ := r
    cases body <;> simp [completedState, get_literalObject, find?_cons, eq_comm (b := key)] <;>
      split_ifs <;> simp_all
  have hread : deps.deserialize (deps.serialize nonce (completedState requestHash r))
      = .ok (completedState requestHash r) := by
    have hplain : encryptedEnvelope (completedState requestHash r) = none := by
      simp [encryptedEnvelope, hget]
    exact deps.deserialize_serialize hopens nonce (completedState_printable _ hr) hplain
  have hstatus : stringAt "status" (completedState requestHash r) ≠ some (units "processing") := by
    simp [stringAt, hget, units_inj]
  have hhash : stringAt "requestHash" (completedState requestHash r) = some (units requestHash) := by
    simp [stringAt, hget]
  rw [answer, hread]
  change (if _ then _ else _) = _
  rw [if_neg hstatus, hhash, hget, hget]
  simp [units_inj]

end

/-! ## What a segment does -/

/-- Everything a segment can do to the server. -/
inductive Acts (s : Server) : Pc → Server → Prop
  | stay {pc : Pc} : Acts s pc s
  | claim {entry : Entry} {text : List Char} (free : s.store.get entry.storageKey = none) :
    Acts s (.locking entry text) { s with store := s.store.set entry.storageKey text }
  | run {entry : Entry} : Acts s (.locked entry true) { s with ran := s.ran ++ [entry] }
  | answer {entry : Entry} (r : Response) :
    Acts s (.handling entry) { s with answered := s.answered ++ [(entry, r)] }
  | persist {entry : Entry} {r : Response} {text : List Char} :
    Acts s (.persisting entry r text) { s with store := s.store.set entry.storageKey text }

theorem Store.get_set (s : Store) (key key' : String) (text : List Char) :
    (s.set key text).get key' = if key = key' then some text else s.get key' := by
  rw [Store.get, Store.set, KeyedList.get_put]
  split
  · rfl
  · rfl

section

variable {deps : Deps} {e : Env} {pc pc' : Pc} {s s' : Server} {key : String}

theorem resume_acts (deps : Deps) (e : Env) (pc : Pc) (s : Server) :
    Acts s pc (resume deps e pc s).1 := by
  cases pc with
  | received req => exact .stay
  | getting | got => simp only [resume]; split <;> exact .stay
  | locking entry text =>
    have hclaimed : Acts s (.locking entry text)
        (if (s.store.get entry.storageKey).isNone then
          { s with store := s.store.set entry.storageKey text } else s) := by
      split
      next hfree => exact .claim (isNone_iff_eq_none.mp hfree)
      · exact .stay
    simp only [resume]
    split
    · exact hclaimed
    · exact hclaimed
    · exact .stay
  | locked entry lockAcquired =>
    cases lockAcquired with
    | false => exact .stay
    | true => exact .run
  | handling entry => exact .answer _
  | persisting entry r text =>
    simp only [resume]
    split
    · exact .stay
    · exact .persist

/-- The runs under a storage key. -/
def Server.runs (s : Server) (key : String) : List Entry :=
  s.ran.filter fun entry => entry.storageKey = key

/-- The answers of the handlers run under a storage key. -/
def Server.answers (s : Server) (key : String) : List (Entry × Response) :=
  s.answered.filter fun a => a.1.storageKey = key

/-- The key a request has claimed and not yet answered under. -/
def Pc.claims : Pc → Option String
  | .locked entry true => some entry.storageKey
  | .handling entry => some entry.storageKey
  | _ => none

/-- The text is that of a processing state, or of what a handler under
the key answered. -/
def Sound (deps : Deps) (s : Server) (key : String) (text : List Char) : Prop :=
  (∃ nonce hash, text = deps.serialize nonce (processingState hash)) ∨
  ∃ nonce hash r, text = deps.serialize nonce (completedState hash r) ∧ r.Printable ∧
    (⟨key, hash⟩, r) ∈ s.answered

/-- Answers are never taken back. -/
theorem Acts.answered (h : Acts s pc s') : s.answered ⊆ s'.answered := by
  cases h with
  | answer r => exact subset_append_left ..
  | _ => exact List.Subset.refl _

/-- Nor is a key deleted. -/
theorem Acts.isSome (h : Acts s pc s') (hkey : (s.store.get key).isSome) :
    (s'.store.get key).isSome := by
  have hset : ∀ key' text, ((s.store.set key' text).get key).isSome := by
    intro key' text
    rw [Store.get_set]
    split
    · rfl
    · exact hkey
  cases h with
  | claim free => exact hset ..
  | persist => exact hset ..
  | _ => exact hkey

theorem Sound.mono {text : List Char} (h : Sound deps s key text)
    (hsub : s.answered ⊆ s'.answered) : Sound deps s' key text := by
  rcases h with h | ⟨nonce, hash, r, htext, hr, hmem⟩
  · exact .inl h
  · exact .inr ⟨nonce, hash, r, htext, hr, hsub hmem⟩

end

/-! ## The invariant -/

/-- A request holds what belongs to it, and what it has read is sound. -/
def Fits (deps : Deps) (s : Server) (q : Request) : Coop.Task Pc Outcome → Prop
  | .waiting (.received req) => req = q
  | .waiting (.getting entry) => q.entry deps = some entry
  | .waiting (.got entry existingData) =>
    q.entry deps = some entry ∧ ∀ text ∈ existingData, Sound deps s entry.storageKey text
  | .waiting (.locking entry text) =>
    q.entry deps = some entry ∧
      ∃ nonce, text = deps.serialize nonce (processingState entry.requestHash)
  | .waiting (.locked entry _) => q.entry deps = some entry
  | .waiting (.handling entry) => q.entry deps = some entry
  | .waiting (.persisting entry r text) =>
    q.entry deps = some entry ∧ r.Printable ∧ (entry, r) ∈ s.answered ∧
      ∃ nonce, text = deps.serialize nonce (completedState entry.requestHash r)
  | .done (.replayed r) => ∃ entry, q.entry deps = some entry ∧ (entry, r) ∈ s.answered
  | .done (.handled r) => ∃ entry, q.entry deps = some entry ∧ (entry, r) ∈ s.answered
  | .done (.refused error) => (q.entry deps).isSome → error = inProgress ∨ error = keyMismatch
  | .done (.failed failure) => failure = .redis
  | .done .passed => q.entry deps = none
  | .done .unavailable => True

/-- Redis cannot be reached in the segment, or fails its command. -/
def Unreached (e : Env) : Pc → Prop
  | .received _ => e.connected = false
  | .getting _ => e.reply ≠ .answered
  | .locking _ _ => e.reply ≠ .answered
  | _ => False

/-- The request is under way, or got something other than an error of
Redis or of the codec. -/
def Served : Coop.Task Pc Outcome → Prop
  | .done .unavailable => False
  | .done (.failed _) => False
  | _ => True

section

variable {deps : Deps} {e : Env} {pc pc' : Pc} {s s' : Server} {q : Request} {key : String}

theorem Fits.mono {task : Coop.Task Pc Outcome} (h : Fits deps s q task)
    (hsub : s.answered ⊆ s'.answered) : Fits deps s' q task := by
  have hanswer : ∀ r, (∃ entry, q.entry deps = some entry ∧ (entry, r) ∈ s.answered) →
      ∃ entry, q.entry deps = some entry ∧ (entry, r) ∈ s'.answered :=
    fun r ⟨entry, hentry, hmem⟩ => ⟨entry, hentry, hsub hmem⟩
  cases task with
  | waiting pc =>
    cases pc with
    | got entry existingData => exact ⟨h.1, fun text htext => (h.2 text htext).mono hsub⟩
    | persisting entry r text => exact ⟨h.1, h.2.1, hsub h.2.2.1, h.2.2.2⟩
    | _ => exact h
  | done outcome =>
    cases outcome with
    | replayed r => exact hanswer r h
    | handled r => exact hanswer r h
    | _ => exact h

theorem receive_fits (deps : Deps) (s : Server) (connected : Bool) (q : Request) :
    Fits deps s q (receive deps connected q) ∧
      (connected ≠ false → Served (receive deps connected q)) := by
  cases hkey : nonEmpty q.idempotencyKey with
  | none =>
    have hentry : q.entry deps = none := by simp only [Request.entry, hkey]
    simp only [receive, hkey]
    exact ⟨hentry, fun _ => trivial⟩
  | some key =>
    simp only [receive, hkey]
    split
    next hdown => exact ⟨trivial, fun hup => hdown (Bool.eq_true_of_not_eq_false hup)⟩
    · cases hvalid : validateIdempotencyKey key with
      | none =>
        refine ⟨?_, fun _ => trivial⟩
        show q.entry deps = some _
        simp only [Request.entry, hkey, hvalid]
      | some reason =>
        have hentry : q.entry deps = none := by simp only [Request.entry, hkey, hvalid]
        refine ⟨fun hsome => ?_, fun _ => trivial⟩
        rw [hentry] at hsome
        cases hsome

/-- A sound text is answered with one of the two errors, or with what a
handler answered to the same request. -/
theorem answer_cases (hopens : deps.config.Opens) (entry : Entry) {text : List Char}
    (htext : Sound deps s entry.storageKey text) :
    answer deps entry.requestHash text = .refused inProgress ∨
    answer deps entry.requestHash text = .refused keyMismatch ∨
    ∃ r, answer deps entry.requestHash text = .replayed r ∧ (entry, r) ∈ s.answered := by
  rcases htext with ⟨nonce, hash, rfl⟩ | ⟨nonce, hash, r, rfl, hr, hmem⟩
  · exact .inl (answer_processing hopens ..)
  · rw [answer_completed hopens nonce hash entry.requestHash hr]
    split
    next hsame =>
      subst hsame
      exact .inr (.inr ⟨r, rfl, hmem⟩)
    · exact .inr (.inl rfl)

/-- Where Redis does what it is asked, the request is served. -/
theorem resume_fits (hopens : deps.config.Opens)
    (hsound : ∀ key text, s.store.get key = some text → Sound deps s key text)
    (h : Fits deps s q (.waiting pc)) :
    Fits deps (resume deps e pc s).1 q (resume deps e pc s).2 ∧
      (¬ Unreached e pc → Served (resume deps e pc s).2) := by
  cases pc with
  | received req =>
    obtain rfl : req = q := h
    exact receive_fits deps s e.connected req
  | getting entry =>
    simp only [resume]
    split
    · exact ⟨⟨h, fun text htext => hsound _ text htext⟩, fun _ => trivial⟩
    next hreply => exact ⟨rfl, fun hreached => hreached hreply⟩
  | got entry existingData =>
    simp only [resume]
    split
    next c text =>
      obtain herror | herror | ⟨r, hr, hmem⟩ := answer_cases hopens entry (h.2 _ rfl)
      · rw [herror]
        exact ⟨fun _ => .inl rfl, fun _ => trivial⟩
      · rw [herror]
        exact ⟨fun _ => .inr rfl, fun _ => trivial⟩
      · rw [hr]
        exact ⟨⟨entry, h.1, hmem⟩, fun _ => trivial⟩
    · exact ⟨⟨h.1, e.nonce, rfl⟩, fun _ => trivial⟩
  | locking entry text =>
    have hfailed : e.reply ≠ .answered → ¬ Unreached e (.locking entry text) → False :=
      fun hreply hreached => hreached hreply
    simp only [resume]
    split
    · exact ⟨h.1, fun _ => trivial⟩
    next hreply => exact ⟨rfl, hfailed (by rw [hreply]; nofun)⟩
    next hreply => exact ⟨rfl, hfailed (by rw [hreply]; nofun)⟩
  | locked entry lockAcquired =>
    cases lockAcquired with
    | false => exact ⟨fun _ => .inl rfl, fun _ => trivial⟩
    | true => exact ⟨h, fun _ => trivial⟩
  | handling entry =>
    exact ⟨⟨h, e.response.property, mem_append_right _ mem_cons_self, e.nonce, rfl⟩,
      fun _ => trivial⟩
  | persisting entry r text =>
    simp only [resume]
    split
    · exact ⟨⟨entry, h.1, h.2.2.1⟩, fun _ => trivial⟩
    · exact ⟨⟨entry, h.1, h.2.2.1⟩, fun _ => trivial⟩

/-- Under a claimed key nothing was answered, and nothing run before the
claim is taken up. -/
def Claimed (s : Server) : Pc → Prop
  | .locked entry true => (s.store.get entry.storageKey).isSome ∧
      s.runs entry.storageKey = [] ∧ s.answers entry.storageKey = []
  | .handling entry => (s.store.get entry.storageKey).isSome ∧ s.answers entry.storageKey = []
  | _ => True

theorem Claimed.isSome (h : Claimed s pc) (hkey : pc.claims = some key) :
    (s.store.get key).isSome := by
  cases pc with
  | locked entry lockAcquired =>
    cases lockAcquired with
    | false => cases hkey
    | true =>
      cases hkey
      exact h.1
  | handling entry =>
    cases hkey
    exact h.1
  | _ => cases hkey

/-- Every key was run and answered under at most once, and not before it
was claimed; what is stored is sound. -/
structure Kept (deps : Deps) (s : Server) : Prop where
  runs : ∀ key, (s.runs key).length ≤ 1
  answers : ∀ key, (s.answers key).length ≤ 1
  free : ∀ key, s.store.get key = none → s.runs key = [] ∧ s.answers key = []
  sound : ∀ key text, s.store.get key = some text → Sound deps s key text

theorem runs_append (s : Server) (entry : Entry) (key : String) :
    Server.runs { s with ran := s.ran ++ [entry] } key
      = s.runs key ++ if entry.storageKey = key then [entry] else [] := by
  simp [Server.runs, filter_append, filter_cons]

theorem answers_append (s : Server) (entry : Entry) (r : Response) (key : String) :
    Server.answers { s with answered := s.answered ++ [(entry, r)] } key
      = s.answers key ++ if entry.storageKey = key then [(entry, r)] else [] := by
  simp [Server.answers, filter_append, filter_cons]

/-- A store in which only the text of one key was replaced, by a sound
one. -/
theorem Kept.set (h : Kept deps s) {text : List Char} (htext : Sound deps s key text) :
    Kept deps { s with store := s.store.set key text } where
  runs := h.runs
  answers := h.answers
  free := by
    intro key' hnone
    rw [Store.get_set] at hnone
    split at hnone
    · cases hnone
    · exact h.free key' hnone
  sound := by
    intro key' text' hget
    rw [Store.get_set] at hget
    split at hget
    next hkey =>
      cases hget
      exact hkey ▸ htext
    · exact h.sound key' text' hget

/-- One more note under a key without any is the only one. -/
theorem length_noted {α : Type} {log : String → List α} {claimed : String} {a : α}
    (hnil : log claimed = []) (h : (log key).length ≤ 1) :
    (log key ++ if claimed = key then [a] else []).length ≤ 1 := by
  split
  next hkey =>
    rw [← hkey, hnil]
    exact Nat.le_refl 1
  · rwa [append_nil]

theorem ne_of_free {claimed : String} (hstored : (s.store.get claimed).isSome)
    (hnone : s.store.get key = none) : claimed ≠ key := by
  rintro rfl
  rw [hnone] at hstored
  cases hstored

theorem Kept.acts (h : Kept deps s) (hacts : Acts s pc s') (hclaimed : Claimed s pc)
    (hfits : Fits deps s q (.waiting pc)) : Kept deps s' := by
  cases hacts with
  | stay => exact h
  | claim free =>
    obtain ⟨-, nonce, rfl⟩ := hfits
    exact h.set (.inl ⟨nonce, _, rfl⟩)
  | @run entry =>
    obtain ⟨hstored, hruns, -⟩ := hclaimed
    refine ⟨fun key => ?_, h.answers, fun key hnone => ?_, h.sound⟩
    · rw [runs_append]
      exact length_noted hruns (h.runs key)
    · rw [runs_append, if_neg (ne_of_free hstored hnone), append_nil]
      exact h.free key hnone
  | @answer entry r =>
    obtain ⟨hstored, hanswers⟩ := hclaimed
    refine ⟨h.runs, fun key => ?_, fun key hnone => ?_, fun key text hget => ?_⟩
    · rw [answers_append]
      exact length_noted hanswers (h.answers key)
    · rw [answers_append, if_neg (ne_of_free hstored hnone), append_nil]
      exact h.free key hnone
    · exact (h.sound key text hget).mono (subset_append_left ..)
  | persist =>
    obtain ⟨-, hr, hmem, nonce, rfl⟩ := hfits
    exact h.set (.inr ⟨nonce, _, _, rfl, hr, hmem⟩)

/-- What one request does leaves the claims of the others alone. -/
theorem Claimed.frame (h : Claimed s pc') (hacts : Acts s pc s')
    (hother : ∀ key, pc.claims = some key → pc'.claims ≠ some key) : Claimed s' pc' := by
  have hruns : ∀ key, pc'.claims = some key → s.runs key = [] → s'.runs key = [] := by
    intro key hkey hnil
    cases hacts with
    | @run entry =>
      have hne : entry.storageKey ≠ key := fun heq => hother key (congrArg some heq) hkey
      rw [runs_append, hnil, if_neg hne]
      rfl
    | _ => exact hnil
  have hanswers : ∀ key, pc'.claims = some key → s.answers key = [] → s'.answers key = [] := by
    intro key hkey hnil
    cases hacts with
    | @answer entry r =>
      have hne : entry.storageKey ≠ key := fun heq => hother key (congrArg some heq) hkey
      rw [answers_append, hnil, if_neg hne]
      rfl
    | _ => exact hnil
  cases pc' with
  | locked entry lockAcquired =>
    cases lockAcquired with
    | false => trivial
    | true => exact ⟨hacts.isSome h.1, hruns _ rfl h.2.1, hanswers _ rfl h.2.2⟩
  | handling entry => exact ⟨hacts.isSome h.1, hanswers _ rfl h.2⟩
  | _ => trivial

/-- Where a request goes on to. -/
inductive Next (s : Server) : Pc → Pc → Prop
  | get (req : Request) (entry : Entry) : Next s (.received req) (.getting entry)
  | got (entry : Entry) (existingData : Option (List Char)) :
    Next s (.getting entry) (.got entry existingData)
  | lock (entry : Entry) (existingData : Option (List Char)) (text : List Char) :
    Next s (.got entry existingData) (.locking entry text)
  | locked (entry : Entry) (text : List Char) :
    Next s (.locking entry text) (.locked entry (s.store.get entry.storageKey).isNone)
  | handle (entry : Entry) : Next s (.locked entry true) (.handling entry)
  | persist (entry : Entry) (r : Response) (text : List Char) :
    Next s (.handling entry) (.persisting entry r text)

theorem resume_next (hnext : (resume deps e pc s).2 = .waiting pc') : Next s pc pc' := by
  cases pc with
  | received req =>
    simp only [resume, receive] at hnext
    split at hnext
    · cases hnext
    · split at hnext
      · cases hnext
      · split at hnext
        · cases hnext
        · cases hnext
          exact .get ..
  | getting entry =>
    simp only [resume] at hnext
    split at hnext
    · cases hnext
      exact .got ..
    · cases hnext
  | got entry existingData =>
    simp only [resume] at hnext
    split at hnext
    · cases hnext
    · cases hnext
      exact .lock ..
  | locking entry text =>
    simp only [resume] at hnext
    split at hnext
    · cases hnext
      exact .locked ..
    · cases hnext
    · cases hnext
  | locked entry lockAcquired =>
    cases lockAcquired with
    | false => cases hnext
    | true =>
      cases hnext
      exact .handle entry
  | handling entry =>
    cases hnext
    exact .persist ..
  | persisting entry r text =>
    simp only [resume] at hnext
    split at hnext
    · cases hnext
    · cases hnext

/-- A key is claimed where it was free, and a claim is kept up to the
answer. -/
theorem Next.claims (h : Next s pc pc') (hkey : pc'.claims = some key) :
    pc.claims = some key ∨ s.store.get key = none := by
  cases h with
  | locked entry text =>
    cases hstored : s.store.get entry.storageKey with
    | none =>
      rw [hstored] at hkey
      cases hkey
      exact .inr hstored
    | some stored =>
      rw [hstored] at hkey
      cases hkey
  | handle entry => exact .inl hkey
  | _ => cases hkey

theorem resume_claimed (hkept : Kept deps s) (h : Claimed s pc)
    (hnext : (resume deps e pc s).2 = .waiting pc') : Claimed (resume deps e pc s).1 pc' := by
  cases resume_next hnext with
  | locked entry text =>
    cases hstored : s.store.get entry.storageKey with
    | none =>
      obtain ⟨hruns, hanswers⟩ := hkept.free _ hstored
      simp only [resume] at hnext ⊢
      split at hnext
      · simp only [hstored, isNone_none, if_true]
        exact ⟨by rw [Store.get_set, if_pos rfl]; rfl, hruns, hanswers⟩
      · cases hnext
      · cases hnext
    | some stored => trivial
  | handle entry => exact ⟨h.1, h.2.2⟩
  | _ => trivial

end

/-! ## Runs -/

abbrev State := Sys Request Server Pc Outcome

abbrev Cmd := Coop.Cmd Request Env

structure Invariant (deps : Deps) (σ : State) : Prop where
  kept : Kept deps σ.shared
  fits : Each (Fits deps) σ
  claimed : Held Claimed σ
  exclusive : Exclusive Pc.claims σ

theorem Kept.opened (deps : Deps) : Kept deps {} where
  runs _ := Nat.zero_le 1
  answers _ := Nat.zero_le 1
  free _ _ := ⟨rfl, rfl⟩
  sound key text hget := by
    have hnone : Store.get [] key = none := rfl
    cases hnone.symm.trans hget

theorem Invariant.opened (deps : Deps) : Invariant deps { shared := {} } where
  kept := .opened deps
  fits := forall_mem_nil _
  claimed := forall_mem_nil _
  exclusive i _ c _ _ hi := by cases hi

section

variable {deps : Deps} {σ : State} {k : Cmd}

theorem Invariant.step (hopens : deps.config.Opens) (h : Invariant deps σ) (k : Cmd) :
    Invariant deps (step (middleware deps) σ k) where
  kept := by
    refine shared_step h.kept fun e pc hresumed => ?_
    obtain ⟨i, q, -, hi⟩ := resumed_eq_some hresumed
    exact h.kept.acts (resume_acts deps e pc σ.shared) (h.claimed.at_resumed hresumed)
      (h.fits _ (mem_of_getElem? hi))
  fits := h.fits.step (fun q => rfl)
    (fun e q pc _ hfits => (resume_fits hopens h.kept.sound hfits).1)
    (fun e pc q task _ hfits => hfits.mono (resume_acts deps e pc σ.shared).answered)
  claimed := by
    refine h.claimed.step_others (fun q _ => trivial)
      (fun e pc pc' _ hclaimed hnext => resume_claimed h.kept hclaimed hnext) ?_
    intro i e q pc j q' pc' _ hi hji hj _ hclaimed
    refine hclaimed.frame (resume_acts deps e pc σ.shared) fun key hkey hkey' => hji ?_
    exact h.exclusive j i _ _ key hj hi hkey' hkey
  exclusive := by
    refine h.exclusive.step (fun q => rfl) fun e pc pc' key _ hnext hkey => ?_
    refine (resume_next hnext).claims hkey |>.imp_right fun hfree c hc hheld => ?_
    -- a claimed key is stored
    obtain ⟨pc'', hpc'', hclaims⟩ := heldBy_eq_some.mp hheld
    have hstored := (h.claimed c hc pc'' hpc'').isSome hclaims
    rw [hfree] at hstored
    cases hstored

def Rejects (σ : State) (k : Cmd) : Prop := ∃ e pc, resumed σ k = some (e, pc) ∧ Unreached e pc

theorem run_served (hopens : deps.config.Opens) {ks : List Cmd}
    (hreached : Along (step (middleware deps)) (fun σ k => ¬ Rejects σ k)
      { shared := {} } ks) :
    ∀ c ∈ (Coop.run (middleware deps) { shared := {} } ks).calls, Served c.task := by
  have hrun := run_inv_along
    (I := fun σ => Invariant deps σ ∧ Each (fun s q task => Fits deps s q task ∧ Served task) σ)
    (fun σ k h hreached => ⟨h.1.step hopens k, ?_⟩) ⟨.opened deps, forall_mem_nil _⟩ hreached
  · exact fun c hc => (hrun.2 c hc).2
  · refine h.2.step (fun q => ⟨rfl, trivial⟩) ?_ ?_
    · intro e q pc hresumed hq
      obtain ⟨hfits, hserved⟩ := resume_fits hopens h.1.kept.sound hq.1
      exact ⟨hfits, hserved fun hdown => hreached ⟨e, pc, hresumed, hdown⟩⟩
    · intro e pc q task _ hq
      exact ⟨hq.1.mono (resume_acts deps e pc σ.shared).answered, hq.2⟩

/-- The steps a request has before it. -/
def Pc.rank : Pc → Nat
  | .received _ => 6
  | .getting _ => 5
  | .got _ _ => 4
  | .locking _ _ => 3
  | .locked _ _ => 2
  | .handling _ => 1
  | .persisting _ _ _ => 0

theorem Next.rank {s : Server} {pc pc' : Pc} (h : Next s pc pc') : pc'.rank < pc.rank := by
  cases h <;> simp [Pc.rank]

/-- **Under a storage key the handler runs at most once.** Whatever the
interleaving and whatever becomes of the Redis commands: under each key at
most one handler was run, and at most one answer given. A request that was
replayed got the answer of a handler run for a request with the same key
and the same hash. While Redis carries out GET and SET NX, every other
request that is finished got one of the two errors. Every request is
finished when it was resumed seven times. -/
theorem handler_once (deps : Deps) (hopens : deps.config.Opens) (ks : List Cmd) (key : String) :
    let σ := Coop.run (middleware deps) { shared := {} } ks
    ((σ.shared.runs key).length ≤ 1 ∧ (σ.shared.answers key).length ≤ 1) ∧
    (∀ c ∈ σ.calls, ∀ entry, c.request.entry deps = some entry → entry.storageKey = key →
      (∀ r, c.task = .done (.replayed r) ∨ c.task = .done (.handled r) →
        (entry, r) ∈ σ.shared.answers key) ∧
      (Along (step (middleware deps)) (fun σ k => ¬ Rejects σ k) { shared := {} } ks →
        ∀ outcome, c.task = .done outcome →
          outcome = .refused inProgress ∨ outcome = .refused keyMismatch ∨
          ∃ r, outcome = .replayed r ∨ outcome = .handled r)) ∧
    ∀ i c, σ.calls[i]? = some c → ∀ es : List Env, 7 ≤ es.length →
      ∃ outcome, (Coop.run (middleware deps) σ (es.map (.resume i))).calls[i]?
        = some ⟨c.request, .done outcome⟩ := by
  intro σ
  have hinv : Invariant deps σ := run_inv (fun _ k h => h.step hopens k) (.opened deps) ks
  refine ⟨⟨hinv.kept.runs key, hinv.kept.answers key⟩, ?_, ?_⟩
  · intro c hc entry hentry hkey
    have hfits := hinv.fits c hc
    refine ⟨?_, ?_⟩
    · intro r hr
      have hanswered : ∃ entry, c.request.entry deps = some entry ∧ (entry, r) ∈ σ.shared.answered := by
        rcases hr with hr | hr
        · rw [hr] at hfits
          exact hfits
        · rw [hr] at hfits
          exact hfits
      obtain ⟨entry', hentry', hmem⟩ := hanswered
      cases hentry.symm.trans hentry'
      exact mem_filter.mpr ⟨hmem, decide_eq_true hkey⟩
    · intro hreached outcome houtcome
      have hserved := run_served hopens hreached c hc
      rw [houtcome] at hfits hserved
      cases outcome with
      | passed => cases hentry.symm.trans hfits
      | unavailable | failed => exact hserved.elim
      | refused error =>
        rcases hfits (by rw [hentry]; rfl) with rfl | rfl
        · exact .inl rfl
        · exact .inr (.inl rfl)
      | replayed r => exact .inr (.inr ⟨r, .inl rfl⟩)
      | handled r => exact .inr (.inr ⟨r, .inr rfl⟩)
  · intro i c hi es hes
    refine resumed_done (fun e pc s pc' hnext => (resume_next hnext).rank) hi es ?_
    refine Nat.le_trans ?_ hes
    cases c.task with
    | waiting pc => cases pc <;> simp [Coop.Task.fuel, Pc.rank]
    | done outcome => exact Nat.zero_le 7

end

/-! A cipher that hides nothing, and a request that is sent again. -/

def spell (text : List Char) : List UInt8 :=
  text.flatMap fun c => [.ofNat (c.toNat / 65536), .ofNat (c.toNat / 256), .ofNat c.toNat]

def unspell : List UInt8 → List Char
  | a :: b :: c :: rest => Char.ofNat (a.toNat * 65536 + b.toNat * 256 + c.toNat) :: unspell rest
  | _ => []

theorem unspell_spell (text : List Char) : unspell (spell text) = text := by
  induction text with
  | nil => rfl
  | cons c text ih =>
    have hc := toNat_range c
    have hvalue : c.toNat / 65536 % 256 * 65536 + c.toNat / 256 % 256 * 256 + c.toNat % 256
        = c.toNat := by omega
    rw [spell, flatMap_cons] at *
    simp only [cons_append, nil_append, unspell, UInt8.toNat_ofNat', ih, Nat.reducePow,
      hvalue, Char.ofNat_toNat]

def plainDeps : Deps where
  sha256 := fun _ => "0"
  cipher := ⟨fun _ _ text => (spell text, []), fun _ _ ciphertext _ => some (unspell ciphertext),
    fun _ _ text => congrArg some (unspell_spell text)⟩
  configOverride := none

def checkout : Request where
  idempotencyKey := some "c-1"
  method := "POST"
  originalUrl := "/sessions"
  body := some (.object [])
  authUserId := some "ann"
  user := none
  apiKeyId := none
  ip := none
  remoteAddress := none
  baseUrl := ""
  routePath := .pattern "/sessions"

def created : {r : Response // r.Printable} where
  val := ⟨"201".toList, some (.object [])⟩
  property :=
    { statusCode := by decide
      body := fun v hv => by
        cases hv
        exact .intro (forall_mem_nil _) (forall_mem_nil _) }

/-- Everything goes well. -/
def calm : Env where
  connected := true
  nonce := [7]
  reply := .answered
  response := created

/-- The second request comes while the first is at its GET, and reads the
key when the answer to the first is stored. -/
def sentAgain : List Cmd :=
  [.call checkout, .resume 0 calm, .call checkout, .resume 1 calm] ++
    List.replicate 6 (.resume 0 calm) ++ [.resume 1 calm, .resume 1 calm]

def isReplayed : Coop.Task Pc Outcome → Bool
  | .done (.replayed r) => r.statusCode = "201".toList
  | _ => false

theorem sentAgain_replayed :
    (Coop.run (middleware plainDeps) { shared := {} } sentAgain).calls.map
        (fun c => isReplayed c.task) = [false, true] ∧
      ∀ key, ((Coop.run (middleware plainDeps) { shared := {} } sentAgain).shared.runs key).length
        ≤ 1 :=
  ⟨by decide +kernel, fun key => (handler_once plainDeps trivial sentAgain key).1.1⟩

end ChronoPay.Idempotency
