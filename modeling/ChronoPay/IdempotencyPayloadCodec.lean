import ChronoPay.Lib.Base64
import ChronoPay.Lib.JsonPrint

/-!
# IdempotencyPayloadCodec — how a state is kept in Redis

A state is stored as its JSON text or, with encryption enabled, as the
text of an envelope around the encrypted text. What is read is decrypted
when it looks like an envelope, whatever the configuration says.

AES-256-GCM under the fixed additional data is a parameter: all that is
used of it is that a text encrypted under a key and a nonce comes back.
-/

namespace ChronoPay.IdempotencyPayloadCodec

open JsonText

structure EncryptionKey where
  id : String
  value : List UInt8

/-- `IdempotencyRedisEncryptionConfig` -/
inductive EncryptionConfig where
  | disabled (decryptionKeys : List EncryptionKey)
  | enabled (activeKey : EncryptionKey) (decryptionKeys : List EncryptionKey)

def EncryptionConfig.decryptionKeys : EncryptionConfig → List EncryptionKey
  | .disabled keys => keys
  | .enabled _ keys => keys

def getDefaultCodecConfig : EncryptionConfig := .disabled []

/-- The configuration of `getIdempotencyPayloadCodec()`. -/
def codecConfig (configOverride : Option EncryptionConfig) : EncryptionConfig :=
  configOverride.getD getDefaultCodecConfig

/-- AES-256-GCM of a text in UTF-8: the ciphertext and the tag. -/
structure Cipher where
  encrypt (key nonce : List UInt8) (plaintext : List Char) : List UInt8 × List UInt8
  decrypt (key nonce ciphertext tag : List UInt8) : Option (List Char)
  decrypt_encrypt : ∀ key nonce plaintext,
    decrypt key nonce (encrypt key nonce plaintext).1 (encrypt key nonce plaintext).2
      = some plaintext

inductive CodecError where
  /-- `JSON.parse` threw. -/
  | syntaxError
  | decryptError (message : String)

structure Envelope where
  keyId : List Nat
  nonce : List Nat
  ciphertext : List Nat
  tag : List Nat

/-- `{ [ENCRYPTION_PREFIX]: envelope }` -/
def Envelope.toJson (envelope : Envelope) : Json :=
  literalObject [("enc", literalObject [
    ("version", .string (units "v1")),
    ("algorithm", .string (units "aes-256-gcm")),
    ("keyId", .string envelope.keyId),
    ("nonce", .string envelope.nonce),
    ("ciphertext", .string envelope.ciphertext),
    ("tag", .string envelope.tag)])]

/-- A member that is a string. -/
def stringAt (key : String) (v : Json) : Option (List Nat) :=
  match v.get key with
  | some (.string s) => some s
  | _ => none

/-- `isEncryptedEnvelope`, with the envelope it finds. -/
def encryptedEnvelope (value : Json) : Option Envelope :=
  match value.get "enc" with
  | none => none
  | some candidate =>
    if stringAt "version" candidate = some (units "v1")
        ∧ stringAt "algorithm" candidate = some (units "aes-256-gcm") then
      match stringAt "keyId" candidate, stringAt "nonce" candidate,
          stringAt "ciphertext" candidate, stringAt "tag" candidate with
      | some keyId, some nonce, some ciphertext, some tag => some ⟨keyId, nonce, ciphertext, tag⟩
      | _, _, _, _ => none
    else none

section

variable (cipher : Cipher) (config : EncryptionConfig)

/-- `serialize(value)`, the nonce drawn for it given. -/
def serialize (nonce : List UInt8) (value : Json) : List Char :=
  match config with
  | .disabled _ => print value
  | .enabled activeKey _ =>
    let encrypted := cipher.encrypt activeKey.value nonce (print value)
    print (Envelope.toJson {
      keyId := units activeKey.id
      nonce := units (Base64.encode nonce)
      ciphertext := units (Base64.encode encrypted.1)
      tag := units (Base64.encode encrypted.2) })

/-- `Buffer.from(text, "base64")` -/
def fromBase64 (text : List Nat) : List UInt8 := Base64.decode (textOf text)

def decryptEnvelope (envelope : Envelope) : Except CodecError Json :=
  match config.decryptionKeys.find? fun candidate => units candidate.id = envelope.keyId with
  | none => .error (.decryptError
      s!"Unable to decrypt idempotency payload for key id '{textOf envelope.keyId}'.")
  | some key =>
    match (cipher.decrypt key.value (fromBase64 envelope.nonce) (fromBase64 envelope.ciphertext)
        (fromBase64 envelope.tag)).bind parse with
    | some value => .ok value
    | none => .error (.decryptError "Failed to decrypt idempotency payload.")

def deserialize (rawValue : List Char) : Except CodecError Json :=
  match parse rawValue with
  | none => .error .syntaxError
  | some parsed =>
    match encryptedEnvelope parsed with
    | none => .ok parsed
    | some envelope => decryptEnvelope cipher config envelope

end

/-! ## What is stored is read back -/

/-- The active key is the one its id finds among the decryption keys. -/
def EncryptionConfig.Opens : EncryptionConfig → Prop
  | .disabled _ => True
  | .enabled activeKey keys => keys.find? (fun key => key.id = activeKey.id) = some activeKey

theorem encryptedEnvelope_toJson (envelope : Envelope) :
    encryptedEnvelope envelope.toJson = some envelope := by
  simp [encryptedEnvelope, Envelope.toJson, stringAt, get_literalObject]

theorem toJson_printable (keyId nonce ciphertext tag : String) :
    Everywhere Printable
      (Envelope.toJson ⟨units keyId, units nonce, units ciphertext, units tag⟩) := by
  refine printable_literalObject (List.forall_mem_singleton.mpr (printable_literalObject ?_))
  simp only [List.forall_mem_cons, printable_string, true_and]
  exact List.forall_mem_nil _

theorem fromBase64_encode (bytes : List UInt8) : fromBase64 (units (Base64.encode bytes)) = bytes := by
  rw [fromBase64, textOf_units, Base64.decode_encode]

theorem deserialize_serialize (cipher : Cipher) {config : EncryptionConfig} (hopens : config.Opens)
    (nonce : List UInt8) {value : Json} (hvalue : Everywhere Printable value)
    (hplain : encryptedEnvelope value = none) :
    deserialize cipher config (serialize cipher config nonce value) = .ok value := by
  cases config with
  | disabled keys =>
    rw [serialize, deserialize, parse_print hvalue]
    dsimp only
    rw [hplain]
  | enabled activeKey keys =>
    have hkey : keys.find? (fun key => units key.id = units activeKey.id) = some activeKey := by
      simp only [units_inj]
      exact hopens
    rw [serialize, deserialize, parse_print (toJson_printable ..)]
    dsimp only
    rw [encryptedEnvelope_toJson]
    dsimp only [decryptEnvelope, EncryptionConfig.decryptionKeys]
    rw [hkey]
    dsimp only
    rw [fromBase64_encode, fromBase64_encode, fromBase64_encode, cipher.decrypt_encrypt,
      Option.bind_some, parse_print hvalue]

end ChronoPay.IdempotencyPayloadCodec
