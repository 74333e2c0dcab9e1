import OpenMemory.Domain.Python
import OpenMemory.Lib.Txn
import OpenMemory.Lib.Json
import OpenMemory.Lib.Base64

/-!
# Envelope encryption (`cloud/security.py`)

A field is encrypted under a fresh data key, and the data key is wrapped by the key management
service. AES-GCM and the KMS are parameters: `AESGCM` is a pair of functions on bytes, and
`KeyManagementService` has the two methods of the protocol. `LocalDevelopmentKMS` is the one that
`security.py` implements, over AES-GCM with a master key.

What a call observes of the world is an `Environment`: readings of the clock, random bytes and
which requests to the KMS fail, each at its own tick. A computation that observes it runs in
`Observing`, which counts the ticks.
-/

namespace OpenMemory.Cloud

open Lib

abbrev Bytes := List UInt8

/-- `text.encode()`. -/
def encodeText (text : String) : Bytes := text.toUTF8.data.toList

/-- `data.decode()`, `none` for `UnicodeDecodeError`. -/
def decodeText (data : Bytes) : Option String := String.fromUTF8? ⟨data.toArray⟩

theorem decodeText_encodeText (text : String) : decodeText (encodeText text) = some text := by
  unfold decodeText encodeText
  rw [Array.toArray_toList]
  exact dif_pos text.isValidUTF8

theorem encodeText_injective : Function.Injective encodeText := by
  intro a b h
  have hread := congrArg decodeText h
  rw [decodeText_encodeText, decodeText_encodeText] at hread
  exact Option.some.inj hread

/-! ## Errors -/

inductive CloudError
  | permissionError (message : String)
  | kmsUnavailableError (message : String)
  | valueError (message : String)
  | keyError (message : String)
  | typeError
  | attributeError
  deriving DecidableEq

/-- `isinstance(error, PermissionError)`. -/
def CloudError.isPermissionError : CloudError → Bool
  | permissionError _ => true
  | kmsUnavailableError _ => true
  | _ => false

/-! ## The world -/

/-- What one call observes; `urandom t n` are `n` random bytes at tick `t`. -/
structure Environment where
  uuid4 : UUID
  now : Nat → DateTime
  urandom : Nat → Nat → Bytes
  kmsFails : Nat → Bool
  now_utc : ∀ t, (now t).offset = some 0
  length_urandom : ∀ t n, (urandom t n).length = n

/-- A computation that observes the world and may raise. -/
abbrev Observing : Type → Type := Txn Nat CloudError

/-- `os.urandom`. -/
def urandom (env : Environment) (n : Nat) : Observing Bytes := fun t => .ok (env.urandom t n, t + 1)

/-! ## Keys -/

/-- AES-GCM: key, nonce, data and associated data; `none` for `InvalidTag`. -/
structure AESGCM where
  encrypt : Bytes → Bytes → Bytes → Bytes → Bytes
  decrypt : Bytes → Bytes → Bytes → Bytes → Option Bytes

/-- `KeyManagementService`; `wrap` may draw random bytes. -/
structure KeyManagementService where
  wrap : (Nat → Bytes) → UUID → Int → Bytes → Except CloudError Bytes
  unwrap : UUID → Int → Bytes → Except CloudError Bytes

/-- `LocalDevelopmentKMS`. -/
structure LocalDevelopmentKMS where
  masterKey : Bytes
  isAesKey : masterKey.length ∈ [16, 24, 32]

namespace LocalDevelopmentKMS

/-- `_aad`. -/
def aad (tenantId : UUID) (keyVersion : Int) : Bytes :=
  encodeText ("umcp/dek/v1/" ++ tenantId.str ++ "/" ++ toString keyVersion)

/-- The two methods over AES-GCM. -/
def service (kms : LocalDevelopmentKMS) (aes : AESGCM) : KeyManagementService where
  wrap random tenantId keyVersion dek :=
    if keyVersion < 1 ∨ dek.length ≠ 32 then
      .error (.kmsUnavailableError "invalid envelope key request")
    else
      .ok (random 12 ++ aes.encrypt kms.masterKey (random 12) dek (aad tenantId keyVersion))
  unwrap tenantId keyVersion wrappedDek :=
    if keyVersion < 1 ∨ wrappedDek.length < 12 + 16 then
      .error (.kmsUnavailableError "key unwrap failed")
    else
      match aes.decrypt kms.masterKey (wrappedDek.take 12) (wrappedDek.drop 12)
          (aad tenantId keyVersion) with
      | none => .error (.kmsUnavailableError "key unwrap failed")
      | some dek =>
        if dek.length ≠ 32 then .error (.kmsUnavailableError "key unwrap failed") else .ok dek

end LocalDevelopmentKMS

/-- `HostedKMSUnavailable`. -/
def hostedKMSUnavailable (reason : String) : KeyManagementService where
  wrap _ _ _ _ := .error (.kmsUnavailableError reason)
  unwrap _ _ _ := .error (.kmsUnavailableError reason)

/-! ## Envelopes -/

structure EnvelopeCiphertext where
  keyVersion : Int
  wrappedDek : Bytes
  nonce : Bytes
  ciphertext : Bytes
  deriving DecidableEq

namespace EnvelopeCiphertext

/-- The base64 text of bytes. -/
def b64 (data : Bytes) : String := String.ofList (Base64.encode data)

/-- `encode`. -/
def encode (value : EnvelopeCiphertext) : String :=
  JsonValue.dumpsCompact (.obj [
    ("v", .int 1),
    ("k", .int value.keyVersion),
    ("w", .str (b64 value.wrappedDek)),
    ("n", .str (b64 value.nonce)),
    ("c", .str (b64 value.ciphertext))])

/-- `base64.urlsafe_b64decode(str(payload[key]))`; only a text has base64 in it. -/
def decodeField (payload : List (String × JsonValue)) (key : String) : Option Bytes :=
  match JsonValue.member key payload with
  | some (.str text) => Base64.decode text.toList
  | _ => none

/-- What `decode` reads, `none` where it raises. -/
def parse (text : String) : Option EnvelopeCiphertext := do
  let payload ← JsonValue.loads text
  match payload with
  | .obj members =>
    match JsonValue.member "v" members, JsonValue.member "k" members with
    | some (.int 1), some (.int keyVersion) =>
      if keyVersion < 1 then none
      else
        let wrappedDek ← decodeField members "w"
        let nonce ← decodeField members "n"
        let ciphertext ← decodeField members "c"
        if wrappedDek.length < 12 + 16 ∨ nonce.length ≠ 12 ∨ ciphertext.length < 16 then none
        else some ⟨keyVersion, wrappedDek, nonce, ciphertext⟩
    | _, _ => none
  | _ => none

/-- `decode`. -/
def decode (text : String) : Except CloudError EnvelopeCiphertext :=
  match parse text with
  | none => .error (.permissionError "ciphertext envelope is invalid")
  | some value => .ok value

end EnvelopeCiphertext

/-! ## The encryptor -/

/-- `TenantEnvelopeEncryptor`, with the AES-GCM it uses. -/
structure TenantEnvelopeEncryptor where
  aes : AESGCM
  kms : KeyManagementService

namespace TenantEnvelopeEncryptor

/-- `_aad`. -/
def aad (tenantId recordId : UUID) (field : String) (keyVersion : Int) : Bytes :=
  encodeText ("umcp/content/v1/" ++ tenantId.str ++ "/" ++ recordId.str ++ "/" ++ field ++ "/" ++
    toString keyVersion)

variable (encryptor : TenantEnvelopeEncryptor) (env : Environment)

/-- A request to wrap a key; whatever it raises becomes a KMS error. -/
def requestWrap (tenantId : UUID) (keyVersion : Int) (dek : Bytes) : Observing Bytes := fun t =>
  if env.kmsFails t then .error (.kmsUnavailableError "key wrap failed")
  else
    match encryptor.kms.wrap (env.urandom t) tenantId keyVersion dek with
    | .error _ => .error (.kmsUnavailableError "key wrap failed")
    | .ok wrapped => .ok (wrapped, t + 1)

/-- A request to unwrap a key; whatever it raises becomes a KMS error. -/
def requestUnwrap (tenantId : UUID) (keyVersion : Int) (wrappedDek : Bytes) : Observing Bytes :=
  fun t =>
    if env.kmsFails t then .error (.kmsUnavailableError "key unwrap failed")
    else
      match encryptor.kms.unwrap tenantId keyVersion wrappedDek with
      | .error _ => .error (.kmsUnavailableError "key unwrap failed")
      | .ok dek => .ok (dek, t + 1)

/-- `encrypt`. -/
def encrypt (tenantId recordId : UUID) (field plaintext : String) (keyVersion : Int) :
    Observing EnvelopeCiphertext :=
  if keyVersion < 1 ∨ field = "" ∨ '/' ∈ field.toList then
    throw (.valueError "invalid envelope field or key version")
  else do
    let dek ← urandom env 32
    let nonce ← urandom env 12
    let ciphertext := encryptor.aes.encrypt dek nonce (encodeText plaintext)
      (aad tenantId recordId field keyVersion)
    let wrappedDek ← encryptor.requestWrap env tenantId keyVersion dek
    pure ⟨keyVersion, wrappedDek, nonce, ciphertext⟩

/-- `decrypt`. -/
def decrypt (tenantId recordId : UUID) (field : String) (value : EnvelopeCiphertext) :
    Observing String :=
  if value.keyVersion < 1 ∨ value.nonce.length ≠ 12 ∨ value.ciphertext.length < 16 then
    throw (.permissionError "ciphertext envelope is invalid")
  else do
    let dek ← encryptor.requestUnwrap env tenantId value.keyVersion value.wrappedDek
    if dek.length ≠ 32 then throw (.kmsUnavailableError "key unwrap returned an invalid DEK")
    else
      match (encryptor.aes.decrypt dek value.nonce value.ciphertext
          (aad tenantId recordId field value.keyVersion)).bind decodeText with
      | none => throw (.permissionError "ciphertext authentication failed")
      | some plaintext => pure plaintext

/-- `rewrap`. -/
def rewrap (tenantId recordId : UUID) (field : String) (value : EnvelopeCiphertext)
    (keyVersion : Int) : Observing EnvelopeCiphertext :=
  if keyVersion < 1 then throw (.valueError "key version must be positive")
  else do
    let plaintext ← encryptor.decrypt env tenantId recordId field value
    encryptor.encrypt env tenantId recordId field plaintext keyVersion

end TenantEnvelopeEncryptor

end OpenMemory.Cloud
