import OpenMemory.Domain.Memory
import OpenMemory.Lib.Checks

/-!
# The domain codec (`domain/serialization.py`)

`memoryToDict` and `memoryFromDict`, the latter on anything that `json.loads` returns (`Loaded`),
with its conversions in their order and what each of them raises: `int` of an infinity and `float`
of a huge integer raise `OverflowError`, as `ensureAware` does for an extreme timestamp. The handler
(`handled`) turns `KeyError`, `TypeError` and `ValueError` into a `ValidationError`.
-/

namespace OpenMemory

open Lib

/-! ## Values -/

/-- A float: a number of `R`, an infinity or not a number. -/
inductive Number (R : Type)
  | finite (x : R)
  | infinity (negative : Bool)
  | nan
  deriving DecidableEq

/-- A value that `json.loads` returns. -/
inductive Loaded (R : Type)
  | null
  | bool (b : Bool)
  | int (n : Int)
  | float (x : Number R)
  | str (s : String)
  | arr (items : List (Loaded R))
  | obj (members : List (String × Loaded R))

/-- The conversions of the built-in numbers and texts. -/
class Conversions (R : Type) [Python R] where
  /-- `float(x)` of a number that is none of the special ones. -/
  float : R → R
  /-- `int(x)` of such a number. -/
  trunc : R → Int
  /-- `float(text)`, `none` for `ValueError`. -/
  parseFloat : String → Option (Number R)
  /-- `int(text)`, `none` for `ValueError`. -/
  parseInt : String → Option Int
  /-- `repr(x)` of a float. -/
  reprFloat : Number R → String
  /-- `repr(text)`. -/
  reprStr : String → String
  float_numEq : ∀ x : R, Python.inUnit x = true → Python.numEq (float x) x = true

/-- What the decoder can meet: `TypeError`, or an exception of the domain and of the built-ins. -/
inductive DecodeError
  | typeError
  | raised (e : PyError)
  deriving DecidableEq

namespace DecodeError

abbrev keyError : DecodeError := .raised .keyError

abbrev valueError : DecodeError := .raised (.valueError "")

abbrev overflowError : DecodeError := .raised .overflowError

/-- What a parser returned, or `ValueError`. -/
def parsed {α : Type} : Option α → Except DecodeError α
  | none => .error valueError
  | some a => .ok a

/-- `except (KeyError, TypeError, ValueError)` catches it. -/
def caught : DecodeError → Bool
  | .typeError => true
  | .raised .keyError => true
  | .raised (.valueError _) => true
  | _ => false

/-- Neither caught nor a `ValidationError`. -/
def Escapes (e : DecodeError) : Prop :=
  e.caught = false ∧ ∀ message, e ≠ .raised (.validation message)

end DecodeError

namespace Loaded

variable {R : Type}

/-- `members[key]`, if it is there. -/
def get (members : List (String × Loaded R)) (key : String) : Option (Loaded R) :=
  members.lookup key

/-- `bool(value)`. -/
def truthy [Python R] : Loaded R → Bool
  | .null => false
  | .bool b => b
  | .int n => decide (n ≠ 0)
  | .float (.finite x) => !Python.numEq x (Python.ofInt 0)
  | .float _ => true
  | .str s => decide (s ≠ "")
  | .arr items => !items.isEmpty
  | .obj members => !members.isEmpty

/-- `value == 1`. -/
def isOne [Python R] : Loaded R → Bool
  | .bool b => b
  | .int n => decide (n = 1)
  | .float (.finite x) => Python.numEq x (Python.ofInt 1)
  | _ => false

variable [Python R] [Conversions R]

mutual

/-- `repr(value)`. -/
def repr : Loaded R → String
  | .null => "None"
  | .bool b => if b then "True" else "False"
  | .int n => toString n
  | .float x => Conversions.reprFloat x
  | .str s => Conversions.reprStr R s
  | .arr items => "[" ++ ", ".intercalate (reprAll items) ++ "]"
  | .obj members => "\x7b" ++ ", ".intercalate (reprMembers members) ++ "\x7d"

def reprAll : List (Loaded R) → List String
  | [] => []
  | item :: items => repr item :: reprAll items

def reprMembers : List (String × Loaded R) → List String
  | [] => []
  | (key, value) :: members =>
    (Conversions.reprStr R key ++ ": " ++ repr value) :: reprMembers members

end

/-- `str(value)`. -/
def text : Loaded R → String
  | .str s => s
  | value => value.repr

/-- The least integer that is too large for a float. -/
@[irreducible] def floatLimit : Nat := 2 ^ 1024 - 2 ^ 970

/-- `float(value)`. -/
def toFloat : Loaded R → Except DecodeError (Number R)
  | .bool b => .ok (.finite (Python.ofInt (if b then 1 else 0)))
  | .int n =>
    if floatLimit ≤ n.natAbs then .error .overflowError else .ok (.finite (Python.ofInt n))
  | .float (.finite x) => .ok (.finite (Conversions.float x))
  | .float x => .ok x
  | .str s => DecodeError.parsed (Conversions.parseFloat s)
  | .null | .arr _ | .obj _ => .error .typeError

/-- `int(value)`. -/
def toInt : Loaded R → Except DecodeError Int
  | .bool b => .ok (if b then 1 else 0)
  | .int n => .ok n
  | .float (.finite x) => .ok (Conversions.trunc x)
  | .float (.infinity _) => .error .overflowError
  | .float .nan => .error .valueError
  | .str s => DecodeError.parsed (Conversions.parseInt R s)
  | .null | .arr _ | .obj _ => .error .typeError

/-- `tuple(str(item) for item in value)`. -/
def toTexts : Loaded R → Except DecodeError (List String)
  | .arr items => .ok (items.map text)
  | .str s => .ok (s.toList.map fun c => String.ofList [c])
  | .obj members => .ok (members.map Prod.fst)
  | _ => .error .typeError

end Loaded

/-! ## Encoding -/

section Encoding

variable {R : Type}

/-- A nullable text. -/
def encodeOpt : Option String → Loaded R
  | none => .null
  | some s => .str s

/-- `_datetime`. -/
def encodeDatetime : Option DateTime → Loaded R
  | none => .null
  | some d => .str d.isoformat

/-- `"provenance"`. -/
def encodeProvenance (p : Provenance) : Loaded R :=
  .obj
    [("source_type", .str p.sourceType.value), ("source_id", encodeOpt p.sourceId),
      ("source_model", encodeOpt p.sourceModel), ("source_client", encodeOpt p.sourceClient),
      ("source_connection_id", encodeOpt p.sourceConnectionId),
      ("conversation_id", encodeOpt p.conversationId), ("message_id", encodeOpt p.messageId),
      ("captured_at", .str p.capturedAt.isoformat), ("evidence", .arr (p.evidence.map .str))]

/-- `"capture_consent"`. -/
def encodeConsent : Option CaptureConsent → Loaded R
  | none => .null
  | some c =>
    .obj
      [("mode", .str c.mode.value), ("consent_id", .str c.consentId),
        ("reason_code", .str c.reasonCode.value), ("policy_version", .str c.policyVersion),
        ("granted_at", .str c.grantedAt.isoformat)]

/-- `"embedding"`. -/
def encodeEmbedding : Option EmbeddingDescriptor → Loaded R
  | none => .null
  | some e =>
    .obj
      [("profile_id", .str e.profileId), ("profile_version", .str e.profileVersion),
        ("dimension", .int e.dimension), ("metric", .str e.metric)]

/-- `memory_to_dict`. -/
def memoryToDict [Python R] (m : Memory R) : List (String × Loaded R) :=
  [("schema_version", .int 1), ("id", .str m.id.str), ("owner_id", .str m.ownerId),
    ("content", .str m.content), ("type", .str m.memoryType.value),
    ("importance", .float (.finite m.importance)), ("confidence", .float (.finite m.confidence)),
    ("state", .str m.state.value), ("version", .int m.version),
    ("created_at", .str m.createdAt.isoformat), ("updated_at", .str m.updatedAt.isoformat),
    ("occurred_at", encodeDatetime m.occurredAt), ("space", encodeOpt m.space),
    ("provenance", encodeProvenance m.provenance),
    ("capture_consent", encodeConsent m.captureConsent), ("tenant_id", encodeOpt m.tenantId),
    ("embedding", encodeEmbedding m.embedding), ("idempotency_key", encodeOpt m.idempotencyKey)]

end Encoding

/-! ## Decoding -/

section Decoding

variable {R : Type} [Python R] [Conversions R]

/-- `members[key]`. -/
def itemOf (members : List (String × Loaded R)) (key : String) : Except DecodeError (Loaded R) :=
  match Loaded.get members key with
  | none => .error .keyError
  | some value => .ok value

/-- `str(members[key])`. -/
def itemText (members : List (String × Loaded R)) (key : String) : Except DecodeError String := do
  let value ← itemOf members key
  pure value.text

/-- `parse(str(members[key]))`, where `parse` may raise `ValueError`. -/
def itemParsed {α : Type} (parse : String → Option α) (members : List (String × Loaded R))
    (key : String) : Except DecodeError α := do
  let text ← itemText members key
  DecodeError.parsed (parse text)

/-- `float(members[key])`. -/
def itemFloat (members : List (String × Loaded R)) (key : String) :
    Except DecodeError (Number R) := do
  let value ← itemOf members key
  value.toFloat

/-- `int(members[key])`. -/
def itemInt (members : List (String × Loaded R)) (key : String) : Except DecodeError Int := do
  let value ← itemOf members key
  value.toInt

/-- `members[key]`, which has to be a mapping. -/
def itemMapping (members : List (String × Loaded R)) (key : String) :
    Except DecodeError (List (String × Loaded R)) := do
  let value ← itemOf members key
  match value with
  | .obj members => pure members
  | _ => .error .typeError

/-- `str(members[key]) if members.get(key) is not None else None`. -/
def textUnlessNone (members : List (String × Loaded R)) (key : String) : Option String :=
  match Loaded.get members key with
  | none => none
  | some .null => none
  | some value => some value.text

/-- `str(members[key]) if members.get(key) else None`. -/
def textIfTruthy (members : List (String × Loaded R)) (key : String) : Option String :=
  match Loaded.get members key with
  | none => none
  | some value => if value.truthy then some value.text else none

/-- An exception of a constructor. -/
def raised {α : Type} : Except PyError α → Except DecodeError α
  | .ok a => .ok a
  | .error e => .error (.raised e)

/-- `EmbeddingDescriptor(…)`. -/
def decodeDescriptor (members : List (String × Loaded R)) :
    Except DecodeError EmbeddingDescriptor := do
  let profileId ← itemText members "profile_id"
  let profileVersion ← itemText members "profile_version"
  let dimension ← itemInt members "dimension"
  let metric ← itemText members "metric"
  raised (EmbeddingDescriptor.make { profileId, profileVersion, dimension, metric })

/-- The descriptor, if `"embedding"` is a mapping. -/
def decodeEmbedding (payload : List (String × Loaded R)) :
    Except DecodeError (Option EmbeddingDescriptor) :=
  match Loaded.get payload "embedding" with
  | some (.obj members) => some <$> decodeDescriptor members
  | _ => pure none

/-- `"occurred_at"`, if it is truthy. -/
def decodeOccurredAt (payload : List (String × Loaded R)) :
    Except DecodeError (Option DateTime) :=
  match Loaded.get payload "occurred_at" with
  | none => pure none
  | some value =>
    if value.truthy then some <$> DecodeError.parsed (Python.fromisoformat R value.text)
    else pure none

/-- `provenance_payload.get("evidence", [])`, item by item. -/
def decodeEvidence (members : List (String × Loaded R)) : Except DecodeError (List String) :=
  match Loaded.get members "evidence" with
  | none => pure []
  | some value => value.toTexts

/-- `Provenance(…)`. -/
def decodeProvenance (members : List (String × Loaded R)) : Except DecodeError Provenance := do
  let sourceType ← itemParsed SourceType.ofValue members "source_type"
  let capturedAt ← itemParsed (Python.fromisoformat R) members "captured_at"
  let evidence ← decodeEvidence members
  raised (Provenance.make
    { sourceType, capturedAt, evidence
      sourceId := textUnlessNone members "source_id"
      sourceModel := textUnlessNone members "source_model"
      sourceClient := textIfTruthy members "source_client"
      sourceConnectionId := textIfTruthy members "source_connection_id"
      conversationId := textIfTruthy members "conversation_id"
      messageId := textIfTruthy members "message_id" })

/-- `CaptureConsent(…)`. -/
def decodeCaptureConsent (members : List (String × Loaded R)) :
    Except DecodeError CaptureConsent := do
  let mode ← itemParsed ConsentMode.ofValue members "mode"
  let consentId ← itemText members "consent_id"
  let reasonCode ← itemParsed ConsentReason.ofValue members "reason_code"
  let policyVersion ← itemText members "policy_version"
  let grantedAt ← itemParsed (Python.fromisoformat R) members "granted_at"
  raised (CaptureConsent.make { mode, consentId, reasonCode, policyVersion, grantedAt })

/-- The consent, if `"capture_consent"` is a mapping. -/
def decodeConsent (payload : List (String × Loaded R)) :
    Except DecodeError (Option CaptureConsent) :=
  match Loaded.get payload "capture_consent" with
  | some (.obj members) => some <$> decodeCaptureConsent members
  | _ => pure none

/-- The arguments of `Memory(…)`, in the order in which they are computed. -/
def decodeFields (payload : List (String × Loaded R)) :
    Except DecodeError (MemoryFields (Number R)) := do
  let provenancePayload ← itemMapping payload "provenance"
  let embedding ← decodeEmbedding payload
  let id ← itemParsed (Python.parseUuid R) payload "id"
  let ownerId ← itemText payload "owner_id"
  let content ← itemText payload "content"
  let memoryType ← itemParsed MemoryType.ofValue payload "type"
  let importance ← itemFloat payload "importance"
  let confidence ← itemFloat payload "confidence"
  let state ← itemParsed MemoryState.ofValue payload "state"
  let version ← itemInt payload "version"
  let createdAt ← itemParsed (Python.fromisoformat R) payload "created_at"
  let updatedAt ← itemParsed (Python.fromisoformat R) payload "updated_at"
  let occurredAt ← decodeOccurredAt payload
  let provenance ← decodeProvenance provenancePayload
  let captureConsent ← decodeConsent payload
  pure
    { id, ownerId, content, memoryType, importance, confidence, state, version, createdAt
      updatedAt, occurredAt, provenance, embedding, captureConsent
      space := textUnlessNone payload "space"
      idempotencyKey := textUnlessNone payload "idempotency_key"
      tenantId := textUnlessNone payload "tenant_id" }

/-- `validate_unit_interval`, for any float. -/
def unitNumber (value : Number R) (fieldName : String) : Except PyError R :=
  match value with
  | .finite x => validateUnitInterval x fieldName
  | _ => .error (.validation (fieldName ++ " must be between 0 and 1"))

/-- `Memory(…)` with any floats: the checks up to the numbers, then all of them. -/
def makeLoaded (f : MemoryFields (Number R)) : Except PyError (Memory R) := do
  let _ ← validateOwnerId f.ownerId
  optCheck validateOwnerId f.tenantId
  raiseIf (isBlank f.content) (.validation "content must be non-empty")
  raiseIf (decide (maxContentLength < (collapse f.content).length))
    (.validation "content exceeds the maximum length")
  let importance ← unitNumber f.importance "importance"
  let confidence ← unitNumber f.confidence "confidence"
  Memory.make
    { id := f.id, ownerId := f.ownerId, content := f.content, memoryType := f.memoryType
      importance, confidence, state := f.state, version := f.version, createdAt := f.createdAt
      updatedAt := f.updatedAt, occurredAt := f.occurredAt, space := f.space
      provenance := f.provenance, embedding := f.embedding, idempotencyKey := f.idempotencyKey
      tenantId := f.tenantId, captureConsent := f.captureConsent }

/-- `except (KeyError, TypeError, ValueError)`. -/
def handled {α : Type} : Except DecodeError α → Except DecodeError α
  | .ok a => .ok a
  | .error e =>
    if e.caught then .error (.raised (.validation "invalid memory serialization")) else .error e

/-- `payload.get("schema_version") == SCHEMA_VERSION`. -/
def schemaSupported (payload : List (String × Loaded R)) : Bool :=
  match Loaded.get payload "schema_version" with
  | none => false
  | some value => value.isOne

/-- `memory_from_dict`. -/
def memoryFromDict (payload : List (String × Loaded R)) : Except DecodeError (Memory R) :=
  if schemaSupported payload then
    handled do
      let fields ← decodeFields payload
      raised (makeLoaded fields)
  else .error (.raised (.validation "unsupported memory schema_version"))

end Decoding

end OpenMemory
