import OpenMemory.Lib.Members
import OpenMemory.Mcp.Envelopes

/-!
# Export packages (`sdk/export.py`, `server/admin.py`)

A package is a text: `export_record_payload` makes a JSON object of each exported record,
`write_export` validates them against the models of the package and prints the document, and
`load_export` and `import_record` go the way back.

- `ExportMemoryRecord`, `ExportDocument`: what has passed the models. They extend the record of the
  wire, so what a package can hold is narrower than what a store can.
- `modelValidate` of each model, on a JSON value. What it makes of a value of another type than the
  declared one is pydantic's own (`PackageReader`).
- `…fields`: a dump, as fields that hold something or not.

`OverflowError` of a timestamp at the end of the range is no `ValueError`: it escapes the models,
and is raised whatever else is wrong (`together`).
-/

namespace OpenMemory.Server

open Lib
open MemoryApplicationService (isHexDigest)
open Mcp (Text Ranged UnitFloat BoundedInt LowerInt WireType WireState WireSourceType WireProvenance
  UtcText MemoryRecord ProvenanceDict literal validTimestamp enumOf orNull unitJson)

variable {R : Type} [Python R]

/-! ## Validation -/

/-- `pydantic.ValidationError`. -/
abbrev invalid {α : Type} : Except PyError α := .error .pydanticValidationError

/-- Two fields. A field that is not valid does not keep the other from being looked at. -/
def together {α β : Type} : Except PyError α → Except PyError β → Except PyError (α × β)
  | .ok a, .ok b => .ok (a, b)
  | .ok _, .error e => .error e
  | .error .pydanticValidationError, .error e => .error e
  | .error e, _ => .error e

/-- What pydantic makes of values that do not have the declared type, and `str` of them. -/
structure PackageReader (R : Type) where
  floatOf : JsonValue → Option R
  intOf : JsonValue → Option Int
  boolOf : JsonValue → Option Bool
  strOf : JsonValue → String
  intOf_int : ∀ n, intOf (.int n) = some n
  boolOf_bool : ∀ b, boolOf (.bool b) = some b

/-- A text without white space around it. -/
abbrev Trimmed : Type := { text : String // trimBoth isTrimmed text = text }

namespace WireField

variable {α : Type}

/-- A field without a default. -/
def required (check : JsonValue → Except PyError α) : Option JsonValue → Except PyError α
  | none => invalid
  | some value => check value

/-- A field of type `… | None` whose default is `None`. -/
def orNone (check : JsonValue → Except PyError α) : Option JsonValue → Except PyError (Option α)
  | none => .ok none
  | some .null => .ok none
  | some value => (check value).map some

/-- A field with a default. -/
def orDefault (default : α) (check : JsonValue → Except PyError α) :
    Option JsonValue → Except PyError α
  | none => .ok default
  | some value => check value

/-- `str` with `min_length` and `max_length`. -/
def text (lo hi : Nat) : JsonValue → Except PyError (Text lo hi)
  | .str s => Text.modelValidate lo hi s
  | _ => invalid

/-- `str`. -/
def trimmed : JsonValue → Except PyError Trimmed
  | .str s => .ok ⟨trimBoth isTrimmed s, trimBoth_trimBoth _ _⟩
  | _ => invalid

/-- `Literal`. -/
def oneOf (ofValue : String → Option α) : JsonValue → Except PyError α
  | .str s => literal ofValue s
  | _ => invalid

/-- `str` with a pattern. -/
def matching (p : String → Bool) : JsonValue → Except PyError (Ranged p)
  | .str s => Ranged.modelValidate p (trimBoth isTrimmed s)
  | _ => invalid

/-- A number that satisfies `p`. -/
def number (convert : JsonValue → Option α) (p : α → Bool) (value : JsonValue) :
    Except PyError (Ranged p) :=
  match convert value with
  | none => invalid
  | some x => Ranged.modelValidate p x

/-- The items of a list, all of which are looked at. -/
def items (check : JsonValue → Except PyError α) : List JsonValue → Except PyError (List α)
  | [] => .ok []
  | value :: values => (together (check value) (items check values)).map fun p => p.1 :: p.2

/-- `list[…]`. -/
def list (check : JsonValue → Except PyError α) : JsonValue → Except PyError (List α)
  | .arr values => items check values
  | _ => invalid

/-- A model with these fields and no others. -/
def object (keys : List String) (read : List (String × JsonValue) → Except PyError α) :
    JsonValue → Except PyError α
  | .obj members => do
    let model ← read members
    if members.all fun m => decide (m.1 ∈ keys) then pure model else invalid
  | _ => invalid

end WireField

open WireField

/-! ## Models -/

/-- `EmbeddingProfileRecord.metric`. -/
def isMetric (text : String) : Bool := decide (text ∈ ["cosine", "l2", "inner_product"])

structure EmbeddingProfileRecord where
  profileId : Text 1 128
  profileVersion : Text 1 64
  dimension : BoundedInt 1 16384
  metric : Ranged isMetric

structure HistoryRecord (R : Type) [Python R] where
  memoryId : Text 1 128
  version : LowerInt 1
  content : Text 1 Mcp.maxContentLength
  type : Text 1 64
  state : Text 1 64
  importance : UnitFloat R
  confidence : UnitFloat R
  space : Option (Text 0 128)
  occurredAt : Option (Text 0 80)
  /-- `dict[str, Any]`. -/
  provenance : List (String × JsonValue)
  changedAt : Text 1 80
  changeReason : Text 1 256

structure RelationRecord where
  sourceId : Text 1 128
  targetId : Text 1 128
  type : Text 1 64
  ownerId : Text 1 256
  createdAt : Text 1 80

structure ExportMemoryRecord (R : Type) [Python R] extends MemoryRecord R where
  idempotencyKey : Option (Text 0 256)
  provenanceEvidence : List Trimmed
  embeddingProfile : Option EmbeddingProfileRecord
  history : List (HistoryRecord R)
  relations : List RelationRecord
  embeddingValues : Option (List R)
  writeFingerprint : Option (Ranged isHexDigest)

structure ExportDocument (R : Type) [Python R] where
  exportedAt : UtcText
  includesEmbeddings : Bool
  memories : List (ExportMemoryRecord R)
  unique_ids : (memories.map fun record => record.id.val).Nodup

/-! ### Validating -/

def EmbeddingProfileRecord.keys : List String :=
  ["profile_id", "profile_version", "dimension", "metric"]

/-- `EmbeddingProfileRecord.model_validate`. -/
def EmbeddingProfileRecord.modelValidate (lib : PackageReader R) :
    JsonValue → Except PyError EmbeddingProfileRecord :=
  object keys fun members => do
    let get key := JsonValue.member key members
    let profileId ← required (text 1 128) (get "profile_id")
    let profileVersion ← required (text 1 64) (get "profile_version")
    let dimension ← required (number lib.intOf _) (get "dimension")
    let metric ← required (matching isMetric) (get "metric")
    pure { profileId, profileVersion, dimension, metric }

def provenanceKeys : List String :=
  ["source_type", "captured_at", "source_id", "source_model", "evidence"]

/-- `Provenance.model_validate`. The timestamp comes first: its overflow is reported whatever else
is wrong. -/
def readProvenance (R : Type) [Python R] : JsonValue → Except PyError WireProvenance :=
  object provenanceKeys fun members => do
    let get key := JsonValue.member key members
    let capturedText ← required (text 1 80) (get "captured_at")
    let capturedAt ← validTimestamp R capturedText.val
    let sourceType ← required (oneOf WireSourceType.ofValue) (get "source_type")
    let sourceId ← orNone (text 0 256) (get "source_id")
    let sourceModel ← orNone (text 0 128) (get "source_model")
    let evidence ← orNone (text 0 2000) (get "evidence")
    pure { sourceType, capturedAt, sourceId, sourceModel, evidence }

def HistoryRecord.keys : List String :=
  ["memory_id", "version", "content", "type", "state", "importance", "confidence", "space",
    "occurred_at", "provenance", "changed_at", "change_reason"]

/-- `dict[str, Any]`. -/
def anyDict : JsonValue → Except PyError (List (String × JsonValue))
  | .obj members => .ok members
  | _ => invalid

/-- `HistoryRecord.model_validate`. -/
def HistoryRecord.modelValidate (lib : PackageReader R) :
    JsonValue → Except PyError (HistoryRecord R) :=
  object keys fun members => do
    let get key := JsonValue.member key members
    let memoryId ← required (text 1 128) (get "memory_id")
    let version ← required (number lib.intOf _) (get "version")
    let content ← required (text 1 Mcp.maxContentLength) (get "content")
    let type ← required (text 1 64) (get "type")
    let state ← required (text 1 64) (get "state")
    let importance ← required (number lib.floatOf Python.inUnit) (get "importance")
    let confidence ← required (number lib.floatOf Python.inUnit) (get "confidence")
    let space ← orNone (text 0 128) (get "space")
    let occurredAt ← orNone (text 0 80) (get "occurred_at")
    let provenance ← required anyDict (get "provenance")
    let changedAt ← required (text 1 80) (get "changed_at")
    let changeReason ← required (text 1 256) (get "change_reason")
    pure
      { memoryId, version, content, type, state, importance, confidence, space, occurredAt
        provenance, changedAt, changeReason }

def RelationRecord.keys : List String :=
  ["source_id", "target_id", "type", "owner_id", "created_at"]

/-- `RelationRecord.model_validate`. -/
def RelationRecord.modelValidate : JsonValue → Except PyError RelationRecord :=
  object keys fun members => do
    let get key := JsonValue.member key members
    let sourceId ← required (text 1 128) (get "source_id")
    let targetId ← required (text 1 128) (get "target_id")
    let type ← required (text 1 64) (get "type")
    let ownerId ← required (text 1 256) (get "owner_id")
    let createdAt ← required (text 1 80) (get "created_at")
    pure { sourceId, targetId, type, ownerId, createdAt }

def ExportMemoryRecord.keys : List String :=
  ["id", "owner_id", "content", "type", "space", "importance", "confidence", "state", "version",
    "created_at", "updated_at", "occurred_at", "provenance", "provenance_evidence",
    "idempotency_key", "embedding_profile", "history", "relations", "write_fingerprint",
    "embedding_values"]

/-- A `float`. -/
def anyFloat (lib : PackageReader R) (value : JsonValue) : Except PyError R :=
  match lib.floatOf value with
  | none => invalid
  | some x => .ok x

/-- `ExportMemoryRecord.model_validate`, the provenance first. -/
def ExportMemoryRecord.modelValidate (lib : PackageReader R) :
    JsonValue → Except PyError (ExportMemoryRecord R) :=
  object keys fun members => do
    let get key := JsonValue.member key members
    let provenance ← required (readProvenance R) (get "provenance")
    let id ← required (text 1 128) (get "id")
    let ownerId ← required (text 1 128) (get "owner_id")
    let content ← required (text 1 Mcp.maxContentLength) (get "content")
    let type ← required (oneOf WireType.ofValue) (get "type")
    let space ← orNone (text 0 128) (get "space")
    let importance ← required (number lib.floatOf Python.inUnit) (get "importance")
    let confidence ← required (number lib.floatOf Python.inUnit) (get "confidence")
    let state ← required (oneOf WireState.ofValue) (get "state")
    let version ← required (number lib.intOf _) (get "version")
    let createdAt ← required (text 1 80) (get "created_at")
    let updatedAt ← required (text 1 80) (get "updated_at")
    let occurredAt ← orNone (text 0 80) (get "occurred_at")
    let idempotencyKey ← orNone (text 0 256) (get "idempotency_key")
    let provenanceEvidence ← orDefault [] (list trimmed) (get "provenance_evidence")
    let embeddingProfile ←
      orNone (EmbeddingProfileRecord.modelValidate lib) (get "embedding_profile")
    let history ← orDefault [] (list (HistoryRecord.modelValidate lib)) (get "history")
    let relations ← orDefault [] (list RelationRecord.modelValidate) (get "relations")
    let embeddingValues ← orNone (list (anyFloat lib)) (get "embedding_values")
    let writeFingerprint ← orNone (matching isHexDigest) (get "write_fingerprint")
    pure
      { id, ownerId, content, type, space, importance, confidence, state, version, createdAt
        updatedAt, occurredAt, provenance, idempotencyKey, provenanceEvidence, embeddingProfile
        history, relations, embeddingValues, writeFingerprint }

/-- `ExportDocument.exported_at`, whose white space stays. -/
def exportedAtField (R : Type) [Python R] : JsonValue → Except PyError UtcText
  | .str s => if 1 ≤ s.length ∧ s.length ≤ 80 then validTimestamp R s else invalid
  | _ => invalid

/-- `ExportDocument.format`. -/
def formatField : JsonValue → Except PyError Unit
  | .str s => if s = "omp.export.v0" then .ok () else invalid
  | _ => invalid

def boolField (lib : PackageReader R) (value : JsonValue) : Except PyError Bool :=
  match lib.boolOf value with
  | none => invalid
  | some b => .ok b

/-- The validators of `ExportDocument` on fields that are valid. -/
def ExportDocument.make (exportedAt : UtcText) (includesEmbeddings : Bool)
    (memories : List (ExportMemoryRecord R)) : Except PyError (ExportDocument R) :=
  if h : (memories.map fun record => record.id.val).Nodup then
    .ok { exportedAt, includesEmbeddings, memories, unique_ids := h }
  else invalid

def ExportDocument.keys : List String :=
  ["format", "exported_at", "includes_embeddings", "memories"]

/-- `ExportDocument.model_validate`. -/
def ExportDocument.modelValidate (lib : PackageReader R) :
    JsonValue → Except PyError (ExportDocument R) :=
  object keys fun members => do
    let get key := JsonValue.member key members
    let (exportedAt, memories) ← together (required (exportedAtField R) (get "exported_at"))
      (required (list (ExportMemoryRecord.modelValidate lib)) (get "memories"))
    let _ ← required formatField (get "format")
    let includesEmbeddings ← orDefault false (boolField lib) (get "includes_embeddings")
    make exportedAt includesEmbeddings memories

/-! ### Dumping -/

/-- How the members of a model are written, of what its fields hold. -/
abbrev Writer : Type := List (String × Option JsonValue) → List (String × JsonValue)

def textJson {lo hi : Nat} (t : Text lo hi) : JsonValue := .str t.val

def provenanceFields (p : WireProvenance) : List (String × Option JsonValue) :=
  [("source_type", some (.str p.sourceType.value)), ("captured_at", some (.str p.capturedAt.val)),
    ("source_id", p.sourceId.map textJson), ("source_model", p.sourceModel.map textJson),
    ("evidence", p.evidence.map textJson)]

def EmbeddingProfileRecord.fields (p : EmbeddingProfileRecord) :
    List (String × Option JsonValue) :=
  [("profile_id", some (textJson p.profileId)),
    ("profile_version", some (textJson p.profileVersion)),
    ("dimension", some (.int p.dimension.val)), ("metric", some (.str p.metric.val))]

def HistoryRecord.fields (record : HistoryRecord R) : List (String × Option JsonValue) :=
  [("memory_id", some (textJson record.memoryId)), ("version", some (.int record.version.val)),
    ("content", some (textJson record.content)), ("type", some (textJson record.type)),
    ("state", some (textJson record.state)), ("importance", some (unitJson record.importance)),
    ("confidence", some (unitJson record.confidence)), ("space", record.space.map textJson),
    ("occurred_at", record.occurredAt.map textJson), ("provenance", some (.obj record.provenance)),
    ("changed_at", some (textJson record.changedAt)),
    ("change_reason", some (textJson record.changeReason))]

def RelationRecord.fields (record : RelationRecord) : List (String × Option JsonValue) :=
  [("source_id", some (textJson record.sourceId)), ("target_id", some (textJson record.targetId)),
    ("type", some (textJson record.type)), ("owner_id", some (textJson record.ownerId)),
    ("created_at", some (textJson record.createdAt))]

/-- The dump of a float. -/
def floatJson (x : R) : JsonValue := .float (Python.numRepr x)

/-- The fields of a record, those of the base model first. -/
def ExportMemoryRecord.fields (write : Writer) (record : ExportMemoryRecord R) :
    List (String × Option JsonValue) :=
  [("id", some (textJson record.id)), ("owner_id", some (textJson record.ownerId)),
    ("content", some (textJson record.content)), ("type", some (.str record.type.value)),
    ("space", record.space.map textJson), ("importance", some (unitJson record.importance)),
    ("confidence", some (unitJson record.confidence)), ("state", some (.str record.state.value)),
    ("version", some (.int record.version.val)), ("created_at", some (textJson record.createdAt)),
    ("updated_at", some (textJson record.updatedAt)),
    ("occurred_at", record.occurredAt.map textJson),
    ("provenance", some (.obj (write (provenanceFields record.provenance)))),
    ("provenance_evidence", some (.arr (record.provenanceEvidence.map fun t => .str t.val))),
    ("idempotency_key", record.idempotencyKey.map textJson),
    ("embedding_profile", record.embeddingProfile.map fun p => .obj (write p.fields)),
    ("history", some (.arr (record.history.map fun v => .obj (write v.fields)))),
    ("relations", some (.arr (record.relations.map fun r => .obj (write r.fields)))),
    ("write_fingerprint", record.writeFingerprint.map fun t => .str t.val),
    ("embedding_values", record.embeddingValues.map fun xs => .arr (xs.map floatJson))]

/-- `model_dump(mode="json", exclude_none=True)`. -/
def ExportMemoryRecord.json (record : ExportMemoryRecord R) : JsonValue :=
  .obj (JsonValue.present (record.fields JsonValue.present))

/-- `model_dump(mode="json", exclude_none=True)`. -/
def ExportDocument.json (document : ExportDocument R) : JsonValue :=
  .obj [("format", .str "omp.export.v0"), ("exported_at", .str document.exportedAt.val),
    ("includes_embeddings", .bool document.includesEmbeddings),
    ("memories", .arr (document.memories.map ExportMemoryRecord.json))]

/-! ## Payloads (`server/admin.py`) -/

/-- `_timestamp`. -/
def timestampJson (value : DateTime) : JsonValue := .str value.zulu

/-- `_provenance_payload`, with what stands for the evidence. -/
def provenancePayload (value : Provenance) (evidence : JsonValue) : List (String × JsonValue) :=
  [("source_type", .str value.sourceType.value), ("captured_at", timestampJson value.capturedAt),
    ("source_id", orNull value.sourceId), ("source_model", orNull value.sourceModel),
    ("evidence", evidence)]

/-- The evidence as `_provenance_payload` lists it. -/
def evidenceList (value : Provenance) : JsonValue := .arr (value.evidence.map .str)

/-- The evidence as `_memory_payload` joins it. -/
def evidenceText (value : Provenance) : JsonValue :=
  if value.evidence = [] then .null else .str (joinSpace value.evidence)

/-- The profile of `_memory_payload`. -/
def profilePayload (value : EmbeddingDescriptor) : JsonValue :=
  .obj [("profile_id", .str value.profileId), ("profile_version", .str value.profileVersion),
    ("dimension", .int value.dimension), ("metric", .str value.metric)]

/-- `_memory_payload`. -/
def memoryPayload (value : Memory R) : List (String × JsonValue) :=
  [("id", .str value.id.str), ("owner_id", .str value.ownerId), ("content", .str value.content),
    ("type", .str value.memoryType.value), ("space", orNull value.space),
    ("importance", floatJson value.importance), ("confidence", floatJson value.confidence),
    ("state", .str value.state.value), ("version", .int value.version),
    ("created_at", timestampJson value.createdAt), ("updated_at", timestampJson value.updatedAt),
    ("occurred_at", (value.occurredAt.map timestampJson).getD .null),
    ("provenance", .obj (provenancePayload value.provenance (evidenceText value.provenance))),
    ("provenance_evidence", evidenceList value.provenance),
    ("idempotency_key", orNull value.idempotencyKey),
    ("embedding_profile", (value.embedding.map profilePayload).getD .null)]

/-- `_version_payload`. -/
def versionPayload (value : MemoryVersion R) : JsonValue :=
  .obj [("memory_id", .str value.memoryId.str), ("version", .int value.version),
    ("content", .str value.content), ("type", .str value.memoryType.value),
    ("state", .str value.state.value), ("importance", floatJson value.importance),
    ("confidence", floatJson value.confidence), ("space", orNull value.space),
    ("occurred_at", (value.occurredAt.map timestampJson).getD .null),
    ("provenance", .obj (provenancePayload value.provenance (evidenceList value.provenance))),
    ("changed_at", timestampJson value.changedAt), ("change_reason", .str value.changeReason)]

/-- `_relation_payload`. -/
def relationPayload (value : Relation) : JsonValue :=
  .obj [("source_id", .str value.sourceId.str), ("target_id", .str value.targetId.str),
    ("type", .str value.relationType.value), ("owner_id", .str value.ownerId),
    ("created_at", timestampJson value.createdAt)]

/-- `export_record_payload`. -/
def exportRecordPayload (includeEmbeddings : Bool) (record : MemoryRecordDto R) :
    List (String × JsonValue) :=
  memoryPayload record.memory ++
    [("history", .arr (record.history.map versionPayload)),
      ("relations", .arr (record.relations.map relationPayload))] ++
    JsonValue.present
      [("write_fingerprint", record.writeFingerprint.map .str),
        ("embedding_values",
          if includeEmbeddings then record.embedding.map fun xs => .arr (xs.map floatJson)
          else none)]

/-! ### Back -/

/-- `str(value)`. -/
def PackageReader.text (lib : PackageReader R) : JsonValue → String
  | .str s => s
  | value => lib.strOf value

/-- `_required_time`. -/
def requiredTime (R : Type) [Python R] (value : String) : Except PyError DateTime :=
  if value = "" then .error (.valueError "timestamp is required") else Mcp.datetime R value

/-- `_parse_time`. -/
def parseTime (R : Type) [Python R] : Option String → Except PyError (Option DateTime)
  | none => .ok none
  | some value => if value = "" then .ok none else (Mcp.datetime R value).map some

/-- `UUID(text)`. -/
def uuidField (R : Type) [Python R] (value : String) : Except PyError UUID :=
  match Python.parseUuid R value with
  | none => .error (.valueError "badly formed hexadecimal UUID string")
  | some u => .ok u

/-- What `Provenance` accepts as an id of its source: `None`, or something to strip. -/
def sourceText : Option JsonValue → Option (Option String)
  | none => some none
  | some .null => some none
  | some (.str s) => some (some s)
  | some _ => none

/-- `AttributeError`. -/
def attributeError : PyError := .foreign "AttributeError" none

/-- The evidence of `_provenance_from_payload`. -/
def evidenceField (lib : PackageReader R) : Option JsonValue → Except PyError (List String)
  | none => .ok []
  | some (.str s) => .ok [s]
  | some (.arr items) => .ok (items.map lib.text)
  | some _ => .error (.valueError "invalid provenance evidence")

/-- `value[key]`. -/
def itemField (key : String) (value : List (String × JsonValue)) : Except PyError JsonValue :=
  match JsonValue.member key value with
  | none => .error .keyError
  | some item => .ok item

/-- `_provenance_from_payload`. -/
def provenanceFromPayload (lib : PackageReader R) (value : List (String × JsonValue)) :
    Except PyError Provenance := do
  let evidence ← evidenceField lib (JsonValue.member "evidence" value)
  let sourceText' ← itemField "source_type" value
  let sourceType ← enumOf SourceType.ofValue
    (if lib.text sourceText' = "other" then "unknown" else lib.text sourceText')
  let capturedText ← itemField "captured_at" value
  let capturedAt ← requiredTime R (lib.text capturedText)
  match sourceText (JsonValue.member "source_id" value),
    sourceText (JsonValue.member "source_model" value) with
  | some sourceId, some sourceModel =>
    Provenance.make { sourceType, capturedAt, sourceId, sourceModel, evidence }
  | some sourceId, none => do
    let _ ← ensureAware capturedAt "captured_at"
    raiseIf (someAnd isBlank sourceId) (.validation "source_id cannot be blank")
    .error attributeError
  | none, _ => do
    let _ ← ensureAware capturedAt "captured_at"
    .error attributeError

/-- The dump of a provenance, with the listed evidence in the place of the joined one. -/
def provenanceDump (record : ExportMemoryRecord R) : List (String × JsonValue) :=
  [("source_type", .str record.provenance.sourceType.value),
    ("captured_at", .str record.provenance.capturedAt.val),
    ("source_id", orNull (record.provenance.sourceId.map Text.val)),
    ("source_model", orNull (record.provenance.sourceModel.map Text.val)),
    ("evidence", .arr (record.provenanceEvidence.map fun t => .str t.val))]

/-- The descriptor of `_memory_from_payload`. -/
def profileFromPayload (profile : EmbeddingProfileRecord) : Except PyError EmbeddingDescriptor :=
  EmbeddingDescriptor.make
    { profileId := profile.profileId.val, profileVersion := profile.profileVersion.val
      dimension := profile.dimension.val, metric := profile.metric.val }

/-- `_memory_from_payload`, of the dump of the record. -/
def memoryFromPayload (lib : PackageReader R) (record : ExportMemoryRecord R) :
    Except PyError (Memory R) := do
  let embedding ← Mcp.optional profileFromPayload record.embeddingProfile
  let id ← uuidField R record.id.val
  let memoryType ← enumOf MemoryType.ofValue record.type.value
  let state ← enumOf MemoryState.ofValue record.state.value
  let createdAt ← requiredTime R record.createdAt.val
  let updatedAt ← requiredTime R record.updatedAt.val
  let occurredAt ← parseTime R (record.occurredAt.map Text.val)
  let provenance ← provenanceFromPayload lib (provenanceDump record)
  Memory.make
    { id, ownerId := record.ownerId.val, content := record.content.val, memoryType
      importance := record.importance.val, confidence := record.confidence.val, state
      version := record.version.val, createdAt, updatedAt, occurredAt
      space := record.space.map Text.val, provenance, embedding
      idempotencyKey := record.idempotencyKey.map Text.val }

/-- `_version_from_payload`. -/
def versionFromPayload (lib : PackageReader R) (record : HistoryRecord R) :
    Except PyError (MemoryVersion R) := do
  let memoryId ← uuidField R record.memoryId.val
  let memoryType ← enumOf MemoryType.ofValue record.type.val
  let state ← enumOf MemoryState.ofValue record.state.val
  let occurredAt ← parseTime R (record.occurredAt.map Text.val)
  let provenance ← provenanceFromPayload lib record.provenance
  let changedAt ← requiredTime R record.changedAt.val
  pure
    { memoryId, version := record.version.val, content := record.content.val, memoryType, state
      importance := record.importance.val, confidence := record.confidence.val
      space := record.space.map Text.val, occurredAt, provenance, changedAt
      changeReason := record.changeReason.val }

/-- `_relation_from_payload`. -/
def relationFromPayload (R : Type) [Python R] (record : RelationRecord) :
    Except PyError Relation := do
  let sourceId ← uuidField R record.sourceId.val
  let targetId ← uuidField R record.targetId.val
  let relationType ← enumOf RelationType.ofValue record.type.val
  let createdAt ← requiredTime R record.createdAt.val
  Relation.make { sourceId, targetId, relationType, ownerId := record.ownerId.val, createdAt }

/-- `import_record`. -/
def importRecord (lib : PackageReader R) (record : ExportMemoryRecord R) :
    Except PyError (MemoryRecordDto R) := do
  let memory ← memoryFromPayload lib record
  let history ← record.history.mapM (versionFromPayload lib)
  let relations ← record.relations.mapM (relationFromPayload R)
  pure
    { memory, history, relations, embedding := record.embeddingValues
      writeFingerprint := record.writeFingerprint.map Subtype.val }

/-! ## Files -/

/-- `item.get("embedding_values") is None`. -/
def lacksValues (record : List (String × JsonValue)) : Bool :=
  match JsonValue.member "embedding_values" record with
  | none => true
  | some .null => true
  | some _ => false

/-- `make_export`, at a reading of the clock. -/
def makeExport (lib : PackageReader R) (now : DateTime) (records : List (List (String × JsonValue)))
    (includeEmbeddings : Bool) : Except PyError JsonValue := do
  raiseIf (includeEmbeddings && records.any lacksValues)
    (.valueError "embedding values are missing from the export response")
  let memories ← records.mapM fun record => ExportMemoryRecord.modelValidate lib (.obj record)
  let exportedAt ← exportedAtField R (.str now.zulu)
  let document ← ExportDocument.make exportedAt includeEmbeddings memories
  pure document.json

/-- `write_export`: the document, and the text of the file. -/
def writeExport (lib : PackageReader R) (now : DateTime)
    (records : List (List (String × JsonValue))) (includeEmbeddings : Bool) :
    Except PyError (ExportDocument R × String) := do
  let payload ← makeExport lib now records includeEmbeddings
  let document ← ExportDocument.modelValidate lib payload
  pure (document, JsonValue.indentedRaw.dumps document.json ++ "\n")

/-- `load_export`, of the text of the file. -/
def loadExport (lib : PackageReader R) (text : String) : Except PyError (ExportDocument R) :=
  match JsonValue.loads text with
  | none => .error (.valueError "invalid OMP export package")
  | some payload =>
    match ExportDocument.modelValidate lib payload with
    | .error .pydanticValidationError => .error (.valueError "invalid OMP export package")
    | outcome => outcome

end OpenMemory.Server
