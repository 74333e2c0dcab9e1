import OpenMemory.Domain.Memory

/-!
# Wire schemas of MCP v0 (`adapters/mcp/schemas.py`)

A wire model is a record whose field types carry the constraints that the schema
declares: `Text lo hi` is a stripped text of `lo` to `hi` characters, `Ranged p` a number
with `p`. Holding a `MemoryRecord` or a `WriteRequest` therefore means that validation has
passed; `modelValidate` is the validation, from the record of raw values (`…Dict`) that the
gateway, or the argument object of a call, provides.

Every violated constraint is the same `pydantic.ValidationError`; an overflow inside the
timestamp validator is not one and escapes as it is.
-/

namespace OpenMemory.Mcp

open Lib

variable {R : Type} [Python R]

def maxContentLength : Nat := 16384
def maxQueryLength : Nat := 4096
def maxLimit : Nat := 50
def maxTimeoutMs : Nat := 5000

/-! ## Field types -/

/-- `str` with `str_strip_whitespace`, `min_length` and `max_length`. -/
structure Text (lo hi : Nat) where
  val : String
  trimmed : trimBoth isTrimmed val = val
  bounded : lo ≤ val.length ∧ val.length ≤ hi
  deriving DecidableEq

/-- Validate a text field. -/
def Text.modelValidate (lo hi : Nat) (value : String) : Except PyError (Text lo hi) :=
  if h : lo ≤ (trimBoth isTrimmed value).length ∧ (trimBoth isTrimmed value).length ≤ hi then
    .ok ⟨trimBoth isTrimmed value, trimBoth_trimBoth _ _, h⟩
  else .error .pydanticValidationError

/-- A number that satisfies `p`. -/
abbrev Ranged {α : Type} (p : α → Bool) : Type := { x : α // p x = true }

/-- Validate a number field. -/
def Ranged.modelValidate {α : Type} (p : α → Bool) (value : α) : Except PyError (Ranged p) :=
  if h : p value = true then .ok ⟨value, h⟩ else .error .pydanticValidationError

/-- `float` with `ge=0, le=1`. -/
abbrev UnitFloat (R : Type) [Python R] : Type := Ranged (Python.inUnit : R → Bool)

/-- `int` with `ge=lo, le=hi`. -/
abbrev BoundedInt (lo hi : Int) : Type := Ranged fun n : Int => decide (lo ≤ n ∧ n ≤ hi)

/-- `int` with `ge=lo`. -/
abbrev LowerInt (lo : Int) : Type := Ranged fun n : Int => decide (lo ≤ n)

/-- Validate a nullable field. -/
def optional {α β : Type} (check : α → Except PyError β) : Option α → Except PyError (Option β)
  | none => .ok none
  | some a => (check a).map some

/-- Validate a `Literal` field. -/
def literal {α : Type} (ofValue : String → Option α) (text : String) : Except PyError α :=
  match ofValue text with
  | none => .error .pydanticValidationError
  | some a => .ok a

/-! ## Literals -/

/-- `schemas.MemoryType`: the domain types of v0. -/
inductive WireType
  | fact | preference | decision | insight | hypothesis | lesson | goal | projectContext
  | concept | relationship | openQuestion
  deriving DecidableEq, Repr

def WireType.value : WireType → String
  | .fact => "fact"
  | .preference => "preference"
  | .decision => "decision"
  | .insight => "insight"
  | .hypothesis => "hypothesis"
  | .lesson => "lesson"
  | .goal => "goal"
  | .projectContext => "project_context"
  | .concept => "concept"
  | .relationship => "relationship"
  | .openQuestion => "open_question"

/-- Is the text one of the literals? -/
def WireType.ofValue (text : String) : Option WireType :=
  [fact, preference, decision, insight, hypothesis, lesson, goal, projectContext, concept,
    relationship, openQuestion].find? fun t => t.value = text

/-- `schemas.MemoryState`. -/
inductive WireState
  | active | superseded | contradicted | archived
  deriving DecidableEq, Repr

def WireState.value : WireState → String
  | .active => "active"
  | .superseded => "superseded"
  | .contradicted => "contradicted"
  | .archived => "archived"

/-- Is the text one of the literals? -/
def WireState.ofValue (text : String) : Option WireState :=
  [active, superseded, contradicted, archived].find? fun s => s.value = text

/-- `Provenance.source_type`. -/
inductive WireSourceType
  | conversation | user | agent | import_ | system | unknown | other
  deriving DecidableEq, Repr

def WireSourceType.value : WireSourceType → String
  | .conversation => "conversation"
  | .user => "user"
  | .agent => "agent"
  | .import_ => "import"
  | .system => "system"
  | .unknown => "unknown"
  | .other => "other"

/-- Is the text one of the literals? -/
def WireSourceType.ofValue (text : String) : Option WireSourceType :=
  [conversation, user, agent, import_, system, unknown, other].find? fun t => t.value = text

/-! ## Provenance -/

structure ProvenanceDict where
  sourceType : String
  capturedAt : String
  sourceId : Option String := none
  sourceModel : Option String := none
  evidence : Option String := none

/-- The text of an instant in UTC. -/
abbrev UtcText : Type := { text : String // ∃ d : DateTime, d.offset = some 0 ∧ d.zulu = text }

/-- `schemas.Provenance`. -/
structure WireProvenance where
  sourceType : WireSourceType
  capturedAt : UtcText
  sourceId : Option (Text 0 256)
  sourceModel : Option (Text 0 128)
  evidence : Option (Text 0 2000)
  deriving DecidableEq

/-- `Provenance.valid_timestamp`: an aware ISO text, rewritten in UTC. -/
def validTimestamp (R : Type) [Python R] (value : String) : Except PyError UtcText :=
  match Python.fromisoformat R (fromZ value) with
  | none => .error .pydanticValidationError
  | some parsed =>
    if parsed.offset.isNone then .error .pydanticValidationError
    else
      match h : ensureAware parsed "captured_at" with
      | .error e => .error e
      | .ok utc => .ok ⟨utc.zulu, utc, ensureAware_ok h, rfl⟩

/-- `Provenance.model_validate`. The timestamp comes first: its overflow is reported even
when other fields are wrong. -/
def WireProvenance.modelValidate (R : Type) [Python R] (d : ProvenanceDict) :
    Except PyError WireProvenance := do
  let text ← Text.modelValidate 1 80 d.capturedAt
  let capturedAt ← validTimestamp R text.val
  let sourceType ← literal WireSourceType.ofValue d.sourceType
  let sourceId ← optional (Text.modelValidate 0 256) d.sourceId
  let sourceModel ← optional (Text.modelValidate 0 128) d.sourceModel
  let evidence ← optional (Text.modelValidate 0 2000) d.evidence
  pure
    { sourceType := sourceType, capturedAt := capturedAt, sourceId := sourceId
      sourceModel := sourceModel, evidence := evidence }

/-! ## Requests -/

structure WriteDict (R : Type) where
  content : String
  type : String
  ownerId : String
  space : Option String := none
  importance : R
  confidence : R
  provenance : ProvenanceDict
  idempotencyKey : String
  timeoutMs : Int := 2500

/-- `WriteRequest`. -/
structure WriteRequest (R : Type) [Python R] where
  content : Text 1 maxContentLength
  content_not_blank : isBlank content.val = false
  type : WireType
  ownerId : Text 1 128
  space : Option (Text 1 128)
  importance : UnitFloat R
  confidence : UnitFloat R
  provenance : WireProvenance
  idempotencyKey : Text 1 128
  timeoutMs : BoundedInt 1 maxTimeoutMs

/-- A text that Python's own `strip` leaves something of. -/
def notBlank (lo hi : Nat) (value : String) :
    Except PyError { text : Text lo hi // isBlank text.val = false } := do
  let text ← Text.modelValidate lo hi value
  if h : isBlank text.val = false then .ok ⟨text, h⟩ else .error .pydanticValidationError

/-- `WriteRequest.model_validate`. -/
def WriteRequest.modelValidate (d : WriteDict R) : Except PyError (WriteRequest R) := do
  let provenance ← WireProvenance.modelValidate R d.provenance
  let content ← notBlank 1 maxContentLength d.content
  let type ← literal WireType.ofValue d.type
  let ownerId ← Text.modelValidate 1 128 d.ownerId
  let space ← optional (Text.modelValidate 1 128) d.space
  let importance ← Ranged.modelValidate Python.inUnit d.importance
  let confidence ← Ranged.modelValidate Python.inUnit d.confidence
  let idempotencyKey ← Text.modelValidate 1 128 d.idempotencyKey
  let timeoutMs ← Ranged.modelValidate _ d.timeoutMs
  pure
    { content := content.val, content_not_blank := content.property, type := type
      ownerId := ownerId, space := space, importance := importance, confidence := confidence
      provenance := provenance, idempotencyKey := idempotencyKey, timeoutMs := timeoutMs }

structure SearchDict (R : Type) where
  query : String
  ownerId : String
  space : Option String := none
  type : Option String := none
  state : Option String := none
  limit : Int := 10
  minRelevance : R
  timeoutMs : Int := 2500

/-- `SearchRequest`. -/
structure SearchRequest (R : Type) [Python R] where
  query : Text 1 maxQueryLength
  query_not_blank : isBlank query.val = false
  ownerId : Text 1 128
  space : Option (Text 1 128)
  type : Option WireType
  state : Option WireState
  limit : BoundedInt 1 maxLimit
  minRelevance : UnitFloat R
  timeoutMs : BoundedInt 1 maxTimeoutMs

/-- `SearchRequest.model_validate`. -/
def SearchRequest.modelValidate (d : SearchDict R) : Except PyError (SearchRequest R) := do
  let query ← notBlank 1 maxQueryLength d.query
  let ownerId ← Text.modelValidate 1 128 d.ownerId
  let space ← optional (Text.modelValidate 1 128) d.space
  let type ← optional (literal WireType.ofValue) d.type
  let state ← optional (literal WireState.ofValue) d.state
  let limit ← Ranged.modelValidate _ d.limit
  let minRelevance ← Ranged.modelValidate Python.inUnit d.minRelevance
  let timeoutMs ← Ranged.modelValidate _ d.timeoutMs
  pure
    { query := query.val, query_not_blank := query.property, ownerId := ownerId, space := space
      type := type, state := state, limit := limit, minRelevance := minRelevance
      timeoutMs := timeoutMs }

/-- `payload.get("state", "active")`, of the dump of the request without its nulls. -/
def SearchRequest.wantedState (request : SearchRequest R) : String :=
  (request.state.map WireState.value).getD "active"

theorem SearchRequest.one_le_limit (request : SearchRequest R) : 1 ≤ request.limit.val :=
  (of_decide_eq_true request.limit.property).1

/-- Slicing to the limit keeps no more than it. -/
theorem SearchRequest.length_take_le_limit {α : Type} (request : SearchRequest R) (results : List α) :
    ((results.take request.limit.val.toNat).length : Int) ≤ request.limit.val := by
  have hlimit := request.one_le_limit
  have htake := List.length_take_le request.limit.val.toNat results
  omega

structure PatchDict (R : Type) where
  content : Option String := none
  type : Option String := none
  space : Option String := none
  importance : Option R := none
  confidence : Option R := none
  state : Option String := none
  provenance : Option ProvenanceDict := none

/-- The validated fields of a `MemoryPatch`. -/
structure PatchFields (R : Type) [Python R] where
  content : Option { text : Text 1 maxContentLength // isBlank text.val = false }
  type : Option WireType
  space : Option (Text 1 128)
  importance : Option (UnitFloat R)
  confidence : Option (UnitFloat R)
  state : Option WireState
  provenance : Option WireProvenance

/-- `MemoryPatch.has_change`. -/
def PatchFields.hasChange (p : PatchFields R) : Bool :=
  p.content.isSome || p.type.isSome || p.space.isSome || p.importance.isSome ||
    p.confidence.isSome || p.state.isSome || p.provenance.isSome

/-- `MemoryPatch`. -/
structure MemoryPatch (R : Type) [Python R] extends PatchFields R where
  has_change : toPatchFields.hasChange = true

/-- `MemoryPatch.model_validate`. -/
def MemoryPatch.modelValidate (d : PatchDict R) : Except PyError (MemoryPatch R) := do
  let provenance ← optional (WireProvenance.modelValidate R) d.provenance
  let content ← optional (notBlank 1 maxContentLength) d.content
  let type ← optional (literal WireType.ofValue) d.type
  let space ← optional (Text.modelValidate 1 128) d.space
  let importance ← optional (Ranged.modelValidate Python.inUnit) d.importance
  let confidence ← optional (Ranged.modelValidate Python.inUnit) d.confidence
  let state ← optional (literal WireState.ofValue) d.state
  let fields : PatchFields R :=
    { content := content, type := type, space := space, importance := importance
      confidence := confidence, state := state, provenance := provenance }
  if h : fields.hasChange = true then pure { toPatchFields := fields, has_change := h }
  else throw .pydanticValidationError

structure UpdateDict (R : Type) where
  id : String
  ownerId : String
  expectedVersion : Int
  patch : PatchDict R
  provenance : Option ProvenanceDict := none
  idempotencyKey : String
  timeoutMs : Int := 2500

/-- `UpdateRequest`. -/
structure UpdateRequest (R : Type) [Python R] where
  id : Text 1 128
  ownerId : Text 1 128
  expectedVersion : LowerInt 1
  patch : MemoryPatch R
  provenance : Option WireProvenance
  idempotencyKey : Text 1 128
  timeoutMs : BoundedInt 1 maxTimeoutMs

/-- `UpdateRequest.model_validate`. -/
def UpdateRequest.modelValidate (d : UpdateDict R) : Except PyError (UpdateRequest R) := do
  let patch ← MemoryPatch.modelValidate d.patch
  let provenance ← optional (WireProvenance.modelValidate R) d.provenance
  let id ← Text.modelValidate 1 128 d.id
  let ownerId ← Text.modelValidate 1 128 d.ownerId
  let expectedVersion ← Ranged.modelValidate _ d.expectedVersion
  let idempotencyKey ← Text.modelValidate 1 128 d.idempotencyKey
  let timeoutMs ← Ranged.modelValidate _ d.timeoutMs
  pure
    { id := id, ownerId := ownerId, expectedVersion := expectedVersion, patch := patch
      provenance := provenance, idempotencyKey := idempotencyKey, timeoutMs := timeoutMs }

structure ForgetDict where
  id : String
  ownerId : String
  idempotencyKey : String
  reason : Option String := none
  timeoutMs : Int := 2500

/-- `ForgetRequest`. -/
structure ForgetRequest where
  id : Text 1 128
  ownerId : Text 1 128
  idempotencyKey : Text 1 128
  reason : Option (Text 0 256)
  timeoutMs : BoundedInt 1 maxTimeoutMs

/-- `ForgetRequest.model_validate`. -/
def ForgetRequest.modelValidate (d : ForgetDict) : Except PyError ForgetRequest := do
  let id ← Text.modelValidate 1 128 d.id
  let ownerId ← Text.modelValidate 1 128 d.ownerId
  let idempotencyKey ← Text.modelValidate 1 128 d.idempotencyKey
  let reason ← optional (Text.modelValidate 0 256) d.reason
  let timeoutMs ← Ranged.modelValidate _ d.timeoutMs
  pure
    { id := id, ownerId := ownerId, idempotencyKey := idempotencyKey, reason := reason
      timeoutMs := timeoutMs }

/-! ## Responses -/

/-- The record that `_memory` builds of a stored memory. -/
structure MemoryDict (R : Type) where
  id : String
  ownerId : String
  content : String
  type : String
  space : Option String
  importance : R
  confidence : R
  state : String
  version : Int
  createdAt : String
  updatedAt : String
  occurredAt : Option String
  provenance : ProvenanceDict

/-- `MemoryRecord`. -/
structure MemoryRecord (R : Type) [Python R] where
  id : Text 1 128
  ownerId : Text 1 128
  content : Text 1 maxContentLength
  type : WireType
  space : Option (Text 0 128)
  importance : UnitFloat R
  confidence : UnitFloat R
  state : WireState
  version : LowerInt 1
  createdAt : Text 1 80
  updatedAt : Text 1 80
  occurredAt : Option (Text 0 80)
  provenance : WireProvenance

/-- `MemoryRecord.model_validate`. -/
def MemoryRecord.modelValidate (d : MemoryDict R) : Except PyError (MemoryRecord R) := do
  let provenance ← WireProvenance.modelValidate R d.provenance
  let id ← Text.modelValidate 1 128 d.id
  let ownerId ← Text.modelValidate 1 128 d.ownerId
  let content ← Text.modelValidate 1 maxContentLength d.content
  let type ← literal WireType.ofValue d.type
  let space ← optional (Text.modelValidate 0 128) d.space
  let importance ← Ranged.modelValidate Python.inUnit d.importance
  let confidence ← Ranged.modelValidate Python.inUnit d.confidence
  let state ← literal WireState.ofValue d.state
  let version ← Ranged.modelValidate _ d.version
  let createdAt ← Text.modelValidate 1 80 d.createdAt
  let updatedAt ← Text.modelValidate 1 80 d.updatedAt
  let occurredAt ← optional (Text.modelValidate 0 80) d.occurredAt
  pure
    { id := id, ownerId := ownerId, content := content, type := type, space := space
      importance := importance, confidence := confidence, state := state, version := version
      createdAt := createdAt, updatedAt := updatedAt, occurredAt := occurredAt
      provenance := provenance }

/-- `SearchResult`. -/
structure SearchResult (R : Type) [Python R] where
  memory : MemoryRecord R
  score : UnitFloat R
  reasonRetrieved : Text 1 256
  retrievalProfileVersion : Text 1 64

/-- `SearchResponse`. -/
structure SearchResponse (R : Type) [Python R] where
  memories : List (SearchResult R)
  count : BoundedInt 0 maxLimit

inductive WriteStatus
  | created | alreadyExists
  deriving DecidableEq, Repr

inductive ForgetStatus
  | forgotten | alreadyAbsent
  deriving DecidableEq, Repr

/-- The data of a success envelope. -/
inductive ResponseData (R : Type) [Python R]
  | write (memory : MemoryRecord R) (status : WriteStatus)
  | search (response : SearchResponse R)
  | update (memory : MemoryRecord R)
  | forget (status : ForgetStatus)

end OpenMemory.Mcp
