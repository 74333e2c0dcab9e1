import OpenMemory.Lib.Txn
import OpenMemory.Domain.Python

/-!
# Enums and value objects (`domain/types.py`)

Each value object comes in two steps. `…Fields` is the record as the caller
writes it and `postInit` is the source's `__post_init__`, in its order, with its
messages. The checked type (`Provenance`, `CaptureConsent`, …) carries the fact
that `postInit` accepts it unchanged, so that holding one means every check has
passed; `make` is the constructor call, which may raise.
-/

namespace OpenMemory

open Lib

/-! ## Enums -/

inductive MemoryType
  | fact | preference | decision | insight | hypothesis | lesson | goal | projectContext
  | concept | relationship | openQuestion | mentalNote
  deriving DecidableEq, Repr

def MemoryType.value : MemoryType → String
  | .fact => "fact"
  | .preference => "preference"
  | .decision => "decision"
  | .insight => "insight"
  | .hypothesis => "hypothesis"
  | .lesson => "lesson"
  | .goal => "goal"
  | .projectContext => "project_context"
  | .concept => "concept"
  | .relationship => "relationship"
  | .openQuestion => "open_question"
  | .mentalNote => "mental_note"

/-- `MemoryType(text)`, `none` for `ValueError`. -/
def MemoryType.ofValue (text : String) : Option MemoryType :=
  [fact, preference, decision, insight, hypothesis, lesson, goal, projectContext, concept,
    relationship, openQuestion, mentalNote].find? fun t => t.value = text

inductive MemoryState
  | candidate | confirmed | pinned | stale | active | superseded | contradicted | archived
  deriving DecidableEq, Repr

def MemoryState.value : MemoryState → String
  | .candidate => "candidate"
  | .confirmed => "confirmed"
  | .pinned => "pinned"
  | .stale => "stale"
  | .active => "active"
  | .superseded => "superseded"
  | .contradicted => "contradicted"
  | .archived => "archived"

/-- `MemoryState(text)`, `none` for `ValueError`. -/
def MemoryState.ofValue (text : String) : Option MemoryState :=
  [candidate, confirmed, pinned, stale, active, superseded, contradicted, archived].find?
    fun s => s.value = text

inductive RelationType
  | supports | contradicts | derivedFrom | relatedTo | supersedes | appliesTo
  deriving DecidableEq, Repr

def RelationType.value : RelationType → String
  | .supports => "supports"
  | .contradicts => "contradicts"
  | .derivedFrom => "derived_from"
  | .relatedTo => "related_to"
  | .supersedes => "supersedes"
  | .appliesTo => "applies_to"

/-- `RelationType(text)`, `none` for `ValueError`. -/
def RelationType.ofValue (text : String) : Option RelationType :=
  [supports, contradicts, derivedFrom, relatedTo, supersedes, appliesTo].find?
    fun t => t.value = text

inductive SourceType
  | user | agent | conversation | import_ | system | unknown
  deriving DecidableEq, Repr

def SourceType.value : SourceType → String
  | .user => "user"
  | .agent => "agent"
  | .conversation => "conversation"
  | .import_ => "import"
  | .system => "system"
  | .unknown => "unknown"

/-- `SourceType(text)`, `none` for `ValueError`. -/
def SourceType.ofValue (text : String) : Option SourceType :=
  [user, agent, conversation, import_, system, unknown].find? fun t => t.value = text

inductive ConsentMode
  | manual | assisted | automatic | legacyUnverified
  deriving DecidableEq, Repr

def ConsentMode.value : ConsentMode → String
  | .manual => "manual"
  | .assisted => "assisted"
  | .automatic => "automatic"
  | .legacyUnverified => "legacy_unverified"

/-- `ConsentMode(text)`, `none` for `ValueError`. -/
def ConsentMode.ofValue (text : String) : Option ConsentMode :=
  [manual, assisted, automatic, legacyUnverified].find? fun m => m.value = text

inductive ConsentReason
  | userRequestedMemory | userConfirmedInbox | connectionPolicyAutomatic | importAuthorized
  deriving DecidableEq, Repr

def ConsentReason.value : ConsentReason → String
  | .userRequestedMemory => "user_requested_memory"
  | .userConfirmedInbox => "user_confirmed_inbox"
  | .connectionPolicyAutomatic => "connection_policy_automatic"
  | .importAuthorized => "import_authorized"

/-- `ConsentReason(text)`, `none` for `ValueError`. -/
def ConsentReason.ofValue (text : String) : Option ConsentReason :=
  [userRequestedMemory, userConfirmedInbox, connectionPolicyAutomatic, importAuthorized].find?
    fun r => r.value = text

/-! ## Validators -/

def maxOwnerIdLength : Nat := 256
def maxSpaceLength : Nat := 256
def maxIdempotencyKeyLength : Nat := 256
def maxOpaqueIdLength : Nat := 256
def maxEvidenceItemLength : Nat := 512

/-- `not value.strip()`. -/
def isBlank (value : String) : Bool := decide (strip value = "")

/-- Does a nullable field hold a value that fails `bad`? -/
def someAnd {α : Type} (bad : α → Bool) : Option α → Bool
  | none => false
  | some a => bad a

/-- `if c: raise e`, outside a transaction. -/
theorem raiseIf_except_ok {c : Bool} {e : PyError} {u : Unit} :
    (raiseIf c e : Except PyError Unit) = .ok u ↔ c = false := by
  unfold raiseIf
  cases c <;> simp [pure, Except.pure, throw, throwThe, MonadExceptOf.throw]

/-- `validate_owner_id`; the stripped text is returned and callers ignore it. -/
def validateOwnerId (value : String) : Except PyError String := do
  raiseIf (isBlank value) (.validation "owner_id must be a non-empty string")
  raiseIf (decide (maxOwnerIdLength < (strip value).length))
    (.validation "owner_id exceeds the maximum length")
  pure (strip value)

/-- `validate_space`. -/
def validateSpace : Option String → Except PyError (Option String)
  | none => pure none
  | some value => do
    raiseIf (isBlank value || decide (maxSpaceLength < (strip value).length))
      (.validation "space must be empty or within the maximum length")
    pure (some (strip value))

/-- `validate_idempotency_key`. -/
def validateIdempotencyKey : Option String → Except PyError (Option String)
  | none => pure none
  | some value => do
    raiseIf (isBlank value || decide (maxIdempotencyKeyLength < (strip value).length))
      (.validation "idempotency_key must be non-empty and within the maximum length")
    pure (some (strip value))

/-- `validate_unit_interval`. -/
def validateUnitInterval {R : Type} [Python R] (value : R) (fieldName : String) :
    Except PyError R := do
  raiseIf (!Python.inUnit value) (.validation (fieldName ++ " must be between 0 and 1"))
  pure value

/-! ## Provenance -/

structure ProvenanceFields where
  sourceType : SourceType
  capturedAt : DateTime
  sourceId : Option String := none
  sourceModel : Option String := none
  evidence : List String := []
  sourceClient : Option String := none
  sourceConnectionId : Option String := none
  conversationId : Option String := none
  messageId : Option String := none
  deriving DecidableEq, Repr

/-- The check of one opaque origin identifier. -/
def checkOpaqueId (value : Option String) (fieldName : String) : Except PyError Unit := do
  raiseIf (someAnd isBlank value) (.validation (fieldName ++ " cannot be blank"))
  raiseIf (someAnd (fun v => decide (maxOpaqueIdLength < v.length)) value)
    (.validation (fieldName ++ " exceeds the maximum length"))

/-- `Provenance.__post_init__`: `captured_at` is converted to UTC. -/
def ProvenanceFields.postInit (f : ProvenanceFields) : Except PyError ProvenanceFields := do
  let capturedAt ← ensureAware f.capturedAt "captured_at"
  raiseIf (someAnd isBlank f.sourceId) (.validation "source_id cannot be blank")
  raiseIf (someAnd isBlank f.sourceModel) (.validation "source_model cannot be blank")
  raiseIf (f.evidence.any isBlank) (.validation "provenance evidence cannot contain blank items")
  checkOpaqueId f.sourceClient "source_client"
  checkOpaqueId f.sourceConnectionId "source_connection_id"
  checkOpaqueId f.conversationId "conversation_id"
  checkOpaqueId f.messageId "message_id"
  raiseIf (f.evidence.any fun item => decide (maxEvidenceItemLength < item.length))
    (.validation "provenance evidence item exceeds the maximum length")
  pure { f with capturedAt := capturedAt }

theorem ProvenanceFields.postInit_idem {f g : ProvenanceFields} (h : f.postInit = .ok g) :
    g.postInit = .ok g := by
  simp only [postInit, except_bind_ok, except_pure_ok] at h ⊢
  obtain ⟨at_, hat, h⟩ := h
  obtain ⟨_, h₁, _, h₂, _, h₃, _, h₄, _, h₅, _, h₆, _, h₇, _, h₈, rfl⟩ := h
  exact ⟨at_, ensureAware_idem hat, _, h₁, _, h₂, _, h₃, _, h₄, _, h₅, _, h₆, _, h₇, _, h₈, rfl⟩

/-- Origin metadata that has passed its checks. -/
structure Provenance extends ProvenanceFields where
  checked : toProvenanceFields.postInit = .ok toProvenanceFields
  deriving DecidableEq

/-- The constructor call. -/
def Provenance.make (f : ProvenanceFields) : Except PyError Provenance :=
  construct ProvenanceFields.postInit Provenance.mk ProvenanceFields.postInit_idem f

/-- Stored capture times are in UTC. -/
theorem Provenance.capturedAt_utc (p : Provenance) : p.capturedAt.offset = some 0 := by
  have h := p.checked
  simp only [ProvenanceFields.postInit, except_bind_ok, except_pure_ok] at h
  obtain ⟨at_, hat, _, -, _, -, _, -, _, -, _, -, _, -, _, -, _, -, heq⟩ := h
  have hcaptured : p.capturedAt = at_ := congrArg ProvenanceFields.capturedAt heq
  rw [hcaptured]
  exact ensureAware_ok hat

/-- `a == b`; `captured_at` is UTC on both sides. -/
def Provenance.pyEq (a b : Provenance) : Bool := decide (a.toProvenanceFields = b.toProvenanceFields)

/-! ## Consent -/

structure ConsentFields where
  mode : ConsentMode
  consentId : String
  reasonCode : ConsentReason
  policyVersion : String
  grantedAt : DateTime
  deriving DecidableEq, Repr

/-- The check of one mandatory consent text. -/
def checkConsentText (value fieldName : String) : Except PyError Unit := do
  raiseIf (isBlank value) (.validation (fieldName ++ " must be non-empty"))
  raiseIf (decide (maxOpaqueIdLength < value.length))
    (.validation (fieldName ++ " exceeds the maximum length"))

/-- `CaptureConsent.__post_init__`: `granted_at` is checked but kept as given. -/
def ConsentFields.postInit (f : ConsentFields) : Except PyError ConsentFields := do
  checkConsentText f.consentId "consent_id"
  checkConsentText f.policyVersion "policy_version"
  let _ ← ensureAware f.grantedAt "granted_at"
  pure f

theorem ConsentFields.postInit_idem {f g : ConsentFields} (h : f.postInit = .ok g) :
    g.postInit = .ok g := by
  have hg : g = f := by
    simp only [postInit, except_bind_ok, except_pure_ok] at h
    obtain ⟨_, -, _, -, _, -, rfl⟩ := h
    rfl
  rw [hg] at h ⊢
  exact h

/-- Capture consent that has passed its checks. -/
structure CaptureConsent extends ConsentFields where
  checked : toConsentFields.postInit = .ok toConsentFields
  deriving DecidableEq

/-- The constructor call. -/
def CaptureConsent.make (f : ConsentFields) : Except PyError CaptureConsent :=
  construct ConsentFields.postInit CaptureConsent.mk ConsentFields.postInit_idem f

/-- `a == b`: equal texts, and grants at the same instant. -/
def CaptureConsent.pyEq (a b : CaptureConsent) : Bool :=
  decide (a.mode = b.mode) && decide (a.consentId = b.consentId) &&
    decide (a.reasonCode = b.reasonCode) && decide (a.policyVersion = b.policyVersion) &&
    a.grantedAt.pyEq b.grantedAt

/-! ## Embedding descriptors -/

structure DescriptorFields where
  profileId : String
  profileVersion : String
  dimension : Int
  metric : String := "cosine"
  deriving DecidableEq, Repr

/-- `EmbeddingDescriptor.__post_init__`. -/
def DescriptorFields.postInit (f : DescriptorFields) : Except PyError DescriptorFields := do
  raiseIf (isBlank f.profileId || isBlank f.profileVersion)
    (.validation "embedding profile id and version are required")
  raiseIf (decide (f.dimension ≤ 0)) (.validation "embedding dimension must be positive")
  raiseIf (decide (f.metric ∉ ["cosine", "l2", "inner_product"]))
    (.validation "unsupported embedding metric")
  pure f

theorem DescriptorFields.postInit_ok {f g : DescriptorFields} (h : f.postInit = .ok g) :
    g = f := by
  simp only [postInit, except_bind_ok, except_pure_ok] at h
  obtain ⟨_, -, _, -, _, -, rfl⟩ := h
  rfl

theorem DescriptorFields.postInit_idem {f g : DescriptorFields} (h : f.postInit = .ok g) :
    g.postInit = .ok g := by
  obtain rfl := postInit_ok h
  exact h

/-- Which profile a vector was computed by. -/
structure EmbeddingDescriptor extends DescriptorFields where
  checked : toDescriptorFields.postInit = .ok toDescriptorFields
  deriving DecidableEq

/-- The constructor call. -/
def EmbeddingDescriptor.make (f : DescriptorFields) : Except PyError EmbeddingDescriptor :=
  construct DescriptorFields.postInit EmbeddingDescriptor.mk DescriptorFields.postInit_idem f

theorem EmbeddingDescriptor.make_ok {f : DescriptorFields} {d : EmbeddingDescriptor}
    (h : make f = .ok d) : d.toDescriptorFields = f := by
  obtain ⟨g, hg, hf, rfl⟩ := construct_ok.mp h
  exact DescriptorFields.postInit_ok hf

/-! ## Relations -/

structure RelationFields where
  sourceId : UUID
  targetId : UUID
  relationType : RelationType
  ownerId : String
  createdAt : DateTime
  deriving DecidableEq, Repr

/-- `Relation.__post_init__`. -/
def RelationFields.postInit (f : RelationFields) : Except PyError RelationFields := do
  let _ ← validateOwnerId f.ownerId
  let _ ← ensureAware f.createdAt "created_at"
  raiseIf (decide (f.sourceId = f.targetId)) (.validation "a relation cannot point to itself")
  pure f

theorem RelationFields.postInit_idem {f g : RelationFields} (h : f.postInit = .ok g) :
    g.postInit = .ok g := by
  have hg : g = f := by
    simp only [postInit, except_bind_ok, except_pure_ok] at h
    obtain ⟨_, -, _, -, _, -, rfl⟩ := h
    rfl
  rw [hg] at h ⊢
  exact h

/-- A directed edge between two memories of one owner. -/
structure Relation extends RelationFields where
  checked : toRelationFields.postInit = .ok toRelationFields
  deriving DecidableEq

/-- The constructor call. -/
def Relation.make (f : RelationFields) : Except PyError Relation :=
  construct RelationFields.postInit Relation.mk RelationFields.postInit_idem f

/-- A relation never points to itself. -/
theorem Relation.source_ne_target (r : Relation) : r.sourceId ≠ r.targetId := by
  have h := r.checked
  simp only [RelationFields.postInit, except_bind_ok, raiseIf_except_ok] at h
  obtain ⟨_, -, _, -, _, hne, -⟩ := h
  simpa using hne

/-- Making a relation keeps the fields it was given. -/
theorem Relation.make_ok {f : RelationFields} {r : Relation} (h : Relation.make f = .ok r) :
    r.toRelationFields = f := by
  obtain ⟨g, hg, hf, rfl⟩ := construct_ok.mp h
  simp only [RelationFields.postInit, except_bind_ok, except_pure_ok] at hf
  obtain ⟨_, -, _, -, _, -, rfl⟩ := hf
  rfl

end OpenMemory
