import OpenMemory.Mcp.Adapter
import OpenMemory.Store.Effects

/-!
# The tools of M1 (`adapters/mcp/http.py`)

`_invoke` derives tenant and owner from the principal of the bearer token, checks that the
connection is live and has the scope of the tool, and turns the values of the tool into one command
of the application service. `request` is that part of it; `invoke` calls the service and shapes the
answer.

Which of the commands carry the tenant is what `Tenants.lean` is about. `_invoke` is taken on all
values; of the limits that pydantic puts on them, those of a patch are in `Patches.lean`. Answers are
the data of the envelope, before `json.dumps`.
-/

namespace OpenMemory.Mcp

open Lib

variable {R : Type} [Python R]

/-! ## Principals and values -/

/-- `M1Principal`; the name is for logs only. -/
structure M1Principal where
  tenantId : String
  ownerId : String
  connectionId : String
  clientId : String
  scopes : Finset String
  allowedSpaces : Finset String := {"MBA", "Work"}
  revoked : Bool := false

structure M1Provenance where
  sourceType : String
  sourceClient : String
  sourceConnectionId : Option String := none
  conversationId : Option String := none
  messageId : Option String := none
  sourceModel : Option String := none
  capturedAt : String
  evidence : List String := []

structure M1Consent where
  mode : String
  consentId : String
  reasonCode : String
  policyVersion : String
  grantedAt : String

structure M1Patch (R : Type) where
  content : Option String := none
  type : Option String := none
  space : Option String := none
  importance : Option R := none
  confidence : Option R := none
  state : Option String := none
  provenance : Option M1Provenance := none

/-- A tool and its values. -/
inductive M1Tool (R : Type)
  | capture (content type : String) (space : Option String) (provenance : M1Provenance)
      (consent : M1Consent) (idempotencyKey : String)
  | inboxList (space : Option String) (limit : Int) (cursor : Option String)
  | inboxConfirm (id : String) (expectedVersion : Int) (idempotencyKey : String)
      (patch : Option (M1Patch R))
  | inboxDiscard (id : String) (expectedVersion : Int) (idempotencyKey : String)
      (reasonCode : Option String)
  | pin (id : String) (expectedVersion : Int) (pinned : Bool) (idempotencyKey : String)
  | «recall» (query : String) (contextSpace : Option String)
      (includeSpaces types states : Option (List String)) (allowMentalNotes : Bool) (limit : Int)
      (threshold : R)
  | update (id : String) (expectedVersion : Int) (patch : M1Patch R) (idempotencyKey : String)
  | forget (id : String) (idempotencyKey : String) (reasonCode : Option String)

/-- `required_scope`. -/
def M1Tool.requiredScope : M1Tool R → String
  | forget _ _ _ => "memory:delete"
  | inboxDiscard _ _ _ _ => "memory:delete"
  | «recall» _ _ _ _ _ _ _ _ => "memory:read"
  | inboxList _ _ _ => "memory:read"
  | _ => "memory:write"

/-! ## Errors -/

/-- What ends a tool call: `_M1BoundaryError`, or another exception. -/
inductive M1Error
  | boundary (code : String)
  | raised (error : PyError)
  deriving DecidableEq

/-- The codes that are passed on. -/
def safeCodes : List String :=
  ["validation_error", "not_found", "version_conflict", "invalid_state_transition",
    "idempotency_conflict", "idempotency_in_progress", "consent_required", "capture_disabled",
    "connection_revoked", "scope_denied", "space_forbidden", "restore_blocked_by_tombstone",
    "relation_conflict", "storage_error"]

/-- `_safe_code`. -/
def safeCode : M1Error → String
  | .boundary code => code
  | .raised error =>
    match error.code with
    | some code => if code ∈ safeCodes then code else "storage_error"
    | none =>
      match error with
      | .valueError _ => "validation_error"
      | .pydanticValidationError => "validation_error"
      | .keyError => "validation_error"
      | _ => "storage_error"

/-! ## Values of the domain -/

def consentMode (text : String) : Option ConsentMode :=
  [ConsentMode.manual, .assisted, .automatic, .legacyUnverified].find? fun m => m.value = text

def consentReason (text : String) : Option ConsentReason :=
  [ConsentReason.userRequestedMemory, .userConfirmedInbox, .connectionPolicyAutomatic,
    .importAuthorized].find? fun r => r.value = text

/-- `_uuid`. -/
def m1Uuid (R : Type) [Python R] (value : String) : Except PyError UUID :=
  match Python.parseUuid R value with
  | none => .error (.valueError "badly formed hexadecimal UUID string")
  | some id => .ok id

/-- `_provenance`. -/
def m1Provenance (R : Type) [Python R] (value : M1Provenance) : Except PyError Provenance := do
  let sourceType ← enumOf SourceType.ofValue value.sourceType
  let capturedAt ← datetime R value.capturedAt
  Provenance.make
    { sourceType := sourceType, capturedAt := capturedAt
      sourceModel := value.sourceModel, sourceClient := some value.sourceClient
      sourceConnectionId := value.sourceConnectionId, conversationId := value.conversationId
      messageId := value.messageId, evidence := value.evidence }

/-- `_consent`. -/
def m1Consent (R : Type) [Python R] (value : M1Consent) : Except PyError CaptureConsent := do
  let mode ← enumOf consentMode value.mode
  let reasonCode ← enumOf consentReason value.reasonCode
  let grantedAt ← datetime R value.grantedAt
  CaptureConsent.make
    { mode := mode, consentId := value.consentId, reasonCode := reasonCode
      policyVersion := value.policyVersion, grantedAt := grantedAt }

/-- `values or ()`, each of them an enum value. -/
def enumsOf {α : Type} (ofValue : String → Option α) (values : Option (List String)) :
    Except PyError (List α) :=
  (values.getD []).mapM (enumOf ofValue)

/-! ## Commands -/

/-- `if patch.type`: an empty text is no type. -/
def patchedEnum {α : Type} (ofValue : String → Option α) (value : Option String) :
    Except PyError (Option α) :=
  optional (enumOf ofValue) (MemoryApplicationService.truthyKey value)

/-- `values["reason_code"] or "user_requested_memory"`. -/
def reasonOr (reasonCode : Option String) : String :=
  (MemoryApplicationService.truthyKey reasonCode).getD "user_requested_memory"

/-- The command of `memory.capture`. -/
def captureRequest (p : M1Principal) (content type : String) (space : Option String)
    (provenance : M1Provenance) (consent : M1Consent) (idempotencyKey : String) :
    Except M1Error (CaptureMemoryCommand R) :=
  if provenance.sourceClient ≠ p.clientId then .error (.boundary "validation_error")
  else if provenance.sourceConnectionId.isSome ∧
      provenance.sourceConnectionId ≠ some p.connectionId then
    .error (.boundary "validation_error")
  else if someAnd (fun name => decide (name ∉ p.allowedSpaces)) space then
    .error (.boundary "space_forbidden")
  else do
    let memoryType ← (enumOf MemoryType.ofValue type).mapError .raised
    let provenance ← (m1Provenance R provenance).mapError .raised
    let consent ← (m1Consent R consent).mapError .raised
    pure
      { tenantId := p.tenantId, ownerId := p.ownerId, connectionId := p.connectionId
        content := content, memoryType := memoryType, space := space, provenance := provenance
        consent := consent, idempotencyKey := idempotencyKey, importance := Python.decimal 5 1
        confidence := Python.decimal 5 1, connectionRevoked := p.revoked, scopes := p.scopes }

/-- The command of `memory.recall`. -/
def recallRequest (p : M1Principal) (query : String) (contextSpace : Option String)
    (includeSpaces types states : Option (List String)) (allowMentalNotes : Bool) (limit : Int)
    (threshold : R) : Except PyError (RecallMemoryCommand R) := do
  let included := includeSpaces.getD []
  let types ← enumsOf MemoryType.ofValue types
  let states ← enumsOf MemoryState.ofValue states
  pure
    { tenantId := p.tenantId, ownerId := p.ownerId, query := query, contextSpace := contextSpace
      includeSpaces := included
      memoryTypes := if types = [] then none else some types.toFinset
      states := if states = [] then {.confirmed, .pinned} else states.toFinset
      allowMentalNotes := allowMentalNotes, limit := limit, threshold := threshold
      spacePolicy :=
        { defaultRecall := if included = [] then "same_space_only" else "explicit_allowlist"
          allowedSpaces := p.allowedSpaces }
      connectionRevoked := p.revoked, scopes := p.scopes }

/-- The command of `memory.update`; it has no tenant. -/
def updateRequest (p : M1Principal) (id : String) (expectedVersion : Int) (patch : M1Patch R)
    (idempotencyKey : String) : Except PyError (UpdateMemoryCommand R) := do
  let memoryId ← m1Uuid R id
  let memoryType ← patchedEnum MemoryType.ofValue patch.type
  let state ← patchedEnum MemoryState.ofValue patch.state
  let provenance ← optional (m1Provenance R) patch.provenance
  pure
    { ownerId := p.ownerId, memoryId := memoryId, expectedVersion := expectedVersion
      content := patch.content, memoryType := memoryType, importance := patch.importance
      confidence := patch.confidence, state := state, space := patch.space
      provenance := provenance, idempotencyKey := some idempotencyKey }

/-- The command of a tool. -/
def toolRequest (p : M1Principal) : M1Tool R → Except M1Error (Request R)
  | .capture content type space provenance consent idempotencyKey =>
    (captureRequest p content type space provenance consent idempotencyKey).map .capture
  | .inboxList space limit cursor =>
    .ok (.listInbox
      { tenantId := p.tenantId, ownerId := p.ownerId, space := space, limit := limit
        cursor := cursor, scopes := p.scopes })
  | .inboxConfirm id expectedVersion idempotencyKey patch => do
    let memoryId ← (m1Uuid R id).mapError .raised
    let memoryType ← (patchedEnum MemoryType.ofValue (patch.bind M1Patch.type)).mapError .raised
    pure (.confirmCandidate
      { tenantId := p.tenantId, ownerId := p.ownerId, memoryId := memoryId
        expectedVersion := expectedVersion, idempotencyKey := idempotencyKey
        content := patch.bind M1Patch.content, memoryType := memoryType
        space := patch.bind M1Patch.space, connectionRevoked := p.revoked, scopes := p.scopes })
  | .inboxDiscard id expectedVersion idempotencyKey reasonCode => do
    let memoryId ← (m1Uuid R id).mapError .raised
    pure (.discardCandidate
      { tenantId := p.tenantId, ownerId := p.ownerId, memoryId := memoryId
        expectedVersion := expectedVersion, idempotencyKey := idempotencyKey
        reasonCode := reasonOr reasonCode, connectionRevoked := p.revoked, scopes := p.scopes })
  | .pin id expectedVersion pinned idempotencyKey => do
    let memoryId ← (m1Uuid R id).mapError .raised
    pure (.pin
      { tenantId := p.tenantId, ownerId := p.ownerId, memoryId := memoryId
        expectedVersion := expectedVersion, pinned := pinned, idempotencyKey := idempotencyKey
        connectionRevoked := p.revoked, scopes := p.scopes })
  | .recall query contextSpace includeSpaces types states allowMentalNotes limit threshold => do
    let command ← (recallRequest p query contextSpace includeSpaces types states allowMentalNotes
      limit threshold).mapError .raised
    pure (.recall command)
  | .update id expectedVersion patch idempotencyKey => do
    let command ← (updateRequest p id expectedVersion patch idempotencyKey).mapError .raised
    pure (.update command)
  | .forget id idempotencyKey _ => do
    let memoryId ← (m1Uuid R id).mapError .raised
    pure (.forget
      { ownerId := p.ownerId, memoryId := memoryId, idempotencyKey := some idempotencyKey
        tenantId := some p.tenantId })

/-- What `_invoke` does before it calls the service. -/
def request (p : M1Principal) (tool : M1Tool R) : Except M1Error (Request R) :=
  if p.revoked then .error (.boundary "connection_revoked")
  else if tool.requiredScope ∉ p.scopes then .error (.boundary "scope_denied")
  else toolRequest p tool

/-! ## Answers -/

structure M1ProvenanceView where
  sourceType : String
  sourceClient : Option String
  sourceConnectionId : Option String
  conversationId : Option String
  messageId : Option String
  sourceModel : Option String
  capturedAt : String
  evidence : List String
  deriving DecidableEq

structure M1ConsentView where
  mode : String
  consentId : String
  reasonCode : String
  policyVersion : String
  grantedAt : String
  deriving DecidableEq

/-- A memory as the tools show it: the tenant is not in it. -/
structure M1Memory (R : Type) where
  id : String
  content : String
  type : String
  space : Option String
  importance : R
  confidence : R
  state : String
  version : Int
  createdAt : String
  updatedAt : String
  occurredAt : Option String
  provenance : M1ProvenanceView
  captureConsent : Option M1ConsentView
  deriving DecidableEq

/-- `_timestamp` of an aware value. -/
def m1Timestamp (value : DateTime) : Except PyError String :=
  (ensureAware value "timestamp").map DateTime.zulu

/-- The `capture_consent` of `_memory`. -/
def m1ConsentView (consent : CaptureConsent) : Except PyError M1ConsentView := do
  let grantedAt ← m1Timestamp consent.grantedAt
  pure
    { mode := consent.mode.value, consentId := consent.consentId
      reasonCode := consent.reasonCode.value, policyVersion := consent.policyVersion
      grantedAt := grantedAt }

/-- `_memory`. -/
def m1Memory (m : Memory R) : Except PyError (M1Memory R) := do
  let createdAt ← m1Timestamp m.createdAt
  let updatedAt ← m1Timestamp m.updatedAt
  let occurredAt ← optional m1Timestamp m.occurredAt
  let capturedAt ← m1Timestamp m.provenance.capturedAt
  let captureConsent ← optional m1ConsentView m.captureConsent
  pure
    { id := m.id.str, content := m.content, type := m.memoryType.value, space := m.space
      importance := m.importance, confidence := m.confidence, state := m.state.value
      version := m.version, createdAt := createdAt, updatedAt := updatedAt
      occurredAt := occurredAt
      provenance :=
        { sourceType := m.provenance.sourceType.value
          sourceClient := m.provenance.sourceClient
          sourceConnectionId := m.provenance.sourceConnectionId
          conversationId := m.provenance.conversationId
          messageId := m.provenance.messageId
          sourceModel := m.provenance.sourceModel
          capturedAt := capturedAt
          evidence := m.provenance.evidence }
      captureConsent := captureConsent }

/-- An item of `memory.recall`. -/
structure M1Recalled (R : Type) where
  memory : M1Memory R
  score : R
  reasonRetrieved : String
  profileId : String
  profileVersion : String
  deriving DecidableEq

def m1Recalled (item : SearchMemoryItem R) : Except PyError (M1Recalled R) := do
  let memory ← m1Memory item.memory
  pure
    { memory := memory, score := item.score, reasonRetrieved := item.reasonRetrieved
      profileId := item.profileId, profileVersion := item.profileVersion }

/-- The `data` of an answer. -/
inductive M1Data (R : Type)
  | memory (memory : M1Memory R) (status : String)
  | inbox (candidates : List (M1Memory R)) (count : Nat) (nextCursor : Option String)
  | removed (status : String)
  | recalled (memories : List (M1Recalled R)) (count : Nat)
  deriving DecidableEq

/-- The memories that an answer shows. -/
def M1Data.shown : M1Data R → List (M1Memory R)
  | memory m _ => [m]
  | inbox candidates _ _ => candidates
  | removed _ => []
  | recalled memories _ => memories.map M1Recalled.memory

/-- The status that a tool reports with a memory. -/
def M1Tool.status (tool : M1Tool R) (m : Memory R) : String :=
  match tool with
  | inboxConfirm _ _ _ _ => "confirmed"
  | pin _ _ _ _ => m.state.value
  | _ => "updated"

/-- What `_invoke` makes of the result of the service. -/
def answer (tool : M1Tool R) : Response R → Except PyError (M1Data R)
  | .written result => do
    let memory ← m1Memory result.memory
    pure (.memory memory (if result.created then "created" else "already_exists"))
  | .inbox result => do
    let candidates ← result.candidates.mapM m1Memory
    pure (.inbox candidates result.candidates.length result.nextCursor)
  | .memory m => do
    let memory ← m1Memory m
    pure (.memory memory (tool.status m))
  | .forgotten result =>
    .ok (.removed (if result.forgotten then "forgotten" else "already_absent"))
  | .recalled result => do
    let memories ← result.items.mapM m1Recalled
    pure (.recalled memories result.count)
  -- no tool asks for one of these
  | .found _ => .error .keyError
  | .related _ => .error .keyError
  | .exported _ => .error .keyError
  | .imported _ => .error .keyError

/-! ## Tool calls -/

/-- `M1LocalControl`, with the store behind its service. -/
structure M1LocalControl (R : Type) [Python R] where
  store : InMemoryStore R := {}
  tombstones : Finset (String × String × String) := ∅

/-- `if result.forgotten: control.tombstones.add(…)`. -/
def M1LocalControl.buried (control : M1LocalControl R) (p : M1Principal) :
    Response R → Finset (String × String × String)
  | .forgotten result =>
    if result.forgotten then
      insert (p.tenantId, p.ownerId, result.memoryId.str) control.tombstones
    else control.tombstones
  | _ => control.tombstones

/-- `_invoke`. A memory that cannot be shown is an error after the service has committed. -/
def invoke (svc : MemoryApplicationService R) (p : M1Principal) (tool : M1Tool R)
    (control : M1LocalControl R) : Except M1Error (M1Data R) × M1LocalControl R :=
  match request p tool with
  | .error e => (.error e, control)
  | .ok req =>
    match (⟨svc, req⟩ : Call R).attempt control.store with
    | (.error e, store) => (.error (.raised e), { control with store := store })
    | (.ok response, store) =>
      ((answer tool response).mapError .raised,
        { store := store, tombstones := control.buried p response })

end OpenMemory.Mcp
