import OpenMemory.Domain.Memory

/-!
# Commands, results and ports

The transport-neutral commands and results of `application/models.py` and the
ports of `application/ports.py`. A port is a record of operations in a monad `m`,
as the source's `Protocol` classes are interfaces: the services are written once
against them and run over every adapter.

Two fields no service function reads are left out of the commands:
`connection_id` (except in capture, which validates and fingerprints it) and the
`reason_code` of forget.
-/

namespace OpenMemory

variable {R : Type}

/-! ## Commands -/

structure WriteMemoryCommand (R : Type) where
  ownerId : String
  content : String
  memoryType : MemoryType
  provenance : Provenance
  importance : R
  confidence : R
  space : Option String := none
  occurredAt : Option DateTime := none
  idempotencyKey : Option String := none
  tenantId : Option String := none

structure UpdateMemoryCommand (R : Type) where
  ownerId : String
  memoryId : UUID
  expectedVersion : Int
  content : Option String := none
  memoryType : Option MemoryType := none
  importance : Option R := none
  confidence : Option R := none
  state : Option MemoryState := none
  occurredAt : Option DateTime := none
  space : Option String := none
  provenance : Option Provenance := none
  supersedesMemoryId : Option UUID := none
  contradictsMemoryId : Option UUID := none
  changeReason : String := "updated"
  idempotencyKey : Option String := none

structure ForgetMemoryCommand where
  ownerId : String
  memoryId : UUID
  idempotencyKey : Option String := none
  tenantId : Option String := none

/-- The recall policy of a connection. -/
structure SpacePolicy where
  defaultRecall : String := "same_space_only"
  allowedSpaces : Finset String := ∅
  allowGlobal : Bool := false
  allowMentalNotesCrossSpace : Bool := false

/-- `SpacePolicy.allows`. -/
def SpacePolicy.allows (p : SpacePolicy) (space contextSpace : Option String) : Bool :=
  if space = contextSpace then true
  else if space = none ∧ p.allowGlobal = true then true
  else decide (p.defaultRecall = "explicit_allowlist") &&
    (match space with
      | none => false
      | some name => decide (name ∈ p.allowedSpaces))

structure CaptureMemoryCommand (R : Type) where
  tenantId : String
  ownerId : String
  connectionId : String
  content : String
  memoryType : MemoryType
  space : Option String
  provenance : Provenance
  consent : CaptureConsent
  idempotencyKey : String
  importance : R
  confidence : R
  capturePolicy : String := "assisted"
  connectionRevoked : Bool := false
  scopes : Finset String := {"memory:write"}

structure ListInboxCommand where
  tenantId : String
  ownerId : String
  space : Option String := none
  limit : Int := 50
  cursor : Option String := none
  connectionRevoked : Bool := false
  scopes : Finset String := {"memory:read"}

structure ConfirmCandidateCommand where
  tenantId : String
  ownerId : String
  memoryId : UUID
  expectedVersion : Int
  idempotencyKey : String
  content : Option String := none
  memoryType : Option MemoryType := none
  space : Option String := none
  actorReason : String := "user_confirmed_inbox"
  connectionRevoked : Bool := false
  scopes : Finset String := {"memory:write"}

structure PinMemoryCommand where
  tenantId : String
  ownerId : String
  memoryId : UUID
  expectedVersion : Int
  pinned : Bool
  idempotencyKey : String
  connectionRevoked : Bool := false
  scopes : Finset String := {"memory:write"}

structure DiscardCandidateCommand where
  tenantId : String
  ownerId : String
  memoryId : UUID
  expectedVersion : Int
  idempotencyKey : String
  reasonCode : String := "user_requested_memory"
  connectionRevoked : Bool := false
  scopes : Finset String := {"memory:delete"}

structure RecallMemoryCommand (R : Type) where
  tenantId : String
  ownerId : String
  query : String
  contextSpace : Option String
  includeSpaces : List String := []
  memoryTypes : Option (Finset MemoryType) := none
  states : Finset MemoryState := {.confirmed, .pinned}
  allowMentalNotes : Bool := false
  limit : Int := 5
  candidateLimit : Int := 50
  threshold : R
  spacePolicy : SpacePolicy := {}
  connectionRevoked : Bool := false
  scopes : Finset String := {"memory:read"}

structure SearchFilters (R : Type) where
  states : Finset MemoryState := {.active}
  memoryTypes : Option (Finset MemoryType) := none
  space : Option String := none
  minImportance : Option R := none
  minConfidence : Option R := none

structure SearchMemoryCommand (R : Type) where
  ownerId : String
  query : String
  filters : SearchFilters R := {}
  limit : Int := 5
  candidateLimit : Int := 50
  threshold : R

structure RelateMemoriesCommand where
  ownerId : String
  sourceMemoryId : UUID
  targetMemoryId : UUID
  relationType : String

/-! ## Results -/

variable [Python R]

structure WriteMemoryResult (R : Type) [Python R] where
  memory : Memory R
  created : Bool
  deriving DecidableEq

structure ForgetMemoryResult where
  memoryId : UUID
  forgotten : Bool
  deriving DecidableEq

structure InboxResult (R : Type) [Python R] where
  candidates : List (Memory R)
  nextCursor : Option String := none
  deriving DecidableEq

structure SearchMemoryItem (R : Type) [Python R] where
  memory : Memory R
  score : R
  similarity : R
  profileId : String
  profileVersion : String
  reasonRetrieved : String
  deriving DecidableEq

structure SearchMemoryResult (R : Type) [Python R] where
  items : List (SearchMemoryItem R)
  profileId : String
  profileVersion : String
  deriving DecidableEq

structure RecallResult (R : Type) [Python R] where
  items : List (SearchMemoryItem R)
  count : Nat
  profileId : String
  profileVersion : String
  deriving DecidableEq

/-- `MemoryExportRecord`, and `MemoryImportRecord`, which has the same fields. -/
structure MemoryRecordDto (R : Type) [Python R] where
  memory : Memory R
  history : List (MemoryVersion R)
  relations : List Relation
  embedding : Option (List R) := none
  writeFingerprint : Option String := none
  deriving DecidableEq

structure ImportResult where
  imported : Nat
  replayed : Nat
  deriving DecidableEq

/-! ## Ports -/

structure EmbeddingProfile where
  id : String
  version : String
  dimension : Int
  metric : String := "cosine"
  deriving DecidableEq, Repr

/-- `EmbeddingProfile.descriptor`; the descriptor's own checks apply. -/
def EmbeddingProfile.descriptor (p : EmbeddingProfile) : Except PyError EmbeddingDescriptor :=
  EmbeddingDescriptor.make
    { profileId := p.id, profileVersion := p.version, dimension := p.dimension,
      metric := p.metric }

/-- An embedding provider: its profile, and `embed(text, query=…)`, which may raise. -/
structure EmbeddingProvider (R : Type) where
  profile : EmbeddingProfile
  embed : String → Bool → Except PyError (List R)

structure IdempotencyLookup (R : Type) [Python R] where
  memory : Memory R
  fingerprint : String

inductive IdempotencyOperationType
  | update | forget | confirm | pin | discard
  deriving DecidableEq, Repr

structure IdempotencyClaim where
  ownerId : String
  operationType : IdempotencyOperationType
  idempotencyKey : String
  fingerprint : String
  replay : Bool
  memoryId : Option UUID := none
  resultVersion : Option Int := none
  resultStatus : Option String := none
  deriving DecidableEq

structure MemorySearchCandidate (R : Type) [Python R] where
  memory : Memory R
  similarity : R
  profile : EmbeddingProfile
  deriving DecidableEq

structure MemoryRepository (m : Type → Type) (R : Type) [Python R] where
  get (ownerId : String) (memoryId : UUID) (tenantId : Option String) : m (Option (Memory R))
  getVersion (ownerId : String) (memoryId : UUID) (version : Int) (tenantId : Option String) :
    m (Option (Memory R))
  findByIdempotencyKey (ownerId idempotencyKey : String) : m (Option (IdempotencyLookup R))
  create (memory : Memory R) (fingerprint : String) (embedding : List R) : m (WriteMemoryResult R)
  update (memory : Memory R) (expectedVersion : Int) (versionSnapshot : MemoryVersion R)
    (embedding : List R) : m (Memory R)
  searchCandidates (ownerId : String) (tenantId : Option String) (queryEmbedding : List R)
    (profile : EmbeddingProfile) (filters : SearchFilters R) (limit : Int) :
    m (List (MemorySearchCandidate R))
  forget (ownerId : String) (memoryId : UUID) (tenantId : Option String) : m Bool
  listCandidates (ownerId : String) (tenantId : Option String) (space : Option String)
    (limit : Int) : m (List (Memory R))
  addRelation (relation : Relation) : m Relation
  listRelations (ownerId : String) (memoryId : UUID) : m (List Relation)
  history (ownerId : String) (memoryId : UUID) : m (List (MemoryVersion R))

structure IdempotencyRepository (m : Type → Type) where
  claim (ownerId : String) (operationType : IdempotencyOperationType)
    (idempotencyKey fingerprint : String) : m IdempotencyClaim
  complete (claim : IdempotencyClaim) (memoryId : Option UUID) (resultVersion : Option Int)
    (resultStatus : String) : m Unit

structure MemoryAdminRepository (m : Type → Type) (R : Type) [Python R] where
  exportMemories (ownerId : String) (includeEmbeddings : Bool) : m (List (MemoryRecordDto R))
  exportMemory (ownerId : String) (memoryId : UUID) (includeEmbeddings : Bool) :
    m (Option (MemoryRecordDto R))
  importMemories (records : List (MemoryRecordDto R)) : m ImportResult
  isTombstoned (ownerId : String) (memoryId : UUID) (tenantId : Option String) : m Bool

structure UnitOfWork (m : Type → Type) (R : Type) [Python R] where
  memories : MemoryRepository m R
  idempotency : IdempotencyRepository m
  admin : MemoryAdminRepository m R

end OpenMemory
