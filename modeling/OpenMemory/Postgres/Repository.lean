import OpenMemory.Postgres.Schema

/-!
# The PostgreSQL repositories (`adapters/postgres/repository.py`)

Repository methods as programs over a `Session`: the tenant bound to the request, the
encryptor of the deployment and a way to execute statements. A session whose tenant is
`none` is a community session, one with a tenant a Cloud session; `Session.sequential`
executes the statements of one transaction after another on a database.

The `tenant_id` arguments of the port are not read here: rows are scoped by the bound tenant.
-/

namespace OpenMemory.Postgres

open Lib
open MonadExcept (ofExcept)
open MemoryApplicationService (truthyKey)

variable {R : Type} [Python R]

/-! ## Columns -/

/-- A `timestamptz` column keeps the instant, read back in UTC. -/
def timestamptz (value : DateTime) : DateTime :=
  match ensureAware value "timestamp" with
  | .ok utc => utc
  | .error _ => value

/-- `_provenance_to_json`. -/
def provenanceToJson (p : Provenance) : ProvenanceJson where
  sourceType := p.sourceType
  sourceId := p.sourceId
  sourceModel := p.sourceModel
  sourceClient := p.sourceClient
  sourceConnectionId := p.sourceConnectionId
  conversationId := p.conversationId
  messageId := p.messageId
  capturedAt := p.capturedAt.isoformat
  evidence := p.evidence

/-- `datetime.fromisoformat(text)`. -/
def readTimestamp (R : Type) [Python R] (text : String) : Except PyError DateTime :=
  match Python.fromisoformat R text with
  | none => .error (.valueError "Invalid isoformat string")
  | some value => .ok value

/-- `_provenance_from_json`; empty identifiers read as missing. -/
def provenanceFromJson (R : Type) [Python R] (payload : ProvenanceJson) :
    Except PyError Provenance := do
  let capturedAt ← readTimestamp R payload.capturedAt
  Provenance.make
    { sourceType := payload.sourceType, capturedAt := capturedAt
      sourceId := truthyKey payload.sourceId, sourceModel := truthyKey payload.sourceModel
      evidence := payload.evidence, sourceClient := truthyKey payload.sourceClient
      sourceConnectionId := truthyKey payload.sourceConnectionId
      conversationId := truthyKey payload.conversationId
      messageId := truthyKey payload.messageId }

/-- `_consent_to_json`. -/
def consentToJson (consent : CaptureConsent) : ConsentJson where
  mode := consent.mode
  consentId := consent.consentId
  reasonCode := consent.reasonCode
  policyVersion := consent.policyVersion
  grantedAt := consent.grantedAt.isoformat

/-- `_consent_from_json`. -/
def consentFromJson (R : Type) [Python R] :
    Option ConsentJson → Except PyError (Option CaptureConsent)
  | none => pure none
  | some payload => do
    let grantedAt ← readTimestamp R payload.grantedAt
    let consent ← CaptureConsent.make
      { mode := payload.mode, consentId := payload.consentId, reasonCode := payload.reasonCode
        policyVersion := payload.policyVersion, grantedAt := grantedAt }
    pure (some consent)

/-! ## Sessions -/

/-- `TenantEnvelopeEncryptor`, for the two fields that are sealed. -/
structure TenantEnvelopeEncryptor where
  encryptContent (tenantId recordId : UUID) (plaintext : String) (keyVersion : Int) :
    Except PyError String
  decryptContent (tenantId recordId : UUID) (value : String) : Except PyError String
  encryptProvenance (tenantId recordId : UUID) (plaintext : ProvenanceJson) (keyVersion : Int) :
    Except PyError String
  decryptProvenance (tenantId recordId : UUID) (value : String) : Except PyError ProvenanceJson

/-- A transaction in progress. -/
structure Session (m : Type → Type) (R : Type) where
  tenant : Option UUID := none
  encryptor : Option TenantEnvelopeEncryptor := none
  execute : (q : Statement R) → m q.Result

/-- Transactions on the database. -/
abbrev DbTxn (R : Type) : Type → Type := Txn (Database R) PyError

/-- A session that has the database to itself. -/
def Session.sequential (R : Type) [Python R] (tenant : Option UUID)
    (encryptor : Option TenantEnvelopeEncryptor) : Session (DbTxn R) R where
  tenant := tenant
  encryptor := encryptor
  execute q := q.run tenant

/-- `owner_id.split(":", 2)`, if it has three parts. -/
def splitOwner (ownerId : String) : Option (String × String × String) :=
  let notColon := fun c : Char => decide (c ≠ ':')
  match ownerId.toList.dropWhile notColon with
  | [] => none
  | _ :: rest =>
    match rest.dropWhile notColon with
    | [] => none
    | _ :: subject =>
      some (String.ofList (ownerId.toList.takeWhile notColon),
        String.ofList (rest.takeWhile notColon), String.ofList subject)

/-- `_owner_tenant`. -/
def ownerTenant (R : Type) [Python R] (ownerId : String) : Except PyError UUID :=
  match splitOwner ownerId with
  | some ("cloud", tenantId, subjectId) =>
    match Python.parseUuid R subjectId, Python.parseUuid R tenantId with
    | some _, some tenant => .ok tenant
    | _, _ => .error (.tenantContextError "Cloud owner binding is invalid")
  | _ => .error (.tenantContextError "Cloud owner binding is invalid")

namespace Session

variable {m : Type → Type}

/-- The owner must name the bound tenant, if there is one. -/
def checkOwner (session : Session m R) (ownerId message : String) : Except PyError Unit :=
  match session.tenant with
  | none => pure ()
  | some tenant => do
    let owner ← ownerTenant R ownerId
    raiseIf (decide (owner ≠ tenant)) (.tenantContextError message)

/-- `_assert_owner_tenant`. -/
def assertOwnerTenant (session : Session m R) (ownerId : String) : Except PyError Unit :=
  session.checkOwner ownerId "owner does not belong to the verified tenant"

/-- `_cloud_fields`. -/
def cloudFields (session : Session m R) (recordId : UUID) (content : String)
    (provenance : Provenance) (keyVersion : Int := 1) : Except PyError Payload :=
  match session.tenant with
  | none => pure (.plain content (provenanceToJson provenance))
  | some tenant =>
    match session.encryptor with
    | none =>
      throw (.tenantContextError "Cloud PostgreSQL storage requires envelope encryption")
    | some encryptor => do
      let content ← encryptor.encryptContent tenant recordId content keyVersion
      let provenance ← encryptor.encryptProvenance tenant recordId (provenanceToJson provenance)
        keyVersion
      pure (.cipher content provenance)

/-- Content and provenance of a row, in plaintext. -/
def openPayload (session : Session m R) (tenantId : Option UUID) (recordId : UUID) :
    Payload → Except PyError (String × Provenance)
  | .plain content provenance => do
    let provenance ← provenanceFromJson R provenance
    pure (content, provenance)
  | .cipher content provenance =>
    match session.encryptor, tenantId with
    | some encryptor, some tenant => do
      let content ← encryptor.decryptContent tenant recordId content
      let provenance ← encryptor.decryptProvenance tenant recordId provenance
      let provenance ← provenanceFromJson R provenance
      pure (content, provenance)
    | _, _ =>
      throw (.tenantContextError "Cloud ciphertext cannot be read without an encryptor")

/-- `_memory_from_row`. -/
def memoryFromRow (session : Session m R) (memoryId : UUID) (row : MemoryRow R) :
    Except PyError (Memory R) := do
  raiseIf (session.tenant.isSome && decide (row.tenantId ≠ session.tenant))
    (.tenantContextError "database row crossed the verified tenant boundary")
  let (content, provenance) ← session.openPayload row.tenantId memoryId row.payload
  let embedding ← EmbeddingDescriptor.make
    { profileId := row.embeddingProfileId, profileVersion := row.embeddingProfileVersion
      dimension := row.embeddingDimension, metric := row.embeddingMetric }
  let consent ← consentFromJson R row.captureConsent
  Memory.make
    { id := memoryId, ownerId := row.ownerId, content := content, memoryType := row.memoryType
      importance := row.importance, confidence := row.confidence, state := row.state
      version := row.version, createdAt := row.createdAt, updatedAt := row.updatedAt
      occurredAt := row.occurredAt, space := row.space, provenance := provenance
      embedding := some embedding, idempotencyKey := row.idempotencyKey
      tenantId := row.tenantId.map UUID.str, captureConsent := consent }

/-- `_version_from_row`. -/
def versionFromRow (session : Session m R) (memoryId : UUID) (version : Int) (row : VersionRow R) :
    Except PyError (MemoryVersion R) := do
  raiseIf (session.tenant.isSome && decide (row.tenantId ≠ session.tenant))
    (.tenantContextError "database version crossed the verified tenant boundary")
  let (content, provenance) ← session.openPayload row.tenantId memoryId row.payload
  let consent ← consentFromJson R row.captureConsent
  pure
    { memoryId := memoryId, version := version, content := content, memoryType := row.memoryType
      state := row.state, importance := row.importance, confidence := row.confidence
      space := row.space, occurredAt := row.occurredAt, provenance := provenance
      changedAt := row.changedAt, changeReason := row.changeReason, captureConsent := consent }

/-- `_memory_values`. -/
def memoryValues (session : Session m R) (memory : Memory R) (fingerprint : Option String) :
    Except PyError (MemoryRow R) :=
  match memory.embedding with
  | none => throw (.valueError "memory must have an embedding descriptor for storage")
  | some embedding => do
    session.checkOwner memory.ownerId "memory owner does not belong to the verified tenant"
    let payload ← session.cloudFields memory.id memory.content memory.provenance
    pure
      { ownerId := memory.ownerId, tenantId := session.tenant, space := memory.space
        memoryType := memory.memoryType, importance := memory.importance
        confidence := memory.confidence, state := memory.state, version := memory.version
        createdAt := timestamptz memory.createdAt, updatedAt := timestamptz memory.updatedAt
        occurredAt := memory.occurredAt.map timestamptz, payload := payload
        captureConsent := memory.captureConsent.map consentToJson
        embeddingProfileId := embedding.profileId
        embeddingProfileVersion := embedding.profileVersion
        embeddingDimension := embedding.dimension, embeddingMetric := embedding.metric
        idempotencyKey := memory.idempotencyKey, idempotencyFingerprint := fingerprint }

/-- `_version_values`, with the key of the row. -/
def versionValues (session : Session m R) (v : MemoryVersion R) :
    Except PyError ((UUID × Int) × VersionRow R) := do
  let payload ← session.cloudFields v.memoryId v.content v.provenance
  pure ((v.memoryId, v.version),
    { tenantId := session.tenant, memoryType := v.memoryType, importance := v.importance
      confidence := v.confidence, state := v.state, space := v.space
      occurredAt := v.occurredAt.map timestamptz, payload := payload
      captureConsent := v.captureConsent.map consentToJson, changedAt := timestamptz v.changedAt
      changeReason := v.changeReason })

/-- `_embedding_values`. -/
def embeddingValues (session : Session m R) (memory : Memory R) (vector : List R) :
    Except PyError (EmbeddingValues R) :=
  match memory.embedding with
  | none => throw (.valueError "memory must have an embedding descriptor for storage")
  | some embedding =>
    pure
      { tenantId := session.tenant, profileId := embedding.profileId
        profileVersion := embedding.profileVersion, dimension := embedding.dimension
        metric := embedding.metric, vector := vector
        sourceVersion := if embedding.dimension = 384 then some memory.version else none }

end Session

/-- `_embedding_table`. -/
def embeddingTable (dimension : Int) : Except PyError EmbeddingTable :=
  if dimension = 64 then pure .hash
  else if dimension = 384 then pure .semantic
  else throw (.valueError ("unsupported embedding dimension: " ++ toString dimension))

/-- `_embedding_table(memory.embedding.dimension if memory.embedding else 0)`. -/
def tableOf (memory : Memory R) : Except PyError EmbeddingTable :=
  embeddingTable ((memory.embedding.map fun e => e.dimension).getD 0)

variable {m : Type → Type} [Monad m] [MonadExceptOf PyError m]

/-- `except IntegrityError as exc: raise error from exc`. -/
def orRaise {α : Type} (x : m α) (error : PyError) : m α :=
  tryCatchThe PyError x fun e => throw (if e = .integrityError then error else e)

/-! ## Idempotency -/

namespace PostgresIdempotencyRepository

/-- What `claim` makes of the row it found. -/
def claimed (ownerId : String) (operationType : IdempotencyOperationType)
    (idempotencyKey fingerprint : String) :
    Option StoredIdempotencyOperation → Except PyError IdempotencyClaim
  | none => throw (.omp .idempotencyConflictError
      "idempotency operation claim could not be established")
  | some row => do
    raiseIf (decide (row.fingerprint ≠ fingerprint)) (.omp .idempotencyConflictError
      "idempotency_key was already used for another operation")
    raiseIf (decide (row.status ≠ .completed)) (.omp .idempotencyInProgressError
      "idempotency operation is still in progress")
    pure
      { ownerId := ownerId, operationType := operationType, idempotencyKey := idempotencyKey
        fingerprint := fingerprint, replay := true, memoryId := row.memoryId
        resultVersion := row.resultVersion, resultStatus := row.resultStatus }

/-- `claim`. -/
def claim (session : Session m R) (ownerId : String) (operationType : IdempotencyOperationType)
    (idempotencyKey fingerprint : String) : m IdempotencyClaim := do
  let key : OperationKey := (ownerId, operationType, idempotencyKey)
  let row ← session.execute (.selectOperation key)
  match row with
  | some row => ofExcept (claimed ownerId operationType idempotencyKey fingerprint (some row))
  | none =>
    let inserted : Bool ← session.execute (.insertOperation key fingerprint)
    if inserted then
      pure
        { ownerId := ownerId, operationType := operationType, idempotencyKey := idempotencyKey
          fingerprint := fingerprint, replay := false }
    else
      let row ← session.execute (.selectOperation key)
      ofExcept (claimed ownerId operationType idempotencyKey fingerprint row)

/-- `complete`. -/
def complete (session : Session m R) (claim : IdempotencyClaim) (memoryId : Option UUID)
    (resultVersion : Option Int) (resultStatus : String) : m Unit := do
  let rowcount : Nat ← session.execute (.completeOperation
    (claim.ownerId, claim.operationType, claim.idempotencyKey) claim.fingerprint memoryId
    resultVersion resultStatus)
  raiseIf (decide (rowcount ≠ 1)) (.omp .idempotencyConflictError
    "idempotency operation was not claimable")

end PostgresIdempotencyRepository

/-! ## Memories -/

namespace PostgresMemoryRepository

/-- `get`. -/
def get (session : Session m R) (ownerId : String) (memoryId : UUID) :
    m (Option (Memory R)) := do
  ofExcept (session.assertOwnerTenant ownerId)
  let row ← session.execute (.selectMemory ownerId memoryId)
  match row with
  | none => pure none
  | some row => some <$> ofExcept (session.memoryFromRow memoryId row)

/-- `get_version`. -/
def getVersion (session : Session m R) (ownerId : String) (memoryId : UUID) (version : Int) :
    m (Option (Memory R)) := do
  let current ← get session ownerId memoryId
  match current with
  | none => pure none
  | some current =>
    if current.version = version then pure (some current)
    else
      let row ← session.execute (.selectVersion ownerId memoryId version)
      match row with
      | none => pure none
      | some row =>
        let snapshot ← ofExcept (session.versionFromRow memoryId version row)
        some <$> ofExcept (current.rebuild snapshot)

/-- `find_by_idempotency_key`. A missing fingerprint reads as the empty text, which no
digest is. -/
def findByIdempotencyKey (session : Session m R) (ownerId idempotencyKey : String) :
    m (Option (IdempotencyLookup R)) := do
  ofExcept (session.assertOwnerTenant ownerId)
  let row ← session.execute (.selectMemoryByKey ownerId idempotencyKey)
  match row with
  | none => pure none
  | some (memoryId, row) =>
    let memory ← ofExcept (session.memoryFromRow memoryId row)
    pure (some { memory := memory, fingerprint := row.idempotencyFingerprint.getD "" })

/-- `create`. -/
def create (session : Session m R) (memory : Memory R) (fingerprint : String)
    (embedding : List R) : m (WriteMemoryResult R) := do
  ofExcept (session.assertOwnerTenant memory.ownerId)
  let row ← ofExcept (session.memoryValues memory (some fingerprint))
  let onConflict := if (truthyKey memory.idempotencyKey).isSome then OnConflict.ownerKey else .raises
  let inserted : Bool ← orRaise (session.execute (.insertMemory onConflict memory.id row))
    (.omp .idempotencyConflictError "memory idempotency constraint rejected the write")
  if inserted then
    let table ← ofExcept (tableOf memory)
    let values ← ofExcept (session.embeddingValues memory embedding)
    let _ ← session.execute (.insertEmbedding table memory.id values)
    let version ← ofExcept (session.versionValues (memory.snapshot "created"))
    let _ ← session.execute (.insertVersions [version])
    pure { memory := memory, created := true }
  else
    let prior ← findByIdempotencyKey session memory.ownerId (memory.idempotencyKey.getD "")
    match prior with
    | none => throw (.omp .idempotencyConflictError
        "idempotency_key was already used for another memory")
    | some prior =>
      raiseIf (decide (prior.fingerprint ≠ fingerprint)) (.omp .idempotencyConflictError
        "idempotency_key was already used for another memory")
      pure { memory := prior.memory, created := false }

/-- `update`. The embedding row of the new profile is updated, never inserted. -/
def update (session : Session m R) (memory : Memory R) (expectedVersion : Int)
    (versionSnapshot : MemoryVersion R) (embedding : List R) : m (Memory R) := do
  ofExcept (session.assertOwnerTenant memory.ownerId)
  let row ← ofExcept (session.memoryValues memory none)
  let rowcount : Nat ← session.execute (.updateMemory memory.id memory.ownerId expectedVersion
    row.toMemoryValues)
  if rowcount ≠ 1 then
    let current ← get session memory.ownerId memory.id
    raiseIf current.isNone (.notFound "memory was not found")
    throw (.omp .versionConflictError "memory version has changed")
  let version ← ofExcept (session.versionValues versionSnapshot)
  let _ ← session.execute (.insertVersions [version])
  let table ← ofExcept (tableOf memory)
  let values ← ofExcept (session.embeddingValues memory embedding)
  let _ ← session.execute (.updateEmbedding table memory.id values)
  pure memory

/-- `search_candidates`. -/
def searchCandidates (session : Session m R) (ownerId : String) (queryEmbedding : List R)
    (profile : EmbeddingProfile) (filters : SearchFilters R) (limit : Int) :
    m (List (MemorySearchCandidate R)) := do
  ofExcept (session.assertOwnerTenant ownerId)
  let table ← ofExcept (embeddingTable profile.dimension)
  let rows ← session.execute
    (.selectCandidates ownerId table queryEmbedding profile filters limit)
  ofExcept (List.mapM (fun row : UUID × MemoryRow R × R => do
    let memory ← session.memoryFromRow row.1 row.2.1
    pure { memory := memory, similarity := row.2.2, profile := profile }) rows)

/-- `forget`. -/
def forget (session : Session m R) (ownerId : String) (memoryId : UUID) : m Bool := do
  ofExcept (session.assertOwnerTenant ownerId)
  let deleted : Bool ← session.execute (.deleteMemory ownerId memoryId)
  if deleted then
    let _ ← session.execute (.insertTombstone ownerId memoryId)
    pure true
  else pure false

/-- The memories of some rows. -/
def memoriesFromRows (session : Session m R) (rows : List (UUID × MemoryRow R)) :
    Except PyError (List (Memory R)) :=
  rows.mapM fun row => session.memoryFromRow row.1 row.2

/-- `list_candidates`. -/
def listCandidates (session : Session m R) (ownerId : String) (space : Option String)
    (limit : Int) : m (List (Memory R)) := do
  ofExcept (session.assertOwnerTenant ownerId)
  let rows ← session.execute (.selectListing ownerId space limit)
  ofExcept (memoriesFromRows session rows)

/-- `add_relation`. -/
def addRelation (session : Session m R) (relation : Relation) : m Relation := do
  ofExcept (session.assertOwnerTenant relation.ownerId)
  let source ← get session relation.ownerId relation.sourceId
  let target ← get session relation.ownerId relation.targetId
  raiseIf (source.isNone || target.isNone)
    (.notFound "both related memories must exist for this owner")
  let _ ← orRaise (session.execute (.insertRelation false relation))
    (.omp .relationConflictError "relation already exists or violates ownership constraints")
  pure relation

/-- `list_relations`. -/
def listRelations (session : Session m R) (ownerId : String) (memoryId : UUID) :
    m (List Relation) := do
  ofExcept (session.assertOwnerTenant ownerId)
  session.execute (.selectRelations ownerId memoryId)

/-- `history`. -/
def history (session : Session m R) (ownerId : String) (memoryId : UUID) :
    m (List (MemoryVersion R)) := do
  ofExcept (session.assertOwnerTenant ownerId)
  let current ← get session ownerId memoryId
  raiseIf current.isNone (.notFound "memory was not found")
  let rows ← session.execute (.selectVersions ownerId memoryId)
  ofExcept (List.mapM (fun row : Int × VersionRow R =>
    session.versionFromRow memoryId row.1 row.2) rows)

/-! ### Key rotation -/

/-- The loop over the memories of `rewrap_envelopes`; plaintext rows are skipped. -/
def rewrapMemories (session : Session m R) (keyVersion : Int) : List (UUID × MemoryRow R) → m Nat
  | [] => pure 0
  | (memoryId, row) :: rest =>
    match row.payload with
    | .plain _ _ => rewrapMemories session keyVersion rest
    | .cipher _ _ => do
      let memory ← ofExcept (session.memoryFromRow memoryId row)
      let payload ← ofExcept
        (session.cloudFields memory.id memory.content memory.provenance keyVersion)
      let _ ← session.execute (.rewrapMemory memory.id payload)
      let migrated ← rewrapMemories session keyVersion rest
      pure (migrated + 1)

/-- The loop over the versions. -/
def rewrapVersions (session : Session m R) (keyVersion : Int) :
    List ((UUID × Int) × VersionRow R) → m Unit
  | [] => pure ()
  | (key, row) :: rest =>
    match row.payload with
    | .plain _ _ => rewrapVersions session keyVersion rest
    | .cipher _ _ => do
      let version ← ofExcept (session.versionFromRow key.1 key.2 row)
      let payload ← ofExcept
        (session.cloudFields version.memoryId version.content version.provenance keyVersion)
      let _ ← session.execute (.rewrapVersion version.memoryId version.version payload)
      rewrapVersions session keyVersion rest

/-- `rewrap_envelopes`. -/
def rewrapEnvelopes (session : Session m R) (keyVersion : Int) : m Nat := do
  raiseIf session.tenant.isNone (.tenantContextError "tenant context is required")
  raiseIf session.encryptor.isNone
    (.tenantContextError "Cloud PostgreSQL storage requires envelope encryption")
  raiseIf (decide (keyVersion < 1)) (.valueError "key version must be positive")
  let rows ← session.execute .selectTenantMemories
  let migrated ← rewrapMemories session keyVersion rows
  let versions ← session.execute .selectTenantVersions
  rewrapVersions session keyVersion versions
  pure migrated

/-! ### Re-embedding -/

/-- `list_for_reembedding`. -/
def listForReembedding (session : Session m R) (ownerId : String) (afterMemoryId : Option UUID)
    (limit : Int) : m (List (Memory R)) := do
  ofExcept (session.assertOwnerTenant ownerId)
  let rows ← session.execute (.selectForReembedding ownerId afterMemoryId limit)
  ofExcept (memoriesFromRows session rows)

/-- `upsert_embedding_profile`. -/
def upsertEmbeddingProfile (session : Session m R) (memoryId : UUID) (expectedVersion : Int)
    (profile : EmbeddingProfile) (embedding : List R) : m Bool := do
  raiseIf (decide (profile.dimension ≠ 384))
    (.valueError "re-embedding requires the semantic 384d profile")
  let current : Bool ← session.execute (.selectCurrentVersion memoryId expectedVersion)
  if current then
    let _ ← session.execute (.upsertSemantic memoryId expectedVersion profile embedding)
    pure true
  else pure false

/-- `semantic_coverage`. -/
def semanticCoverage (session : Session m R) (ownerId : String) (profile : EmbeddingProfile) :
    m (Nat × Nat) := do
  ofExcept (session.assertOwnerTenant ownerId)
  let eligible ← session.execute (.countEligible ownerId)
  let covered ← session.execute (.countCovered ownerId profile)
  pure (eligible, covered)

/-- `cutover_embedding_profile`. -/
def cutoverEmbeddingProfile (session : Session m R) (ownerId : String)
    (profile : EmbeddingProfile) : m Nat := do
  ofExcept (session.assertOwnerTenant ownerId)
  let (eligible, covered) ← semanticCoverage session ownerId profile
  raiseIf (decide (eligible ≠ covered)) (.runtimeError "semantic embedding coverage is incomplete")
  session.execute (.cutover ownerId profile)

end PostgresMemoryRepository

/-! ## Administration -/

namespace PostgresMemoryAdminRepository

open PostgresMemoryRepository

/-- `is_tombstoned`. -/
def isTombstoned (session : Session m R) (ownerId : String) (memoryId : UUID) : m Bool := do
  ofExcept (session.assertOwnerTenant ownerId)
  session.execute (.selectTombstone ownerId memoryId)

/-- The vector of an export record, if it is to carry one. -/
def exportVector (session : Session m R) (memoryId : UUID) (memory : Memory R) :
    Bool → m (Option (List R))
  | false => pure none
  | true =>
    match memory.embedding with
    | none => throw (.valueError "memory must have an embedding descriptor")
    | some embedding => do
      let table ← ofExcept (embeddingTable embedding.dimension)
      session.execute (.selectVector table memoryId)

/-- `export_memory`. -/
def exportMemory (session : Session m R) (ownerId : String) (memoryId : UUID)
    (includeEmbeddings : Bool) : m (Option (MemoryRecordDto R)) := do
  ofExcept (session.assertOwnerTenant ownerId)
  let row ← session.execute (.selectMemory ownerId memoryId)
  match row with
  | none => pure none
  | some row =>
    let memory ← ofExcept (session.memoryFromRow memoryId row)
    let vector ← exportVector session memoryId memory includeEmbeddings
    let history ← history session ownerId memoryId
    let relations ← listRelations session ownerId memoryId
    pure (some
      { memory := memory, history := history, relations := relations, embedding := vector
        writeFingerprint := row.idempotencyFingerprint })

/-- The loop of `export_memories`. -/
def exportEach (session : Session m R) (ownerId : String) (includeEmbeddings : Bool) :
    List UUID → m (List (MemoryRecordDto R))
  | [] => pure []
  | memoryId :: rest => do
    let record ← exportMemory session ownerId memoryId includeEmbeddings
    let more ← exportEach session ownerId includeEmbeddings rest
    pure (record.toList ++ more)

/-- `export_memories`. -/
def exportMemories (session : Session m R) (ownerId : String) (includeEmbeddings : Bool) :
    m (List (MemoryRecordDto R)) := do
  ofExcept (session.assertOwnerTenant ownerId)
  let ids ← session.execute (.selectMemoryIds ownerId)
  exportEach session ownerId includeEmbeddings ids

/-- The rows that go with a new memory of an import. -/
def importRows (session : Session m R) (record : MemoryRecordDto R) (embedding : List R) :
    m Unit := do
  let table ← ofExcept (tableOf record.memory)
  let values ← ofExcept (session.embeddingValues record.memory embedding)
  let _ ← session.execute (.insertEmbedding table record.memory.id values)
  let versions ← ofExcept (record.history.mapM session.versionValues)
  let _ ← session.execute (.insertVersions versions)

/-- One turn of the first import loop: was the record stored? -/
def importRecord (session : Session m R) (record : MemoryRecordDto R) : m Bool := do
  ofExcept (session.assertOwnerTenant record.memory.ownerId)
  let tombstoned ← isTombstoned session record.memory.ownerId record.memory.id
  raiseIf tombstoned
    (.omp .restoreBlockedByTombstoneError "memory restore is blocked by a tombstone")
  let row ← ofExcept (session.memoryValues record.memory record.writeFingerprint)
  let inserted : Bool ← orRaise (session.execute (.insertMemory .id record.memory.id row))
    (.omp .importConflictError "import conflicts with existing memory")
  if inserted then
    match record.embedding with
    | none => throw (.omp .importConflictError "import embedding is missing")
    | some embedding =>
      orRaise (importRows session record embedding)
        (.omp .importConflictError "import payload could not be stored")
      pure true
  else
    let current ← get session record.memory.ownerId record.memory.id
    raiseIf (!someAnd (fun current => Memory.pyEq current record.memory) current)
      (.omp .importConflictError "import conflicts with existing memory")
    pure false

/-- The first import loop. -/
def importRecords (session : Session m R) : List (MemoryRecordDto R) → m ImportResult
  | [] => pure { imported := 0, replayed := 0 }
  | record :: rest => do
    let stored ← importRecord session record
    let result ← importRecords session rest
    pure (if stored then { result with imported := result.imported + 1 }
      else { result with replayed := result.replayed + 1 })

/-- The second import loop; `seen` is `relation_keys`. -/
def importRelations (session : Session m R) : List RelationKey → List Relation → m Unit
  | _, [] => pure ()
  | seen, relation :: rest =>
    if relation.key ∈ seen then importRelations session seen rest
    else do
      let _ ← session.execute (.insertRelation true relation)
      importRelations session (relation.key :: seen) rest

/-- `import_memories`. -/
def importMemories (session : Session m R) (records : List (MemoryRecordDto R)) :
    m ImportResult := do
  let result ← importRecords session records
  importRelations session [] (records.flatMap MemoryRecordDto.relations)
  pure result

end PostgresMemoryAdminRepository

/-- `PostgresUnitOfWork`, inside its transaction. -/
def postgresUnitOfWork (session : Session m R) : UnitOfWork m R where
  memories :=
    { get := fun ownerId memoryId _ => PostgresMemoryRepository.get session ownerId memoryId
      getVersion := fun ownerId memoryId version _ =>
        PostgresMemoryRepository.getVersion session ownerId memoryId version
      findByIdempotencyKey := PostgresMemoryRepository.findByIdempotencyKey session
      create := PostgresMemoryRepository.create session
      update := PostgresMemoryRepository.update session
      searchCandidates := fun ownerId _ =>
        PostgresMemoryRepository.searchCandidates session ownerId
      forget := fun ownerId memoryId _ => PostgresMemoryRepository.forget session ownerId memoryId
      listCandidates := fun ownerId _ => PostgresMemoryRepository.listCandidates session ownerId
      addRelation := PostgresMemoryRepository.addRelation session
      listRelations := PostgresMemoryRepository.listRelations session
      history := PostgresMemoryRepository.history session }
  idempotency :=
    { claim := PostgresIdempotencyRepository.claim session
      complete := PostgresIdempotencyRepository.complete session }
  admin :=
    { exportMemories := PostgresMemoryAdminRepository.exportMemories session
      exportMemory := PostgresMemoryAdminRepository.exportMemory session
      importMemories := PostgresMemoryAdminRepository.importMemories session
      isTombstoned := fun ownerId memoryId _ =>
        PostgresMemoryAdminRepository.isTombstoned session ownerId memoryId }

end OpenMemory.Postgres
