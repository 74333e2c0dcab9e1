import OpenMemory.Application.Fakes

/-!
# Tables and statements (`adapters/postgres/schema.py`)

The tables that the repositories read, each keyed by its primary key, and the SQL statements
that they issue. A `Statement` is data, so that a repository method is a program over an
arbitrary way of executing statements; `Statement.run` is what one statement does to the
tables, atomically: unique keys raise `IntegrityError`, `ON CONFLICT DO NOTHING` reports that
nothing was inserted, and deleting a memory cascades.

Row-level security restricts every statement to the rows of the session's tenant; in
community mode these are the rows without a tenant. Unique keys see all rows.

Left out: `audit_events` and `deletion_tombstones`, which nothing reads, the widths of text
columns, and the JSON text inside a sealed provenance (a sealed payload is what the encryptor
returned for the value).
-/

namespace OpenMemory.Postgres

open Lib

variable {R : Type} [Python R]

/-! ## Rows -/

/-- `_provenance_to_json(...)`. -/
structure ProvenanceJson where
  sourceType : SourceType
  sourceId : Option String
  sourceModel : Option String
  sourceClient : Option String
  sourceConnectionId : Option String
  conversationId : Option String
  messageId : Option String
  capturedAt : String
  evidence : List String
  deriving DecidableEq

/-- `_consent_to_json(...)`. -/
structure ConsentJson where
  mode : ConsentMode
  consentId : String
  reasonCode : ConsentReason
  policyVersion : String
  grantedAt : String
  deriving DecidableEq

/-- Content and provenance: plaintext in Community rows, ciphertext in Cloud rows. -/
inductive Payload
  | plain (content : String) (provenance : ProvenanceJson)
  | cipher (content provenance : String)
  deriving DecidableEq

/-- The columns of `memories` that an update sets. -/
structure MemoryValues (R : Type) where
  tenantId : Option UUID
  space : Option String
  memoryType : MemoryType
  importance : R
  confidence : R
  state : MemoryState
  version : Int
  updatedAt : DateTime
  occurredAt : Option DateTime
  payload : Payload
  captureConsent : Option ConsentJson
  embeddingProfileId : String
  embeddingProfileVersion : String
  embeddingDimension : Int
  embeddingMetric : String
  deriving DecidableEq

/-- A row of `memories`, without its primary key. -/
structure MemoryRow (R : Type) extends MemoryValues R where
  ownerId : String
  createdAt : DateTime
  idempotencyKey : Option String
  idempotencyFingerprint : Option String
  deriving DecidableEq

/-- A row of `memory_versions`, without its key `(memory_id, version)`. -/
structure VersionRow (R : Type) where
  tenantId : Option UUID
  memoryType : MemoryType
  importance : R
  confidence : R
  state : MemoryState
  space : Option String
  occurredAt : Option DateTime
  payload : Payload
  captureConsent : Option ConsentJson
  changedAt : DateTime
  changeReason : String
  deriving DecidableEq

/-- `_embedding_values(...)`; `source_version` belongs to the semantic table only. -/
structure EmbeddingValues (R : Type) where
  tenantId : Option UUID
  profileId : String
  profileVersion : String
  dimension : Int
  metric : String
  vector : List R
  sourceVersion : Option Int
  deriving DecidableEq

/-- A row of `memory_embeddings`, without its primary key `memory_id`. -/
structure EmbeddingRow (R : Type) where
  tenantId : Option UUID
  profileId : String
  profileVersion : String
  dimension : Int
  metric : String
  vector : List R
  deriving DecidableEq

/-- A row of `memory_embeddings_semantic`, without its primary key. -/
structure SemanticRow (R : Type) where
  tenantId : Option UUID
  sourceVersion : Int
  dimension : Int
  metric : String
  vector : List R
  deriving DecidableEq

/-- The values as a row of `memory_embeddings`. -/
def EmbeddingValues.row (values : EmbeddingValues R) : EmbeddingRow R where
  tenantId := values.tenantId
  profileId := values.profileId
  profileVersion := values.profileVersion
  dimension := values.dimension
  metric := values.metric
  vector := values.vector

/-- The values as a row of `memory_embeddings_semantic`. -/
def EmbeddingValues.semanticRow (values : EmbeddingValues R) (sourceVersion : Int) :
    SemanticRow R where
  tenantId := values.tenantId
  sourceVersion := sourceVersion
  dimension := values.dimension
  metric := values.metric
  vector := values.vector

/-- The primary key of `memory_embeddings_semantic`: memory, profile id and version. -/
abbrev SemanticKey := UUID × String × String

/-- A row of `memory_relations`, with its relation. -/
structure RelationRow where
  tenantId : Option UUID
  relation : Relation
  deriving DecidableEq

/-- A row of `idempotency_operations`. -/
structure OperationRow extends StoredIdempotencyOperation where
  tenantId : Option UUID
  deriving DecidableEq

structure Database (R : Type) where
  memories : Dict UUID (MemoryRow R) := ∅
  versions : Dict (UUID × Int) (VersionRow R) := ∅
  embeddings : Dict UUID (EmbeddingRow R) := ∅
  semantic : Dict SemanticKey (SemanticRow R) := ∅
  relations : Dict RelationKey RelationRow := ∅
  operations : Dict OperationKey OperationRow := ∅
  tombstones : Dict (String × UUID) (Option UUID) := ∅

/-! ## Statements -/

/-- `memory_embeddings` or `memory_embeddings_semantic`. -/
inductive EmbeddingTable
  | hash | semantic
  deriving DecidableEq, Repr

/-- The length of the table's `vector` column. -/
def EmbeddingTable.width : EmbeddingTable → Nat
  | .hash => 64
  | .semantic => 384

/-- `ON CONFLICT (…) DO NOTHING`. -/
inductive OnConflict
  | raises | ownerKey | id
  deriving DecidableEq, Repr

/-- The statements of the repositories. -/
inductive Statement (R : Type)
  | selectMemory (ownerId : String) (memoryId : UUID)
  | selectMemoryByKey (ownerId idempotencyKey : String)
  | selectMemoryIds (ownerId : String)
  | insertMemory (onConflict : OnConflict) (memoryId : UUID) (row : MemoryRow R)
  | updateMemory (memoryId : UUID) (ownerId : String) (expectedVersion : Int)
      (values : MemoryValues R)
  | deleteMemory (ownerId : String) (memoryId : UUID)
  | selectListing (ownerId : String) (space : Option String) (limit : Int)
  | selectVersion (ownerId : String) (memoryId : UUID) (version : Int)
  | selectVersions (ownerId : String) (memoryId : UUID)
  | insertVersions (rows : List ((UUID × Int) × VersionRow R))
  | insertEmbedding (table : EmbeddingTable) (memoryId : UUID) (values : EmbeddingValues R)
  | updateEmbedding (table : EmbeddingTable) (memoryId : UUID) (values : EmbeddingValues R)
  | selectVector (table : EmbeddingTable) (memoryId : UUID)
  | selectCandidates (ownerId : String) (table : EmbeddingTable) (queryEmbedding : List R)
      (profile : EmbeddingProfile) (filters : SearchFilters R) (limit : Int)
  | insertTombstone (ownerId : String) (memoryId : UUID)
  | selectTombstone (ownerId : String) (memoryId : UUID)
  | insertRelation (doNothing : Bool) (relation : Relation)
  | selectRelations (ownerId : String) (memoryId : UUID)
  | selectOperation (key : OperationKey)
  | insertOperation (key : OperationKey) (fingerprint : String)
  | completeOperation (key : OperationKey) (fingerprint : String) (memoryId : Option UUID)
      (resultVersion : Option Int) (resultStatus : String)
  | selectForReembedding (ownerId : String) (afterMemoryId : Option UUID) (limit : Int)
  | selectCurrentVersion (memoryId : UUID) (version : Int)
  | upsertSemantic (memoryId : UUID) (expectedVersion : Int) (profile : EmbeddingProfile)
      (embedding : List R)
  | countEligible (ownerId : String)
  | countCovered (ownerId : String) (profile : EmbeddingProfile)
  | cutover (ownerId : String) (profile : EmbeddingProfile)
  | selectTenantMemories
  | rewrapMemory (memoryId : UUID) (payload : Payload)
  | selectTenantVersions
  | rewrapVersion (memoryId : UUID) (version : Int) (payload : Payload)

/-- What a statement returns: rows, `rowcount`, or whether `RETURNING` had a row. -/
def Statement.Result : Statement R → Type
  | .selectMemory _ _ => Option (MemoryRow R)
  | .selectMemoryByKey _ _ => Option (UUID × MemoryRow R)
  | .selectMemoryIds _ => List UUID
  | .insertMemory _ _ _ => Bool
  | .updateMemory _ _ _ _ => Nat
  | .deleteMemory _ _ => Bool
  | .selectListing _ _ _ => List (UUID × MemoryRow R)
  | .selectVersion _ _ _ => Option (VersionRow R)
  | .selectVersions _ _ => List (Int × VersionRow R)
  | .insertVersions _ => Unit
  | .insertEmbedding _ _ _ => Unit
  | .updateEmbedding _ _ _ => Unit
  | .selectVector _ _ => Option (List R)
  | .selectCandidates _ _ _ _ _ _ => List (UUID × MemoryRow R × R)
  | .insertTombstone _ _ => Unit
  | .selectTombstone _ _ => Bool
  | .insertRelation _ _ => Unit
  | .selectRelations _ _ => List Relation
  | .selectOperation _ => Option StoredIdempotencyOperation
  | .insertOperation _ _ => Bool
  | .completeOperation _ _ _ _ _ => Nat
  | .selectForReembedding _ _ _ => List (UUID × MemoryRow R)
  | .selectCurrentVersion _ _ => Bool
  | .upsertSemantic _ _ _ _ => Unit
  | .countEligible _ => Nat
  | .countCovered _ _ => Nat
  | .cutover _ _ => Nat
  | .selectTenantMemories => List (UUID × MemoryRow R)
  | .rewrapMemory _ _ => Unit
  | .selectTenantVersions => List ((UUID × Int) × VersionRow R)
  | .rewrapVersion _ _ _ => Unit

/-! ## What a statement does -/

namespace Database

/-- The row of a memory that the session sees. -/
def visible (db : Database R) (tenant : Option UUID) (memoryId : UUID) : Option (MemoryRow R) :=
  (db.memories.get? memoryId).filter fun row => decide (row.tenantId = tenant)

/-- The row of `owner_id`'s memory that the session sees. -/
def owned (db : Database R) (tenant : Option UUID) (ownerId : String) (memoryId : UUID) :
    Option (MemoryRow R) :=
  (db.visible tenant memoryId).filter fun row => decide (row.ownerId = ownerId)

/-- The rows of `owner_id`'s memories that the session sees. -/
def ownedRows (db : Database R) (tenant : Option UUID) (ownerId : String) :
    List (UUID × MemoryRow R) :=
  db.memories.items.filter fun e => decide (e.2.tenantId = tenant) && decide (e.2.ownerId = ownerId)

/-- `ORDER BY id ASC`. -/
def idLe (a b : UUID × MemoryRow R) : Bool := decide (a.1.int ≤ b.1.int)

/-- `uq_memories_owner_idempotency` is taken; null keys are distinct. -/
def keyTaken (db : Database R) (row : MemoryRow R) : Bool :=
  row.idempotencyKey.isSome && db.memories.values.any fun other =>
    decide (other.ownerId = row.ownerId) && decide (other.idempotencyKey = row.idempotencyKey)

/-- `INSERT INTO memories … RETURNING`. -/
def insertMemory (db : Database R) (onConflict : OnConflict) (memoryId : UUID)
    (row : MemoryRow R) : Except PyError (Bool × Database R) :=
  if decide (onConflict = .ownerKey) && db.keyTaken row then .ok (false, db)
  else if decide (onConflict = .id) && db.memories.contains memoryId then .ok (false, db)
  else if db.memories.contains memoryId || db.keyTaken row then .error .integrityError
  else .ok (true, { db with memories := db.memories.set memoryId row })

/-- A foreign key to the memory holds; under a tenant it must be the tenant's. -/
def references (db : Database R) (tenantId : Option UUID) (memoryId : UUID) : Bool :=
  someAnd (fun row : MemoryRow R => tenantId.isNone || decide (row.tenantId = tenantId))
    (db.memories.get? memoryId)

/-- `UPDATE memories … WHERE id = … AND owner_id = … AND version = …`, with its `rowcount`. -/
def updateMemory (db : Database R) (tenant : Option UUID) (memoryId : UUID) (ownerId : String)
    (expectedVersion : Int) (values : MemoryValues R) : Nat × Database R :=
  match (db.owned tenant ownerId memoryId).filter fun row =>
      decide (row.version = expectedVersion) with
  | none => (0, db)
  | some row =>
    let updated : MemoryRow R := { row with toMemoryValues := values }
    (1, { db with memories := db.memories.set memoryId updated })

/-- `DELETE FROM memories`, with its cascades. -/
def deleteMemory (db : Database R) (memoryId : UUID) : Database R :=
  { db with
    memories := db.memories.pop memoryId
    versions := db.versions.filter fun key _ => decide (key.1 ≠ memoryId)
    embeddings := db.embeddings.pop memoryId
    semantic := db.semantic.filter fun key _ => decide (key.1 ≠ memoryId)
    relations := db.relations.filter fun _ row =>
      decide (row.relation.sourceId ≠ memoryId) && decide (row.relation.targetId ≠ memoryId) }

/-- `INSERT INTO memory_versions`, all rows or none. -/
def insertVersions (db : Database R) :
    List ((UUID × Int) × VersionRow R) → Except PyError (Database R)
  | [] => .ok db
  | (key, row) :: rest =>
    if db.versions.contains key || !db.references row.tenantId key.1 then .error .integrityError
    else insertVersions { db with versions := db.versions.set key row } rest

/-- A `vector(n)` column takes `n` numbers. -/
def checkWidth (table : EmbeddingTable) (vector : List R) : Except PyError Unit :=
  raiseIf (decide (vector.length ≠ table.width)) (.valueError "unexpected vector dimensions")

/-- `INSERT INTO memory_embeddings` or `memory_embeddings_semantic`. -/
def insertEmbedding (db : Database R) (table : EmbeddingTable) (memoryId : UUID)
    (values : EmbeddingValues R) : Except PyError (Database R) := do
  checkWidth table values.vector
  raiseIf (!db.references values.tenantId memoryId) .integrityError
  match table with
  | .hash =>
    raiseIf (db.embeddings.contains memoryId) .integrityError
    pure { db with embeddings := db.embeddings.set memoryId values.row }
  | .semantic =>
    let key := (memoryId, values.profileId, values.profileVersion)
    raiseIf (db.semantic.contains key) .integrityError
    match values.sourceVersion with
    | none => throw .integrityError
    | some sourceVersion =>
      pure { db with semantic := db.semantic.set key (values.semanticRow sourceVersion) }

/-- The semantic rows of a memory that the session sees. -/
def semanticRows (db : Database R) (tenant : Option UUID) (memoryId : UUID) :
    List (SemanticKey × SemanticRow R) :=
  db.semantic.items.filter fun e => decide (e.1.1 = memoryId) && decide (e.2.tenantId = tenant)

/-- `UPDATE … SET … WHERE memory_id = …`: no row is no error, and several semantic rows of
one memory cannot all take the new key. -/
def updateEmbedding (db : Database R) (tenant : Option UUID) (table : EmbeddingTable)
    (memoryId : UUID) (values : EmbeddingValues R) : Except PyError (Database R) := do
  checkWidth table values.vector
  match table with
  | .hash =>
    match (db.embeddings.get? memoryId).filter fun row => decide (row.tenantId = tenant) with
    | none => pure db
    | some _ =>
      pure { db with embeddings := db.embeddings.set memoryId values.row }
  | .semantic =>
    match db.semanticRows tenant memoryId with
    | [] => pure db
    | [(key, row)] =>
      let newKey := (memoryId, values.profileId, values.profileVersion)
      raiseIf ((db.semantic.pop key).contains newKey) .integrityError
      let updated := values.semanticRow (values.sourceVersion.getD row.sourceVersion)
      pure { db with semantic := (db.semantic.pop key).set newKey updated }
    | _ => throw .integrityError

/-- `INSERT … ON CONFLICT (memory_id, profile_id, profile_version) DO UPDATE`. -/
def upsertSemantic (db : Database R) (tenant : Option UUID) (memoryId : UUID)
    (expectedVersion : Int) (profile : EmbeddingProfile) (embedding : List R) :
    Except PyError (Database R) := do
  checkWidth .semantic embedding
  raiseIf (!db.references tenant memoryId) .integrityError
  let row : SemanticRow R :=
    { tenantId := tenant, sourceVersion := expectedVersion, dimension := profile.dimension
      metric := profile.metric, vector := embedding }
  pure { db with semantic := db.semantic.set (memoryId, profile.id, profile.version) row }

/-- pgvector's `<=>`: one minus the cosine, which is kept within `[-1, 1]`. -/
def cosineDistance (left right : List R) : R :=
  let norm := fun v : List R => pySum (v.map fun x => Python.mul x x)
  let cosine := Python.div (pySum (List.zipWith Python.mul left right))
    (Python.sqrt (Python.mul (norm left) (norm right)))
  Python.sub (Python.ofInt 1) (Python.max (Python.ofInt (-1)) (Python.min (Python.ofInt 1) cosine))

/-- The vector under which a search by the profile finds the memory, if the join does. -/
def joined (db : Database R) (tenant : Option UUID) (table : EmbeddingTable)
    (profile : EmbeddingProfile) (memoryId : UUID) (row : MemoryRow R) : Option (List R) :=
  match table with
  | .hash =>
    ((db.embeddings.get? memoryId).filter fun e =>
      decide (e.tenantId = tenant) && decide (e.profileId = profile.id) &&
        decide (e.profileVersion = profile.version) &&
        decide (e.dimension = profile.dimension)).map EmbeddingRow.vector
  | .semantic =>
    ((db.semantic.get? (memoryId, profile.id, profile.version)).filter fun e =>
      decide (e.tenantId = tenant) && decide (e.sourceVersion = row.version) &&
        decide (e.dimension = profile.dimension)).map SemanticRow.vector

/-- The conditions of `search_candidates` on the row of a memory. -/
def passes (filters : SearchFilters R) (row : MemoryRow R) : Bool :=
  decide (row.state ∈ filters.states) &&
    !someAnd (fun types => decide (types ≠ ∅) && decide (row.memoryType ∉ types))
      filters.memoryTypes &&
    (filters.space.isNone || decide (row.space = filters.space)) &&
    !someAnd (fun least => Python.lt row.importance least) filters.minImportance &&
    !someAnd (fun least => Python.lt row.confidence least) filters.minConfidence

/-- `ORDER BY similarity DESC, id ASC`. -/
def similarityLe (a b : UUID × MemoryRow R × R) : Bool :=
  if Python.numEq a.2.2 b.2.2 then decide (a.1.int ≤ b.1.int) else Python.lt b.2.2 a.2.2

/-- The select of `search_candidates`. -/
def selectCandidates (db : Database R) (tenant : Option UUID) (ownerId : String)
    (table : EmbeddingTable) (queryEmbedding : List R) (profile : EmbeddingProfile)
    (filters : SearchFilters R) (limit : Int) : List (UUID × MemoryRow R × R) :=
  let found := (db.ownedRows tenant ownerId).filterMap fun e =>
    if passes filters e.2 then
      (db.joined tenant table profile e.1 e.2).map fun vector =>
        (e.1, e.2, Python.sub (Python.ofInt 1) (cosineDistance vector queryEmbedding))
    else none
  (found.insertionSort fun a b => similarityLe a b = true).take limit.toNat

/-- The foreign keys of an endpoint of a relation hold. -/
def relatable (db : Database R) (tenantId : Option UUID) (ownerId : String) (memoryId : UUID) :
    Bool :=
  someAnd (fun row : MemoryRow R => decide (row.ownerId = ownerId) &&
    (tenantId.isNone || decide (row.tenantId = tenantId))) (db.memories.get? memoryId)

/-- `ORDER BY created_at ASC, id ASC`. -/
def createdLe (a b : UUID × MemoryRow R) : Bool :=
  if a.2.createdAt.pyEq b.2.createdAt then decide (a.1.int ≤ b.1.int)
  else decide (a.2.createdAt.wall - a.2.createdAt.offset.getD 0
    < b.2.createdAt.wall - b.2.createdAt.offset.getD 0)

/-- Set the descriptor columns of the owner's 64-dimensional memories. -/
def cutover (db : Database R) (tenant : Option UUID) (ownerId : String)
    (profile : EmbeddingProfile) : Database R :=
  { db with memories := db.memories.mapValues fun _ row =>
      if decide (row.tenantId = tenant) && decide (row.ownerId = ownerId) &&
          decide (row.embeddingDimension = 64) then
        { row with
          embeddingProfileId := profile.id
          embeddingProfileVersion := profile.version
          embeddingDimension := profile.dimension
          embeddingMetric := profile.metric }
      else row }

/-- `INSERT INTO memory_tombstones … ON CONFLICT DO NOTHING`. -/
def insertTombstone (db : Database R) (tenant : Option UUID) (ownerId : String)
    (memoryId : UUID) : Database R :=
  if db.tombstones.contains (ownerId, memoryId) then db
  else { db with tombstones := db.tombstones.set (ownerId, memoryId) tenant }

/-- `INSERT INTO memory_relations`, with `ON CONFLICT DO NOTHING` on the edge or without. -/
def insertRelation (db : Database R) (tenant : Option UUID) (doNothing : Bool)
    (relation : Relation) : Except PyError (Database R) :=
  if db.relations.contains relation.key then
    if doNothing then .ok db else .error .integrityError
  else if !db.relatable tenant relation.ownerId relation.sourceId ||
      !db.relatable tenant relation.ownerId relation.targetId then .error .integrityError
  else .ok { db with relations := db.relations.set relation.key ⟨tenant, relation⟩ }

/-- `INSERT INTO idempotency_operations … ON CONFLICT DO NOTHING RETURNING`. -/
def insertOperation (db : Database R) (tenant : Option UUID) (key : OperationKey)
    (fingerprint : String) : Bool × Database R :=
  if db.operations.contains key then (false, db)
  else
    let claimed : OperationRow := { fingerprint := fingerprint, tenantId := tenant }
    (true, { db with operations := db.operations.set key claimed })

/-- `UPDATE idempotency_operations` of a claim in progress, with its `rowcount`. -/
def completeOperation (db : Database R) (tenant : Option UUID) (key : OperationKey)
    (fingerprint : String) (memoryId : Option UUID) (resultVersion : Option Int)
    (resultStatus : String) : Nat × Database R :=
  match (db.operations.get? key).filter fun row => decide (row.tenantId = tenant) &&
      decide (row.fingerprint = fingerprint) && decide (row.status = .inProgress) with
  | none => (0, db)
  | some row =>
    let completed : OperationRow :=
      { row with
        status := .completed
        memoryId := memoryId
        resultVersion := resultVersion
        resultStatus := some resultStatus }
    (1, { db with operations := db.operations.set key completed })

/-- `UPDATE memories SET content_ciphertext = …, provenance_ciphertext = … WHERE id = …`. -/
def rewrapMemory (db : Database R) (tenant : Option UUID) (memoryId : UUID) (payload : Payload) :
    Database R :=
  match db.visible tenant memoryId with
  | none => db
  | some row => { db with memories := db.memories.set memoryId { row with payload := payload } }

/-- `UPDATE memory_versions SET … WHERE memory_id = … AND version = …`. -/
def rewrapVersion (db : Database R) (tenant : Option UUID) (memoryId : UUID) (version : Int)
    (payload : Payload) : Database R :=
  match (db.versions.get? (memoryId, version)).filter fun row =>
      decide (row.tenantId = tenant) with
  | none => db
  | some row =>
    { db with versions := db.versions.set (memoryId, version) { row with payload := payload } }

/-- The owner's memories that are still 64-dimensional. -/
def eligible (db : Database R) (tenant : Option UUID) (ownerId : String) :
    List (UUID × MemoryRow R) :=
  (db.ownedRows tenant ownerId).filter fun e => decide (e.2.embeddingDimension = 64)

end Database

/-- One statement, executed by a session of the given tenant. -/
def Statement.run (tenant : Option UUID) :
    (q : Statement R) → Database R → Except PyError (q.Result × Database R)
  | .selectMemory ownerId memoryId, db => .ok (db.owned tenant ownerId memoryId, db)
  | .selectMemoryByKey ownerId idempotencyKey, db =>
    .ok ((db.ownedRows tenant ownerId).find? fun e =>
      decide (e.2.idempotencyKey = some idempotencyKey), db)
  | .selectMemoryIds ownerId, db =>
    .ok (((db.ownedRows tenant ownerId).insertionSort fun a b =>
      Database.idLe a b = true).map Prod.fst, db)
  | .insertMemory onConflict memoryId row, db => db.insertMemory onConflict memoryId row
  | .updateMemory memoryId ownerId expectedVersion values, db =>
    .ok (db.updateMemory tenant memoryId ownerId expectedVersion values)
  | .deleteMemory ownerId memoryId, db =>
    match db.owned tenant ownerId memoryId with
    | none => .ok (false, db)
    | some _ => .ok (true, db.deleteMemory memoryId)
  | .selectListing ownerId space limit, db =>
    .ok ((((db.ownedRows tenant ownerId).filter fun e => decide (e.2.state = .candidate) &&
      (space.isNone || decide (e.2.space = space))).insertionSort fun a b =>
        Database.createdLe a b = true).take limit.toNat, db)
  | .selectVersion ownerId memoryId version, db =>
    .ok (match db.owned tenant ownerId memoryId with
      | none => none
      | some _ => (db.versions.get? (memoryId, version)).filter fun row =>
          decide (row.tenantId = tenant), db)
  | .selectVersions ownerId memoryId, db =>
    .ok (match db.owned tenant ownerId memoryId with
      | none => []
      | some _ => ((db.versions.items.filter fun e => decide (e.1.1 = memoryId) &&
          decide (e.2.tenantId = tenant)).map fun e => (e.1.2, e.2)).insertionSort
            fun a b => a.1 ≤ b.1, db)
  | .insertVersions rows, db => (db.insertVersions rows).map fun db' => ((), db')
  | .insertEmbedding table memoryId values, db =>
    (db.insertEmbedding table memoryId values).map fun db' => ((), db')
  | .updateEmbedding table memoryId values, db =>
    (db.updateEmbedding tenant table memoryId values).map fun db' => ((), db')
  | .selectVector .hash memoryId, db =>
    .ok (((db.embeddings.get? memoryId).filter fun row =>
      decide (row.tenantId = tenant)).map EmbeddingRow.vector, db)
  | .selectVector .semantic memoryId, db =>
    .ok ((db.semanticRows tenant memoryId).head?.map fun e => e.2.vector, db)
  | .selectCandidates ownerId table queryEmbedding profile filters limit, db =>
    .ok (db.selectCandidates tenant ownerId table queryEmbedding profile filters limit, db)
  | .insertTombstone ownerId memoryId, db => .ok ((), db.insertTombstone tenant ownerId memoryId)
  | .selectTombstone ownerId memoryId, db =>
    .ok (decide (db.tombstones.get? (ownerId, memoryId) = some tenant), db)
  | .insertRelation doNothing relation, db =>
    (db.insertRelation tenant doNothing relation).map fun db' => ((), db')
  | .selectRelations ownerId memoryId, db =>
    .ok ((db.relations.values.filter fun row => decide (row.tenantId = tenant) &&
      decide (row.relation.ownerId = ownerId) && (decide (row.relation.sourceId = memoryId) ||
        decide (row.relation.targetId = memoryId))).map RelationRow.relation, db)
  | .selectOperation key, db =>
    .ok (((db.operations.get? key).filter fun row => decide (row.tenantId = tenant)).map
      OperationRow.toStoredIdempotencyOperation, db)
  | .insertOperation key fingerprint, db => .ok (db.insertOperation tenant key fingerprint)
  | .completeOperation key fingerprint memoryId resultVersion resultStatus, db =>
    .ok (db.completeOperation tenant key fingerprint memoryId resultVersion resultStatus)
  | .selectForReembedding ownerId afterMemoryId limit, db =>
    .ok ((((db.eligible tenant ownerId).filter fun e =>
      afterMemoryId.all fun cursor => decide (cursor.int < e.1.int)).insertionSort fun a b =>
        Database.idLe a b = true).take limit.toNat, db)
  | .selectCurrentVersion memoryId version, db =>
    .ok (someAnd (fun row : MemoryRow R => decide (row.version = version))
      (db.visible tenant memoryId), db)
  | .upsertSemantic memoryId expectedVersion profile embedding, db =>
    (db.upsertSemantic tenant memoryId expectedVersion profile embedding).map fun db' => ((), db')
  | .countEligible ownerId, db => .ok ((db.eligible tenant ownerId).length, db)
  | .countCovered ownerId profile, db =>
    .ok (((db.eligible tenant ownerId).filter fun e =>
      someAnd (fun row : SemanticRow R => decide (row.tenantId = tenant) &&
        decide (row.sourceVersion = e.2.version))
        (db.semantic.get? (e.1, profile.id, profile.version))).length, db)
  | .cutover ownerId profile, db =>
    .ok ((db.eligible tenant ownerId).length, db.cutover tenant ownerId profile)
  | .selectTenantMemories, db =>
    .ok (db.memories.items.filter fun e => decide (e.2.tenantId = tenant), db)
  | .rewrapMemory memoryId payload, db => .ok ((), db.rewrapMemory tenant memoryId payload)
  | .selectTenantVersions, db =>
    .ok (db.versions.items.filter fun e => decide (e.2.tenantId = tenant), db)
  | .rewrapVersion memoryId version payload, db =>
    .ok ((), db.rewrapVersion tenant memoryId version payload)

end OpenMemory.Postgres
