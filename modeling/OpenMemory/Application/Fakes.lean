import OpenMemory.Lib.Dict
import OpenMemory.Application.Services

/-!
# The in-memory store (`application/fakes.py`)

Seven maps and the repositories over them. A repository method is a transaction
on the whole store, written in state-passing form; `InMemoryUnitOfWork` rolls the
maps back when its body raises, which is what an error of the transaction monad
means (`Txn.attempt`).

The maps are insertion-ordered dictionaries: `find_by_idempotency_key` takes the
*first* memory with the key, and search and listing read the memories in order.
-/

namespace OpenMemory

open Lib

inductive OperationStatus
  | inProgress | completed
  deriving DecidableEq, Repr

structure StoredIdempotencyOperation where
  fingerprint : String
  status : OperationStatus := .inProgress
  memoryId : Option UUID := none
  resultVersion : Option Int := none
  resultStatus : Option String := none
  deriving DecidableEq

/-- `(owner_id, source_id, target_id, relation_type)`. -/
abbrev RelationKey := String × UUID × UUID × RelationType

/-- `(owner_id, operation_type, idempotency_key)`. -/
abbrev OperationKey := String × IdempotencyOperationType × String

structure InMemoryStore (R : Type) [Python R] where
  memories : Dict UUID (Memory R) := ∅
  vectors : Dict UUID (List R) := ∅
  fingerprints : Dict (String × String) String := ∅
  historyByMemory : Dict UUID (List (MemoryVersion R)) := ∅
  relations : Dict RelationKey Relation := ∅
  idempotencyOperations : Dict OperationKey StoredIdempotencyOperation := ∅
  tombstones : Finset (String × Option String × UUID) := ∅

/-- The key a relation is stored under. -/
def Relation.key (r : Relation) : RelationKey := (r.ownerId, r.sourceId, r.targetId, r.relationType)

variable {R : Type} [Python R]

/-- Transactions on the store. -/
abbrev StoreTxn (R : Type) [Python R] : Type → Type := Txn (InMemoryStore R) PyError

/-! ## Vectors -/

/-- `sum(values)`. -/
def pySum (values : List R) : R := values.foldl Python.add (Python.ofInt 0)

/-- `cosine_similarity`. -/
def cosineSimilarity (left right : List R) : R :=
  if left.length ≠ right.length then Python.ofInt (-1)
  else
    let leftNorm := Python.sqrt (pySum (left.map fun v => Python.mul v v))
    let rightNorm := Python.sqrt (pySum (right.map fun v => Python.mul v v))
    if Python.numEq leftNorm (Python.ofInt 0) || Python.numEq rightNorm (Python.ofInt 0) then
      Python.ofInt 0
    else Python.div (pySum (List.zipWith Python.mul left right)) (Python.mul leftNorm rightNorm)

/-- `(cosine_similarity(query, vector) + 1) / 2`. -/
def shiftedSimilarity (query vector : List R) : R :=
  Python.div (Python.add (cosineSimilarity query vector) (Python.ofInt 1)) (Python.ofInt 2)

/-! ## Idempotency -/

namespace InMemoryIdempotencyRepository

/-- `claim`. -/
def claim (ownerId : String) (operationType : IdempotencyOperationType)
    (idempotencyKey fingerprint : String) : StoreTxn R IdempotencyClaim := fun s =>
  let key := (ownerId, operationType, idempotencyKey)
  match s.idempotencyOperations.get? key with
  | none =>
    .ok ({ ownerId := ownerId, operationType := operationType, idempotencyKey := idempotencyKey,
           fingerprint := fingerprint, replay := false },
         { s with idempotencyOperations :=
            s.idempotencyOperations.set key { fingerprint := fingerprint } })
  | some prior =>
    if prior.fingerprint ≠ fingerprint then
      .error (.omp .idempotencyConflictError
        "idempotency_key was already used for another operation")
    else if prior.status ≠ .completed then
      .error (.omp .idempotencyInProgressError "idempotency operation is still in progress")
    else
      .ok ({ ownerId := ownerId, operationType := operationType, idempotencyKey := idempotencyKey,
             fingerprint := fingerprint, replay := true, memoryId := prior.memoryId,
             resultVersion := prior.resultVersion, resultStatus := prior.resultStatus }, s)

/-- `complete`. -/
def complete (claim : IdempotencyClaim) (memoryId : Option UUID) (resultVersion : Option Int)
    (resultStatus : String) : StoreTxn R Unit := fun s =>
  let key := (claim.ownerId, claim.operationType, claim.idempotencyKey)
  match s.idempotencyOperations.get? key with
  | none => .error (.omp .idempotencyConflictError "idempotency operation claim is missing")
  | some operation =>
    if operation.fingerprint ≠ claim.fingerprint then
      .error (.omp .idempotencyConflictError "idempotency operation claim is missing")
    else if operation.status = .completed then .ok ((), s)
    else
      let done : StoredIdempotencyOperation :=
        { operation with
          status := .completed
          memoryId := memoryId
          resultVersion := resultVersion
          resultStatus := some resultStatus }
      .ok ((), { s with idempotencyOperations := s.idempotencyOperations.set key done })

end InMemoryIdempotencyRepository

/-! ## Memories -/

namespace InMemoryStore

/-- Is the memory one that `(owner_id, tenant_id)` may address? -/
def addressable (ownerId : String) (tenantId : Option String) (m : Memory R) : Bool :=
  decide (m.ownerId = ownerId) && (tenantId.isNone || decide (m.tenantId = tenantId))

/-- The memory `get` returns. -/
def lookup (s : InMemoryStore R) (ownerId : String) (memoryId : UUID) (tenantId : Option String) :
    Option (Memory R) :=
  (s.memories.get? memoryId).filter (addressable ownerId tenantId)

/-- `next(value for value in memories.values() if …)`. -/
def firstWithKey (s : InMemoryStore R) (ownerId idempotencyKey : String) : Option (Memory R) :=
  s.memories.values.find? fun m =>
    decide (m.ownerId = ownerId) && decide (m.idempotencyKey = some idempotencyKey)

/-- The maps after `create` stored a new memory. -/
def putNew (s : InMemoryStore R) (memory : Memory R) (fingerprint : String) (embedding : List R) :
    InMemoryStore R :=
  { s with
    fingerprints := match memory.idempotencyKey with
      | none => s.fingerprints
      | some key => if key = "" then s.fingerprints
        else s.fingerprints.set (memory.ownerId, key) fingerprint
    memories := s.memories.set memory.id memory
    vectors := s.vectors.set memory.id embedding
    historyByMemory := s.historyByMemory.set memory.id [memory.snapshot "created"] }

/-- The maps after `update` stored a new version. -/
def putVersion (s : InMemoryStore R) (memory : Memory R) (history : List (MemoryVersion R))
    (versionSnapshot : MemoryVersion R) (embedding : List R) : InMemoryStore R :=
  { s with
    historyByMemory := s.historyByMemory.set memory.id (history ++ [versionSnapshot])
    memories := s.memories.set memory.id memory
    vectors := s.vectors.set memory.id embedding }

/-- The maps after `forget` removed a memory of `ownerId`. -/
def remove (s : InMemoryStore R) (ownerId : String) (memory : Memory R) (memoryId : UUID) :
    InMemoryStore R :=
  { s with
    memories := s.memories.pop memoryId
    vectors := s.vectors.pop memoryId
    historyByMemory := s.historyByMemory.pop memoryId
    fingerprints := match memory.idempotencyKey with
      | none => s.fingerprints
      | some key => if key = "" then s.fingerprints else s.fingerprints.pop (ownerId, key)
    relations := s.relations.filter fun _ r =>
      decide (r.sourceId ≠ memoryId) && decide (r.targetId ≠ memoryId)
    tombstones := insert (ownerId, memory.tenantId, memoryId) s.tombstones }

end InMemoryStore

namespace InMemoryMemoryRepository

open InMemoryStore

/-- `get`. -/
def get (ownerId : String) (memoryId : UUID) (tenantId : Option String) :
    StoreTxn R (Option (Memory R)) := fun s =>
  .ok (s.lookup ownerId memoryId tenantId, s)

/-- `get_version`. -/
def getVersion (ownerId : String) (memoryId : UUID) (version : Int) (tenantId : Option String) :
    StoreTxn R (Option (Memory R)) := fun s =>
  match s.lookup ownerId memoryId tenantId with
  | none => .ok (none, s)
  | some current =>
    if current.version = version then .ok (some current, s)
    else
      match ((s.historyByMemory.get? memoryId).getD []).find? fun v => decide (v.version = version)
      with
      | none => .ok (none, s)
      | some snapshot => (current.rebuild snapshot).map fun m => (some m, s)

/-- `find_by_idempotency_key`. -/
def findByIdempotencyKey (ownerId idempotencyKey : String) :
    StoreTxn R (Option (IdempotencyLookup R)) := fun s =>
  match s.fingerprints.get? (ownerId, idempotencyKey) with
  | none => .ok (none, s)
  | some fingerprint =>
    match s.firstWithKey ownerId idempotencyKey with
    | none => .error .stopIteration
    | some memory => .ok (some { memory := memory, fingerprint := fingerprint }, s)

/-- `create`. -/
def create (memory : Memory R) (fingerprint : String) (embedding : List R) :
    StoreTxn R (WriteMemoryResult R) := fun s =>
  match MemoryApplicationService.truthyKey memory.idempotencyKey with
  | none => .ok ({ memory := memory, created := true }, s.putNew memory fingerprint embedding)
  | some key =>
    match s.fingerprints.get? (memory.ownerId, key) with
    | none => .ok ({ memory := memory, created := true }, s.putNew memory fingerprint embedding)
    | some priorFingerprint =>
      if priorFingerprint ≠ fingerprint then
        .error (.omp .idempotencyConflictError
          "idempotency_key was already used for another memory")
      else
        match s.firstWithKey memory.ownerId key with
        | none => .error .stopIteration
        | some prior => .ok ({ memory := prior, created := false }, s)

/-- `update`. -/
def update (memory : Memory R) (expectedVersion : Int) (versionSnapshot : MemoryVersion R)
    (embedding : List R) : StoreTxn R (Memory R) := fun s =>
  match s.memories.get? memory.id with
  | none => .error (.notFound "memory was not found")
  | some current =>
    if current.ownerId ≠ memory.ownerId then .error (.notFound "memory was not found")
    else if current.version ≠ expectedVersion then
      .error (.omp .versionConflictError "memory version has changed")
    else
      match s.historyByMemory.get? memory.id with
      | none => .error .keyError
      | some history => .ok (memory, s.putVersion memory history versionSnapshot embedding)

/-- One turn of the `search_candidates` loop: `none` for `continue`. -/
def candidateOf (s : InMemoryStore R) (ownerId : String) (tenantId : Option String)
    (queryEmbedding : List R) (profile : EmbeddingProfile) (filters : SearchFilters R)
    (memoryId : UUID) (memory : Memory R) : Except PyError (Option (MemorySearchCandidate R)) :=
  if memory.ownerId ≠ ownerId then pure none
  else if tenantId.isSome && decide (memory.tenantId ≠ tenantId) then pure none
  else if memory.state ∉ filters.states then pure none
  else if someAnd (fun types => decide (types ≠ ∅) && decide (memory.memoryType ∉ types))
      filters.memoryTypes then pure none
  else if filters.space.isSome && decide (memory.space ≠ filters.space) then pure none
  else if someAnd (fun least => Python.lt memory.importance least) filters.minImportance then
    pure none
  else if someAnd (fun least => Python.lt memory.confidence least) filters.minConfidence then
    pure none
  else
    match memory.embedding with
    | none => pure none
    | some descriptor => do
      let wanted ← profile.descriptor
      if descriptor ≠ wanted then pure none
      else
        match s.vectors.get? memoryId with
        | none => throw .keyError
        | some vector =>
          pure (some { memory := memory, similarity := shiftedSimilarity queryEmbedding vector,
                       profile := profile })

/-- The `search_candidates` loop over the entries of `memories`. -/
def collectCandidates (s : InMemoryStore R) (ownerId : String) (tenantId : Option String)
    (queryEmbedding : List R) (profile : EmbeddingProfile) (filters : SearchFilters R) :
    List (UUID × Memory R) → Except PyError (List (MemorySearchCandidate R))
  | [] => pure []
  | entry :: rest => do
    let here ← candidateOf s ownerId tenantId queryEmbedding profile filters entry.1 entry.2
    let more ← collectCandidates s ownerId tenantId queryEmbedding profile filters rest
    pure (here.toList ++ more)

/-- `key=lambda candidate: (-candidate.similarity, str(candidate.memory.id))`. -/
def candidateLe (a b : MemorySearchCandidate R) : Bool :=
  if Python.numEq a.similarity b.similarity then decide (a.memory.id.str ≤ b.memory.id.str)
  else Python.lt b.similarity a.similarity

/-- `search_candidates`. -/
def searchCandidates (ownerId : String) (tenantId : Option String) (queryEmbedding : List R)
    (profile : EmbeddingProfile) (filters : SearchFilters R) (limit : Int) :
    StoreTxn R (List (MemorySearchCandidate R)) := fun s =>
  (collectCandidates s ownerId tenantId queryEmbedding profile filters s.memories.items).map
    fun candidates =>
      ((candidates.insertionSort fun a b => candidateLe a b = true).take limit.toNat, s)

/-- `forget`. -/
def forget (ownerId : String) (memoryId : UUID) (tenantId : Option String) : StoreTxn R Bool :=
  fun s =>
    match s.lookup ownerId memoryId tenantId with
    | none => .ok (false, s)
    | some memory => .ok (true, s.remove ownerId memory memoryId)

/-- `key=lambda item: (item.created_at, str(item.id))`; creation times are aware. -/
def createdLe (a b : Memory R) : Bool :=
  if a.createdAt.pyEq b.createdAt then decide (a.id.str ≤ b.id.str)
  else decide (a.createdAt.wall - a.createdAt.offset.getD 0
    < b.createdAt.wall - b.createdAt.offset.getD 0)

/-- `list_candidates`. -/
def listCandidates (ownerId : String) (tenantId : Option String) (space : Option String)
    (limit : Int) : StoreTxn R (List (Memory R)) := fun s =>
  let values := s.memories.values.filter fun m =>
    addressable ownerId tenantId m && decide (m.state = .candidate) &&
      (space.isNone || decide (m.space = space))
  .ok ((values.insertionSort fun a b => createdLe a b = true).take limit.toNat, s)

/-- `add_relation`. -/
def addRelation (relation : Relation) : StoreTxn R Relation := fun s =>
  match s.lookup relation.ownerId relation.sourceId none,
      s.lookup relation.ownerId relation.targetId none with
  | some _, some _ =>
    if s.relations.contains relation.key then
      .error (.omp .relationConflictError "relation already exists")
    else .ok (relation, { s with relations := s.relations.set relation.key relation })
  | _, _ => .error (.notFound "both related memories must exist for this owner")

/-- The relations of a memory, in order. -/
def relationsOf (s : InMemoryStore R) (ownerId : String) (memoryId : UUID) : List Relation :=
  s.relations.values.filter fun r =>
    decide (r.ownerId = ownerId) && (decide (r.sourceId = memoryId) || decide (r.targetId = memoryId))

/-- `list_relations`. -/
def listRelations (ownerId : String) (memoryId : UUID) : StoreTxn R (List Relation) := fun s =>
  .ok (relationsOf s ownerId memoryId, s)

/-- `history`. -/
def history (ownerId : String) (memoryId : UUID) : StoreTxn R (List (MemoryVersion R)) := fun s =>
  match s.lookup ownerId memoryId none with
  | none => .error (.notFound "memory was not found")
  | some _ => .ok ((s.historyByMemory.get? memoryId).getD [], s)

end InMemoryMemoryRepository

/-! ## Administration -/

namespace InMemoryMemoryAdminRepository

open InMemoryStore InMemoryMemoryRepository

/-- The export record of a live memory. -/
def recordOf (s : InMemoryStore R) (ownerId : String) (memoryId : UUID) (includeEmbeddings : Bool)
    (memory : Memory R) : MemoryRecordDto R where
  memory := memory
  history := (s.historyByMemory.get? memoryId).getD []
  relations := relationsOf s ownerId memoryId
  embedding := if includeEmbeddings then s.vectors.get? memoryId else none
  writeFingerprint := match memory.idempotencyKey with
    | none => none
    | some key => s.fingerprints.get? (ownerId, key)

/-- `export_memory`. -/
def exportMemory (ownerId : String) (memoryId : UUID) (includeEmbeddings : Bool) :
    StoreTxn R (Option (MemoryRecordDto R)) := fun s =>
  .ok ((s.lookup ownerId memoryId none).map (recordOf s ownerId memoryId includeEmbeddings), s)

/-- `export_memories`: the owner's memories in id order. -/
def exportMemories (ownerId : String) (includeEmbeddings : Bool) :
    StoreTxn R (List (MemoryRecordDto R)) := fun s =>
  let sorted := s.memories.values.insertionSort fun a b => a.id.str ≤ b.id.str
  .ok ((sorted.filter fun m => decide (m.ownerId = ownerId)).filterMap fun m =>
    (s.lookup ownerId m.id none).map (recordOf s ownerId m.id includeEmbeddings), s)

/-- The maps after one new record was stored. -/
def storeRecord (s : InMemoryStore R) (record : MemoryRecordDto R) (embedding : List R) :
    InMemoryStore R :=
  { s with
    memories := s.memories.set record.memory.id record.memory
    vectors := s.vectors.set record.memory.id embedding
    historyByMemory := s.historyByMemory.set record.memory.id record.history
    fingerprints := match record.memory.idempotencyKey with
      | none => s.fingerprints
      | some key =>
        s.fingerprints.set (record.memory.ownerId, key) (record.writeFingerprint.getD "") }

/-- One turn of the first import loop: was the record stored, and the store after it. -/
def importRecord (s : InMemoryStore R) (record : MemoryRecordDto R) :
    Except PyError (Bool × InMemoryStore R) :=
  if (record.memory.ownerId, record.memory.tenantId, record.memory.id) ∈ s.tombstones then
    .error (.omp .restoreBlockedByTombstoneError "memory restore is blocked by a tombstone")
  else
    match s.memories.get? record.memory.id with
    | some current =>
      if current.pyEq record.memory then .ok (false, s)
      else .error (.omp .importConflictError "import conflicts with existing memory")
    | none =>
      match record.embedding with
      | none => .error (.valueError "prepared import record must contain an embedding")
      | some embedding => .ok (true, storeRecord s record embedding)

/-- The first import loop. -/
def importRecords : List (MemoryRecordDto R) → InMemoryStore R →
    Except PyError (ImportResult × InMemoryStore R)
  | [], s => .ok ({ imported := 0, replayed := 0 }, s)
  | record :: rest, s => do
    let (stored, s₁) ← importRecord s record
    let (result, s₂) ← importRecords rest s₁
    pure (if stored then { result with imported := result.imported + 1 }
      else { result with replayed := result.replayed + 1 }, s₂)

/-- One turn of the second import loop: relations already present are kept. -/
def importRelation (s : InMemoryStore R) (relation : Relation) : InMemoryStore R :=
  if s.relations.contains relation.key then s
  else { s with relations := s.relations.set relation.key relation }

/-- `import_memories`. -/
def importMemories (records : List (MemoryRecordDto R)) : StoreTxn R ImportResult := fun s =>
  (importRecords records s).map fun done =>
    (done.1, (records.flatMap MemoryRecordDto.relations).foldl importRelation done.2)

/-- `is_tombstoned`. -/
def isTombstoned (ownerId : String) (memoryId : UUID) (tenantId : Option String) :
    StoreTxn R Bool := fun s =>
  .ok (decide ((ownerId, tenantId, memoryId) ∈ s.tombstones), s)

end InMemoryMemoryAdminRepository

/-- `InMemoryUnitOfWork`. -/
def inMemoryUnitOfWork (R : Type) [Python R] : UnitOfWork (StoreTxn R) R where
  memories :=
    { get := InMemoryMemoryRepository.get
      getVersion := InMemoryMemoryRepository.getVersion
      findByIdempotencyKey := InMemoryMemoryRepository.findByIdempotencyKey
      create := InMemoryMemoryRepository.create
      update := InMemoryMemoryRepository.update
      searchCandidates := InMemoryMemoryRepository.searchCandidates
      forget := InMemoryMemoryRepository.forget
      listCandidates := InMemoryMemoryRepository.listCandidates
      addRelation := InMemoryMemoryRepository.addRelation
      listRelations := InMemoryMemoryRepository.listRelations
      history := InMemoryMemoryRepository.history }
  idempotency :=
    { claim := InMemoryIdempotencyRepository.claim
      complete := InMemoryIdempotencyRepository.complete }
  admin :=
    { exportMemories := InMemoryMemoryAdminRepository.exportMemories
      exportMemory := InMemoryMemoryAdminRepository.exportMemory
      importMemories := InMemoryMemoryAdminRepository.importMemories
      isTombstoned := InMemoryMemoryAdminRepository.isTombstoned }

end OpenMemory
