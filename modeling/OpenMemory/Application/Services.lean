import OpenMemory.Application.Fingerprints

/-!
# Application services (`application/services.py`)

The use cases, written once against a `UnitOfWork` in any monad with exceptions.
A service body runs inside one unit of work: in the transaction monad an
exception leaves no state behind, which is the source's rollback.

What one call observes of the world is a `MemoryApplicationService` value: the
embedding provider it is configured with, the readings its clock gives (`clock n`
is the `n`-th reading of the call) and the `uuid4()` it draws.
-/

namespace OpenMemory

open MonadExcept (ofExcept)

/-- A configured service as one call sees it. -/
structure MemoryApplicationService (R : Type) where
  embeddingProvider : EmbeddingProvider R
  clock : Nat → DateTime
  uuid4 : UUID

namespace MemoryApplicationService

variable {R : Type} [Python R] {m : Type → Type} [Monad m] [MonadExceptOf PyError m]

/-! ## Shared checks -/

/-- The test `if key:` on a nullable text. -/
def truthyKey (key : Option String) : Option String := key.filter fun k => decide (k ≠ "")

/-- `_validate_scope`. -/
def validateScope (scopes : Finset String) (required : String) : m Unit :=
  raiseIf (decide (required ∉ scopes))
    (.omp .scopeDeniedError "connection scope does not permit this operation")

/-- `_validate_scope_value`. -/
def validateScopeValue (value fieldName : String) : m Unit :=
  raiseIf (isBlank value) (.validation (fieldName ++ " must be non-empty"))

/-- `raise ConnectionRevokedError` for a revoked connection. -/
def validateConnection (revoked : Bool) : m Unit :=
  raiseIf revoked (.omp .connectionRevokedError "connection is revoked")

/-- `_validate_mutation_scope`. -/
def validateMutationScope (tenantId ownerId : String) (revoked : Bool) : m Unit := do
  validateScopeValue tenantId "tenant_id"
  let _ ← ofExcept (validateOwnerId ownerId)
  validateConnection revoked

/-- `_validate_vector`; entries are numbers by type. -/
def validateVector (svc : MemoryApplicationService R) (vector : List R) : m Unit :=
  raiseIf (decide ((vector.length : Int) ≠ svc.embeddingProvider.profile.dimension))
    (.validation "embedding provider returned an unexpected dimension")

/-- Embed a text and check the vector. -/
def embedChecked (svc : MemoryApplicationService R) (text : String) (query : Bool) :
    m (List R) := do
  let vector ← ofExcept (svc.embeddingProvider.embed text query)
  svc.validateVector vector
  pure vector

/-- The `n`-th clock reading of the call, in UTC. -/
def now (svc : MemoryApplicationService R) (n : Nat) : m DateTime :=
  ofExcept (ensureAware (svc.clock n) "now")

/-! ## Write and capture -/

/-- The `create` arguments of a write. -/
def writeArgs (svc : MemoryApplicationService R) (command : WriteMemoryCommand R)
    (timestamp : DateTime) (descriptor : EmbeddingDescriptor) : Memory.CreateArgs R where
  memoryId := svc.uuid4
  ownerId := command.ownerId
  content := command.content
  memoryType := command.memoryType
  importance := command.importance
  confidence := command.confidence
  provenance := command.provenance
  space := command.space
  occurredAt := command.occurredAt
  embedding := some descriptor
  idempotencyKey := command.idempotencyKey
  now := timestamp
  tenantId := command.tenantId

/-- The part of `write` that runs when the key is new. -/
def writeNew (svc : MemoryApplicationService R) (uow : UnitOfWork m R)
    (command : WriteMemoryCommand R) (timestamp : DateTime) (fingerprint : String) :
    m (WriteMemoryResult R) := do
  let vector ← svc.embedChecked command.content false
  let descriptor ← ofExcept svc.embeddingProvider.profile.descriptor
  let memory ← ofExcept (Memory.create (svc.writeArgs command timestamp descriptor))
  uow.memories.create memory fingerprint vector

/-- `MemoryApplicationService.write`. -/
def write (svc : MemoryApplicationService R) (uow : UnitOfWork m R)
    (command : WriteMemoryCommand R) : m (WriteMemoryResult R) := do
  let _ ← ofExcept (validateOwnerId command.ownerId)
  let timestamp ← svc.now 0
  let fingerprint := fingerprintWriteCommand command
  match truthyKey command.idempotencyKey with
  | none => svc.writeNew uow command timestamp fingerprint
  | some key =>
    let prior ← uow.memories.findByIdempotencyKey command.ownerId key
    match prior with
    | none => svc.writeNew uow command timestamp fingerprint
    | some prior =>
      raiseIf (decide (prior.fingerprint ≠ fingerprint)) (.omp .idempotencyConflictError
        "idempotency_key was already used for another memory")
      pure { memory := prior.memory, created := false }

/-- The consent and policy checks of `capture`, before any storage access. -/
def validateCapture (command : CaptureMemoryCommand R) : m Unit := do
  validateScope command.scopes "memory:write"
  validateScopeValue command.tenantId "tenant_id"
  validateScopeValue command.connectionId "connection_id"
  let _ ← ofExcept (validateOwnerId command.ownerId)
  validateConnection command.connectionRevoked
  raiseIf (decide (command.capturePolicy = "disabled"))
    (.omp .captureDisabledError "capture is disabled for this connection")
  raiseIf (decide (command.capturePolicy ∉ ["manual", "assisted", "automatic"]))
    (.validation "invalid capture policy")
  raiseIf (decide (command.capturePolicy = "manual") &&
      decide (command.consent.reasonCode ∉
        [ConsentReason.userRequestedMemory, ConsentReason.userConfirmedInbox]))
    (.omp .consentRequiredError "manual capture requires an explicit user request")
  raiseIf (decide (command.capturePolicy = "automatic") &&
      decide (command.consent.mode ≠ .automatic))
    (.omp .consentRequiredError "automatic capture requires automatic consent")
  raiseIf (truthyKey command.provenance.sourceClient).isNone
    (.validation "M1 capture requires source_client and source_type")

/-- `MemoryApplicationService.capture`. -/
def capture (svc : MemoryApplicationService R) (uow : UnitOfWork m R)
    (command : CaptureMemoryCommand R) : m (WriteMemoryResult R) := do
  validateCapture command
  let fingerprint := fingerprintCaptureCommand command
  let prior ← uow.memories.findByIdempotencyKey command.ownerId command.idempotencyKey
  match prior with
  | some prior =>
    raiseIf (decide (prior.fingerprint ≠ fingerprint)) (.omp .idempotencyConflictError
      "idempotency_key was already used for another capture")
    pure { memory := prior.memory, created := false }
  | none =>
    let vector ← svc.embedChecked command.content false
    let descriptor ← ofExcept svc.embeddingProvider.profile.descriptor
    let timestamp ← svc.now 0
    let memory ← ofExcept (Memory.create
      { memoryId := svc.uuid4, ownerId := command.ownerId, tenantId := some command.tenantId,
        content := command.content, memoryType := command.memoryType,
        importance := command.importance, confidence := command.confidence,
        provenance := command.provenance, captureConsent := some command.consent,
        space := command.space, embedding := some descriptor,
        idempotencyKey := some command.idempotencyKey, initialState := .candidate,
        now := timestamp })
    uow.memories.create memory fingerprint vector

/-! ## Inbox -/

/-- `MemoryApplicationService.list_inbox`. -/
def listInbox (uow : UnitOfWork m R) (command : ListInboxCommand) : m (InboxResult R) := do
  validateScope command.scopes "memory:read"
  validateScopeValue command.tenantId "tenant_id"
  let _ ← ofExcept (validateOwnerId command.ownerId)
  validateConnection command.connectionRevoked
  raiseIf (!decide (1 ≤ command.limit ∧ command.limit ≤ 100))
    (.validation "limit must be between 1 and 100")
  let candidates ← uow.memories.listCandidates command.ownerId (some command.tenantId)
    command.space (command.limit + 1)
  pure
    { candidates := candidates.take command.limit.toNat
      nextCursor := if command.limit < candidates.length then some (toString command.limit)
        else none }

/-- What a replayed confirm, pin or update returns: the recorded version. -/
def replayVersion (uow : UnitOfWork m R) (ownerId : String) (tenantId : Option String)
    (claim : IdempotencyClaim) (memoryId : UUID) (expectedVersion : Int) : m (Memory R) := do
  let replay ← uow.memories.getVersion ownerId (claim.memoryId.getD memoryId)
    ((claim.resultVersion.filter fun v => decide (v ≠ 0)).getD expectedVersion) tenantId
  match replay with
  | none => throw (.notFound "memory was not found")
  | some memory => pure memory

/-- The live memory a mutation addresses, at the version it expects. -/
def currentAt (uow : UnitOfWork m R) (ownerId : String) (tenantId : Option String)
    (memoryId : UUID) (expectedVersion : Int) (message : Memory R → String) : m (Memory R) := do
  let current ← uow.memories.get ownerId memoryId tenantId
  match current with
  | none => throw (.notFound "memory was not found")
  | some current =>
    raiseIf (decide (current.version ≠ expectedVersion))
      (.omp .versionConflictError (message current))
    pure current

/-- `MemoryApplicationService.confirm_candidate`. -/
def confirmCandidate (svc : MemoryApplicationService R) (uow : UnitOfWork m R)
    (command : ConfirmCandidateCommand) : m (Memory R) := do
  validateScope command.scopes "memory:write"
  validateMutationScope command.tenantId command.ownerId command.connectionRevoked
  let claim ← uow.idempotency.claim command.ownerId .confirm command.idempotencyKey
    (fingerprintConfirmCommand R command)
  if claim.replay then
    replayVersion uow command.ownerId (some command.tenantId) claim command.memoryId
      command.expectedVersion
  else
    let current ← currentAt uow command.ownerId (some command.tenantId) command.memoryId
      command.expectedVersion fun _ => "memory version has changed"
    raiseIf (decide (current.state ∉ [MemoryState.candidate, MemoryState.stale]))
      (.omp .invalidStateTransitionError "only a candidate or stale memory can be confirmed")
    let timestamp ← svc.now 0
    let descriptor ← ofExcept svc.embeddingProvider.profile.descriptor
    let updated ← ofExcept (current.evolve
      { now := timestamp, state := some .confirmed, changeReason := command.actorReason,
        embedding := some (some descriptor), content := command.content,
        memoryType := command.memoryType, space := command.space.map some })
    let vector ← svc.embedChecked updated.content false
    let persisted ← uow.memories.update updated command.expectedVersion
      (updated.snapshot command.actorReason) vector
    uow.idempotency.complete claim (some persisted.id) (some persisted.version) "confirmed"
    pure persisted

/-- `MemoryApplicationService.pin`. A memory already in the target state is returned
as it is, and the key is still completed. -/
def pin (svc : MemoryApplicationService R) (uow : UnitOfWork m R) (command : PinMemoryCommand) :
    m (Memory R) := do
  validateScope command.scopes "memory:write"
  validateMutationScope command.tenantId command.ownerId command.connectionRevoked
  let targetState := if command.pinned then MemoryState.pinned else MemoryState.confirmed
  let claim ← uow.idempotency.claim command.ownerId .pin command.idempotencyKey
    (fingerprintPinCommand R command)
  if claim.replay then
    replayVersion uow command.ownerId (some command.tenantId) claim command.memoryId
      command.expectedVersion
  else
    let current ← currentAt uow command.ownerId (some command.tenantId) command.memoryId
      command.expectedVersion fun _ => "memory version has changed"
    raiseIf (decide (current.state ∉ [MemoryState.confirmed, MemoryState.pinned]))
      (.omp .invalidStateTransitionError "only confirmed memories can be pinned")
    if current.state = targetState then
      uow.idempotency.complete claim (some current.id) (some current.version) targetState.value
      pure current
    else
      let timestamp ← svc.now 0
      let updated ← ofExcept (current.evolve
        { now := timestamp, state := some targetState,
          changeReason := if command.pinned then "pinned" else "unpinned" })
      let vector ← svc.embedChecked updated.content false
      let persisted ← uow.memories.update updated current.version
        (updated.snapshot updated.state.value) vector
      uow.idempotency.complete claim (some persisted.id) (some persisted.version)
        targetState.value
      pure persisted

/-- `MemoryApplicationService.discard_candidate`. -/
def discardCandidate (uow : UnitOfWork m R) (command : DiscardCandidateCommand) :
    m ForgetMemoryResult := do
  validateScope command.scopes "memory:delete"
  validateMutationScope command.tenantId command.ownerId command.connectionRevoked
  let claim ← uow.idempotency.claim command.ownerId .discard command.idempotencyKey
    (fingerprintDiscardCommand R command)
  if claim.replay then
    pure { memoryId := command.memoryId
           forgotten := decide (claim.resultStatus = some "forgotten") }
  else
    let current ← currentAt uow command.ownerId (some command.tenantId) command.memoryId
      command.expectedVersion fun _ => "memory version has changed"
    raiseIf (decide (current.state ≠ .candidate))
      (.omp .invalidStateTransitionError "only a candidate can be discarded")
    let forgotten ← uow.memories.forget command.ownerId command.memoryId (some command.tenantId)
    uow.idempotency.complete claim (some command.memoryId) none
      (if forgotten then "forgotten" else "already_absent")
    pure { memoryId := command.memoryId, forgotten := forgotten }

/-! ## Ranking -/

/-- The similarity of a candidate, clamped to the unit interval. -/
def clampedSimilarity (candidate : MemorySearchCandidate R) : R :=
  Python.max (Python.ofInt 0) (Python.min (Python.ofInt 1) candidate.similarity)

/-- `0.75 * similarity + 0.15 * importance + 0.10 * confidence`. -/
def rawScore (candidate : MemorySearchCandidate R) : R :=
  Python.add
    (Python.add (Python.mul (Python.decimal 75 2) (clampedSimilarity candidate))
      (Python.mul (Python.decimal 15 2) candidate.memory.importance))
    (Python.mul (Python.decimal 10 2) candidate.memory.confidence)

/-- The ranked item of a candidate. -/
def rankedItem (profile : EmbeddingProfile) (reason : String)
    (candidate : MemorySearchCandidate R) : SearchMemoryItem R where
  memory := candidate.memory
  score := Python.round6 (rawScore candidate)
  similarity := Python.round6 (clampedSimilarity candidate)
  profileId := profile.id
  profileVersion := profile.version
  reasonRetrieved := reason

/-- `key=lambda item: (-item.score, -item.similarity, str(item.memory.id))`, as the
order of two items: tuples compare at the first component that differs. -/
def rankLe (a b : SearchMemoryItem R) : Bool :=
  if Python.numEq a.score b.score then
    if Python.numEq a.similarity b.similarity then decide (a.memory.id.str ≤ b.memory.id.str)
    else Python.lt b.similarity a.similarity
  else Python.lt b.score a.score

/-- `ranked.sort(…)`, then the first `limit` items. -/
def topRanked (items : List (SearchMemoryItem R)) (limit : Int) : List (SearchMemoryItem R) :=
  (items.insertionSort fun a b => rankLe a b = true).take limit.toNat

/-! ## Recall -/

/-- `requested_spaces`: the included spaces, or the context space alone. -/
def requestedSpaces (command : RecallMemoryCommand R) : List (Option String) :=
  let requested := if command.includeSpaces = [] then [command.contextSpace]
    else command.includeSpaces.map some
  if requested.any Option.isNone then
    let named := requested.filter Option.isSome
    if named = [] then [none] else named
  else requested

/-- The ranking loop of `recall`: ids already seen and mental notes that were not
asked for are skipped, then the threshold applies. -/
def rankRecall (profile : EmbeddingProfile) (command : RecallMemoryCommand R) :
    List UUID → List (MemorySearchCandidate R) → List (SearchMemoryItem R)
  | _, [] => []
  | seen, candidate :: rest =>
    if candidate.memory.id ∈ seen ∨
        (candidate.memory.memoryType = .mentalNote ∧ command.allowMentalNotes = false) then
      rankRecall profile command seen rest
    else if Python.lt (clampedSimilarity candidate) command.threshold then
      rankRecall profile command (candidate.memory.id :: seen) rest
    else
      rankedItem profile
          (if candidate.memory.space ≠ command.contextSpace then
            "explicit_cross_space_semantic_match" else "same_space_semantic_match") candidate
        :: rankRecall profile command (candidate.memory.id :: seen) rest

/-- The candidate queries of `recall`, one per requested space. -/
def recallCandidates (svc : MemoryApplicationService R) (uow : UnitOfWork m R)
    (command : RecallMemoryCommand R) (queryVector : List R) :
    List (Option String) → m (List (MemorySearchCandidate R))
  | [] => pure []
  | space :: rest => do
    let here ← uow.memories.searchCandidates command.ownerId (some command.tenantId) queryVector
      svc.embeddingProvider.profile
      { states := command.states, memoryTypes := command.memoryTypes, space := space }
      command.candidateLimit
    let more ← recallCandidates svc uow command queryVector rest
    pure (here ++ more)

/-- Everything `recall` checks before it embeds the query. -/
def validateRecall (command : RecallMemoryCommand R) : m Unit := do
  validateScope command.scopes "memory:read"
  validateScopeValue command.tenantId "tenant_id"
  let _ ← ofExcept (validateOwnerId command.ownerId)
  validateConnection command.connectionRevoked
  raiseIf (isBlank command.query) (.validation "query must be non-empty")
  raiseIf (!decide (1 ≤ command.limit ∧ command.limit ≤ 100) ||
      !decide (1 ≤ command.candidateLimit ∧ command.candidateLimit ≤ 500))
    (.validation "invalid recall limits")
  raiseIf (!Python.inUnit command.threshold) (.validation "threshold must be between 0 and 1")
  raiseIf ((requestedSpaces command).any fun space =>
      decide (space ≠ command.contextSpace) &&
        !command.spacePolicy.allows space command.contextSpace)
    (.omp .spaceForbiddenError "requested space is not allowed by connection policy")

/-- `MemoryApplicationService.recall`. -/
def «recall» (svc : MemoryApplicationService R) (uow : UnitOfWork m R)
    (command : RecallMemoryCommand R) : m (RecallResult R) := do
  validateRecall command
  let queryVector ← svc.embedChecked command.query true
  let candidates ← svc.recallCandidates uow command queryVector (requestedSpaces command)
  let profile := svc.embeddingProvider.profile
  let items := topRanked (rankRecall profile command [] candidates) command.limit
  pure
    { items := items, count := items.length, profileId := profile.id
      profileVersion := profile.version }

/-! ## Search -/

/-- The ranking loop of `search`. -/
def rankSearch (profile : EmbeddingProfile) (threshold : R) :
    List (MemorySearchCandidate R) → Except PyError (List (SearchMemoryItem R))
  | [] => pure []
  | candidate :: rest => do
    raiseIf (decide (candidate.profile ≠ profile)) (.omp .embeddingProfileMismatchError
      "candidate uses an incompatible embedding profile")
    let more ← rankSearch profile threshold rest
    if Python.lt (clampedSimilarity candidate) threshold then pure more
    else
      pure (rankedItem profile
        ("semantic similarity " ++ Python.fixed2 (clampedSimilarity candidate) ++ "; importance " ++
          Python.fixed2 candidate.memory.importance ++ "; confidence " ++
          Python.fixed2 candidate.memory.confidence) candidate :: more)

/-- v0's `active` filter reads every M1 recall-eligible state. -/
def searchStates (states : Finset MemoryState) : Finset MemoryState :=
  if .active ∈ states then states ∪ {.confirmed, .pinned} else states

/-- `MemoryApplicationService.search`. -/
def search (svc : MemoryApplicationService R) (uow : UnitOfWork m R)
    (command : SearchMemoryCommand R) : m (SearchMemoryResult R) := do
  let _ ← ofExcept (validateOwnerId command.ownerId)
  raiseIf (isBlank command.query) (.validation "query must be non-empty")
  raiseIf (!decide (1 ≤ command.limit ∧ command.limit ≤ 100))
    (.validation "limit must be between 1 and 100")
  raiseIf (!decide (1 ≤ command.candidateLimit ∧ command.candidateLimit ≤ 500))
    (.validation "candidate_limit must be between 1 and 500")
  raiseIf (!Python.inUnit command.threshold) (.validation "threshold must be between 0 and 1")
  let queryVector ← svc.embedChecked command.query true
  let profile := svc.embeddingProvider.profile
  let candidates ← uow.memories.searchCandidates command.ownerId none queryVector profile
    { command.filters with states := searchStates command.filters.states } command.candidateLimit
  let ranked ← ofExcept (rankSearch profile command.threshold candidates)
  pure
    { items := topRanked ranked command.limit, profileId := profile.id
      profileVersion := profile.version }

/-! ## Update, forget, relate -/

/-- The relation an update asks for, with its target. -/
def requestedRelation (command : UpdateMemoryCommand R) : Option (RelationType × UUID) :=
  match command.supersedesMemoryId, command.contradictsMemoryId with
  | some id, _ => some (.supersedes, id)
  | none, some id => some (.contradicts, id)
  | none, none => none

/-- The target of the requested relation must be another live memory of the owner. -/
def checkRelated (uow : UnitOfWork m R) (ownerId : String) (current : Memory R) :
    Option (RelationType × UUID) → m Unit
  | none => pure ()
  | some (_, relatedId) => do
    raiseIf (decide (relatedId = current.id)) (.validation "a memory cannot relate to itself")
    let related ← uow.memories.get ownerId relatedId none
    raiseIf related.isNone (.notFound "related memory was not found")

/-- The state an update asks for: a relation decides it, else the patch. -/
def requestedState (command : UpdateMemoryCommand R) : Option MemoryState :=
  match requestedRelation command with
  | some (.supersedes, _) => some .superseded
  | some _ => some .contradicted
  | none => command.state

/-- The `evolve` arguments of an update. -/
def updateArgs (command : UpdateMemoryCommand R) (timestamp : DateTime)
    (descriptor : EmbeddingDescriptor) : Memory.EvolveArgs R where
  now := timestamp
  content := command.content
  memoryType := command.memoryType
  importance := command.importance
  confidence := command.confidence
  state := requestedState command
  occurredAt := command.occurredAt.map some
  space := command.space.map some
  provenance := command.provenance
  embedding := some (some descriptor)
  changeReason := command.changeReason
  relatedMemoryId := (requestedRelation command).map Prod.snd

/-- Store the relation an update asked for. -/
def storeRelation (svc : MemoryApplicationService R) (uow : UnitOfWork m R) (ownerId : String)
    (sourceId : UUID) : Option (RelationType × UUID) → m Unit
  | none => pure ()
  | some (relationType, targetId) => do
    let createdAt ← svc.now 1
    let relation ← ofExcept (Relation.make
      { sourceId := sourceId, targetId := targetId, relationType := relationType,
        ownerId := ownerId, createdAt := createdAt })
    let _ ← uow.memories.addRelation relation

/-- The mutation of `update`, once the key is claimed or absent. -/
def updateBody (svc : MemoryApplicationService R) (uow : UnitOfWork m R)
    (command : UpdateMemoryCommand R) : m (Memory R) := do
  let current ← currentAt uow command.ownerId none command.memoryId command.expectedVersion
    fun current => "expected version " ++ toString command.expectedVersion ++
      ", current version " ++ toString current.version
  let timestamp ← svc.now 0
  raiseIf (command.supersedesMemoryId.isSome && command.contradictsMemoryId.isSome)
    (.validation "an update cannot supersede and contradict two memories")
  checkRelated uow command.ownerId current (requestedRelation command)
  let descriptor ← ofExcept svc.embeddingProvider.profile.descriptor
  let updated ← ofExcept (current.evolve (updateArgs command timestamp descriptor))
  let vector ← svc.embedChecked
    (if updated.content ≠ current.content then updated.content else current.content) false
  let persisted ← uow.memories.update updated command.expectedVersion
    (updated.snapshot command.changeReason) vector
  svc.storeRelation uow command.ownerId persisted.id (requestedRelation command)
  pure persisted

/-- `MemoryApplicationService.update`. -/
def update (svc : MemoryApplicationService R) (uow : UnitOfWork m R)
    (command : UpdateMemoryCommand R) : m (Memory R) := do
  let _ ← ofExcept (validateOwnerId command.ownerId)
  match truthyKey command.idempotencyKey with
  | none => svc.updateBody uow command
  | some key =>
    let claim ← uow.idempotency.claim command.ownerId .update key
      (fingerprintUpdateCommand command)
    if claim.replay then
      replayVersion uow command.ownerId none claim command.memoryId command.expectedVersion
    else
      let persisted ← svc.updateBody uow command
      uow.idempotency.complete claim (some persisted.id) (some persisted.version) "updated"
      pure persisted

/-- `MemoryApplicationService.forget`. -/
def forget (uow : UnitOfWork m R) (command : ForgetMemoryCommand) : m ForgetMemoryResult := do
  let _ ← ofExcept (validateOwnerId command.ownerId)
  match truthyKey command.idempotencyKey with
  | none =>
    let forgotten ← uow.memories.forget command.ownerId command.memoryId command.tenantId
    pure { memoryId := command.memoryId, forgotten := forgotten }
  | some key =>
    let claim ← uow.idempotency.claim command.ownerId .forget key
      (fingerprintForgetCommand R command)
    if claim.replay then pure { memoryId := command.memoryId, forgotten := false }
    else
      let forgotten ← uow.memories.forget command.ownerId command.memoryId command.tenantId
      uow.idempotency.complete claim (some command.memoryId) none
        (if forgotten then "forgotten" else "already_absent")
      pure { memoryId := command.memoryId, forgotten := forgotten }

/-- `MemoryApplicationService.relate`. -/
def relate (svc : MemoryApplicationService R) (uow : UnitOfWork m R)
    (command : RelateMemoriesCommand) : m Relation := do
  let _ ← ofExcept (validateOwnerId command.ownerId)
  match RelationType.ofValue command.relationType with
  | none => throw (.validation "unknown relation type")
  | some relationType =>
    raiseIf (decide (command.sourceMemoryId = command.targetMemoryId))
      (.validation "a memory cannot relate to itself")
    let source ← uow.memories.get command.ownerId command.sourceMemoryId none
    let target ← uow.memories.get command.ownerId command.targetMemoryId none
    match source, target with
    | some source, some target =>
      let createdAt ← svc.now 0
      let relation ← ofExcept (Relation.make
        { sourceId := source.id, targetId := target.id, relationType := relationType,
          ownerId := command.ownerId, createdAt := createdAt })
      uow.memories.addRelation relation
    | _, _ => throw (.notFound "both related memories must exist for this owner")

/-! ## Export and import -/

/-- `MemoryApplicationService.export_memories`. -/
def exportMemories (uow : UnitOfWork m R) (ownerId : String) (includeEmbeddings : Bool) :
    m (List (MemoryRecordDto R)) := do
  let _ ← ofExcept (validateOwnerId ownerId)
  uow.admin.exportMemories ownerId includeEmbeddings

/-- `tuple(range(1, version + 1))`. -/
def versionRange (version : Int) : List Int :=
  (List.range version.toNat).map fun i : Nat => (i : Int) + 1

/-- Is the text a lower-case SHA-256 hex digest? -/
def isHexDigest (text : String) : Bool :=
  decide (text.length = 64) && text.toList.all fun c => decide (c ∈ "0123456789abcdef".toList)

/-- `_validate_import_record`, given the ids of the records before it. -/
def validateImportRecord (ownerId : String) (incomingIds : List UUID)
    (record : MemoryRecordDto R) : Except PyError Unit := do
  let memory := record.memory
  raiseIf (decide (memory.id ∈ incomingIds)) (.validation "import contains duplicate memory IDs")
  raiseIf (decide (memory.ownerId ≠ ownerId))
    (.validation "import record owner does not match scope")
  raiseIf (decide (record.history.map MemoryVersion.version ≠ versionRange memory.version) ||
      record.history.any fun snapshot => decide (snapshot.memoryId ≠ memory.id))
    (.validation "import history is not a complete version sequence")
  raiseIf (memory.idempotencyKey.isSome && record.writeFingerprint.isNone)
    (.validation "import write fingerprint is required for idempotency keys")
  raiseIf (someAnd (fun text => !isHexDigest text) record.writeFingerprint)
    (.validation "import write fingerprint is invalid")
  raiseIf (someAnd (fun vector => match memory.embedding with
      | none => true
      | some descriptor => decide ((vector.length : Int) ≠ descriptor.dimension)) record.embedding)
    (.validation "import embedding dimension is invalid")
  raiseIf (record.relations.any fun relation => decide (relation.ownerId ≠ ownerId))
    (.validation "import relation owner does not match scope")

/-- Validate the records in order, collecting their ids. -/
def validateImport (ownerId : String) :
    List UUID → List (MemoryRecordDto R) → Except PyError (List UUID)
  | incomingIds, [] => pure incomingIds
  | incomingIds, record :: rest => do
    validateImportRecord ownerId incomingIds record
    validateImport ownerId (record.memory.id :: incomingIds) rest

/-- Every endpoint must be in the package or live for the owner. -/
def checkEndpoints (uow : UnitOfWork m R) (ownerId : String) (incomingIds : List UUID) :
    List UUID → m Unit
  | [] => pure ()
  | endpoint :: rest => do
    if endpoint ∈ incomingIds then checkEndpoints uow ownerId incomingIds rest
    else
      let found ← uow.memories.get ownerId endpoint none
      raiseIf found.isNone (.notFound "import relation endpoint was not found")
      checkEndpoints uow ownerId incomingIds rest

/-- The endpoints of every relation of a package, in order. -/
def packageEndpoints (records : List (MemoryRecordDto R)) : List UUID :=
  records.flatMap fun record => record.relations.flatMap fun r => [r.sourceId, r.targetId]

/-- `_relation_key`. -/
def relationKey (r : Relation) : String × String × String × String :=
  (r.sourceId.str, r.targetId.str, r.relationType.value, r.ownerId)

/-- Element-wise `==` of two tuples. -/
def tupleEq {α : Type} (eq : α → α → Bool) : List α → List α → Bool
  | [], [] => true
  | a :: as, b :: bs => eq a b && tupleEq eq as bs
  | _, _ => false

/-- `_import_records_equivalent`. -/
def importRecordsEquivalent (incoming current : MemoryRecordDto R) : Bool :=
  incoming.memory.pyEq current.memory &&
    (match incoming.writeFingerprint with
      | none => true
      | some _ => decide (incoming.writeFingerprint = current.writeFingerprint)) &&
    tupleEq MemoryVersion.pyEq incoming.history current.history &&
    decide ((incoming.relations.map relationKey).toFinset
      = (current.relations.map relationKey).toFinset) &&
    (match incoming.embedding, current.embedding with
      | none, _ => true
      | some _, none => false
      | some a, some b => tupleEq Python.numEq a b)

/-- The ids of the records that are already stored; a tombstoned or divergent
record raises. -/
def existingRecords (uow : UnitOfWork m R) (ownerId : String) :
    List (MemoryRecordDto R) → m (List UUID)
  | [] => pure []
  | record :: rest => do
    let current ← uow.admin.exportMemory ownerId record.memory.id true
    match current with
    | none =>
      let tombstoned ← uow.admin.isTombstoned ownerId record.memory.id record.memory.tenantId
      raiseIf tombstoned (.omp .restoreBlockedByTombstoneError
        "memory restore is blocked by a tombstone")
      existingRecords uow ownerId rest
    | some current =>
      raiseIf (!importRecordsEquivalent record current)
        (.omp .importConflictError "import conflicts with existing memory")
      let more ← existingRecords uow ownerId rest
      pure (record.memory.id :: more)

/-- Compute the missing vectors. -/
def prepareRecords (svc : MemoryApplicationService R) (existing : List UUID) :
    List (MemoryRecordDto R) → m (List (MemoryRecordDto R))
  | [] => pure []
  | record :: rest => do
    if record.memory.id ∈ existing ∨ record.embedding.isSome then
      let more ← prepareRecords svc existing rest
      pure (record :: more)
    else
      match record.memory.embedding with
      | none => throw (.omp .embeddingProfileMismatchError
          "import requires a compatible embedding profile")
      | some descriptor =>
        let ours ← ofExcept svc.embeddingProvider.profile.descriptor
        raiseIf (decide (descriptor ≠ ours)) (.omp .embeddingProfileMismatchError
          "import requires a compatible embedding profile")
        let vector ← svc.embedChecked record.memory.content false
        let more ← prepareRecords svc existing rest
        pure ({ record with embedding := some vector } :: more)

/-- `MemoryApplicationService.import_memories`. -/
def importMemories (svc : MemoryApplicationService R) (uow : UnitOfWork m R) (ownerId : String)
    (records : List (MemoryRecordDto R)) : m ImportResult := do
  let _ ← ofExcept (validateOwnerId ownerId)
  let incomingIds ← ofExcept (validateImport ownerId [] records)
  checkEndpoints uow ownerId incomingIds (packageEndpoints records)
  let existing ← existingRecords uow ownerId records
  let prepared ← svc.prepareRecords existing records
  uow.admin.importMemories prepared

end MemoryApplicationService

end OpenMemory
