import OpenMemory.Application.Reference
import OpenMemory.Mcp.Schemas
import OpenMemory.Store.Requests

/-!
# Gateway and adapter of MCP v0 (`application_gateway.py`, `adapter.py`, `errors.py`)

The gateway turns a validated request into a command of the application service and the
memory it returns into the raw record of a response. The adapter parses the arguments,
dispatches to the gateway and validates the response.

Dispatch is not one transaction: the service commits its unit of work first, and the
response is validated afterwards, on the committed store. `respond` keeps the two apart:
`Txn.attempt` is the service call with its rollback, what follows only computes.

Not modelled: the deadline of a call (`asyncio.wait_for`) and the log line. Pydantic's own
coercion of an argument object to the declared field types is the parameter `Coercion`; the
constraints of the schemas are applied to whatever it yields.
-/

namespace OpenMemory.Mcp

open Lib
open MonadExcept (ofExcept)

variable {R : Type} [Python R]

/-! ## Gateway -/

section Gateway

variable {m : Type → Type} [Monad m] [MonadExceptOf PyError m]

/-- `Enum(text)`. -/
def enumOf {α : Type} (ofValue : String → Option α) (text : String) : Except PyError α :=
  match ofValue text with
  | none => .error (.valueError "not a valid enum value")
  | some a => .ok a

/-- `_datetime`. -/
def datetime (R : Type) [Python R] (value : String) : Except PyError DateTime :=
  match Python.fromisoformat R (fromZ value) with
  | none => .error (.valueError "Invalid isoformat string")
  | some d => .ok d

/-- `_provenance`. -/
def provenance (R : Type) [Python R] (p : WireProvenance) : Except PyError Provenance := do
  let sourceType ← enumOf SourceType.ofValue
    (if p.sourceType.value = "other" then "unknown" else p.sourceType.value)
  let capturedAt ← datetime R p.capturedAt.val
  Provenance.make
    { sourceType := sourceType, capturedAt := capturedAt, sourceId := p.sourceId.map Text.val
      sourceModel := p.sourceModel.map Text.val
      evidence := match p.evidence with
        | none => []
        | some text => if text.val = "" then [] else [text.val] }

/-- `_memory`. -/
def memoryDict (memory : Memory R) : MemoryDict R where
  id := memory.id.str
  ownerId := memory.ownerId
  content := memory.content
  type := memory.memoryType.value
  space := memory.space
  importance := memory.importance
  confidence := memory.confidence
  state := memory.state.value
  version := memory.version
  createdAt := memory.createdAt.zulu
  updatedAt := memory.updatedAt.zulu
  occurredAt := memory.occurredAt.map DateTime.zulu
  provenance :=
    { sourceType := memory.provenance.sourceType.value
      capturedAt := memory.provenance.capturedAt.zulu
      sourceId := memory.provenance.sourceId
      sourceModel := memory.provenance.sourceModel
      evidence := if memory.provenance.evidence = [] then none
        else some (joinSpace memory.provenance.evidence) }

/-- The command of `memory.write`. -/
def writeCommand (request : WriteRequest R) : Except PyError (WriteMemoryCommand R) := do
  let memoryType ← enumOf MemoryType.ofValue request.type.value
  let provenance ← provenance R request.provenance
  pure
    { ownerId := request.ownerId.val, content := request.content.val, memoryType := memoryType
      provenance := provenance, importance := request.importance.val
      confidence := request.confidence.val, space := request.space.map Text.val
      idempotencyKey := some request.idempotencyKey.val }

/-- `MemoryApplicationGateway.write`. -/
def gatewayWrite (svc : MemoryApplicationService R) (uow : UnitOfWork m R)
    (request : WriteRequest R) : m (MemoryDict R × WriteStatus) := do
  let command ← ofExcept (writeCommand request)
  let result ← svc.write uow command
  pure (memoryDict result.memory, if result.created then .created else .alreadyExists)

/-- The command of `memory.search`. -/
def searchCommand (request : SearchRequest R) : Except PyError (SearchMemoryCommand R) := do
  let states ← match request.state with
    | none => pure {MemoryState.active}
    | some state => do
      let state ← enumOf MemoryState.ofValue state.value
      pure {state}
  let types ← match request.type with
    | none => pure none
    | some type => do
      let type ← enumOf MemoryType.ofValue type.value
      pure (some {type})
  pure
    { ownerId := request.ownerId.val, query := request.query.val
      filters := { states := states, memoryTypes := types, space := request.space.map Text.val }
      limit := request.limit.val, candidateLimit := max request.limit.val 50
      threshold := request.minRelevance.val }

/-- One element of the `items` that a search returns. -/
structure SearchItemDict (R : Type) where
  memory : MemoryDict R
  score : R
  reasonRetrieved : String
  profileId : String
  profileVersion : String

/-- The element of an item of the service. -/
def itemDict (item : SearchMemoryItem R) : SearchItemDict R where
  memory := memoryDict item.memory
  score := item.score
  reasonRetrieved := item.reasonRetrieved
  profileId := item.profileId
  profileVersion := item.profileVersion

/-- `MemoryApplicationGateway.search`. -/
def gatewaySearch (svc : MemoryApplicationService R) (uow : UnitOfWork m R)
    (request : SearchRequest R) : m (List (SearchItemDict R)) := do
  let command ← ofExcept (searchCommand request)
  let result ← svc.search uow command
  pure (result.items.map itemDict)

/-- The command of `memory.update`. -/
def updateCommand (request : UpdateRequest R) : Except PyError (UpdateMemoryCommand R) := do
  let memoryId ← match Python.parseUuid R request.id.val with
    | none => throw (.valueError "badly formed hexadecimal UUID string")
    | some id => pure id
  let memoryType ← optional (enumOf MemoryType.ofValue) (request.patch.type.map WireType.value)
  let state ← optional (enumOf MemoryState.ofValue) (request.patch.state.map WireState.value)
  let provenance ← optional (provenance R) (request.patch.provenance.or request.provenance)
  pure
    { ownerId := request.ownerId.val, memoryId := memoryId
      expectedVersion := request.expectedVersion.val
      content := request.patch.content.map fun text => text.val.val, memoryType := memoryType
      importance := request.patch.importance.map Subtype.val
      confidence := request.patch.confidence.map Subtype.val, state := state
      space := request.patch.space.map Text.val, provenance := provenance
      changeReason := "updated", idempotencyKey := some request.idempotencyKey.val }

/-- `MemoryApplicationGateway.update`. -/
def gatewayUpdate (svc : MemoryApplicationService R) (uow : UnitOfWork m R)
    (request : UpdateRequest R) : m (MemoryDict R) := do
  let command ← ofExcept (updateCommand request)
  let memory ← svc.update uow command
  pure (memoryDict memory)

/-- `MemoryApplicationGateway.forget`. -/
def gatewayForget (uow : UnitOfWork m R) (request : ForgetRequest) : m ForgetStatus := do
  match Python.parseUuid R request.id.val with
  | none => throw (.valueError "badly formed hexadecimal UUID string")
  | some memoryId =>
    let result ← MemoryApplicationService.forget uow
      { ownerId := request.ownerId.val, memoryId := memoryId
        idempotencyKey := some request.idempotencyKey.val }
    pure (if result.forgotten then .forgotten else .alreadyAbsent)

end Gateway

/-! ## Public errors -/

inductive PublicErrorCode
  | validation | notFound | versionConflict | forbidden | rateLimited | dependencyUnavailable
  | internal
  deriving DecidableEq, Repr

structure PublicError where
  code : PublicErrorCode
  message : String
  retryable : Bool := false
  deriving DecidableEq, Repr

/-- `map_service_error`, for the exceptions a service can raise. -/
def mapServiceError (error : PyError) : PublicError :=
  if error.code = some "validation_error" ∨
      error.className ∈ ["ValidationError", "InvalidStateTransitionError",
        "IdempotencyConflictError"] then
    ⟨.validation, "invalid memory operation", false⟩
  else if error.code ∈ [some "owner_access_denied", some "forbidden"] ∨
      error.className ∈ ["OwnerAccessError", "Forbidden"] then
    ⟨.forbidden, "operation not permitted", false⟩
  else if error.className ∈ ["MemoryNotFound", "NotFound", "NotFoundError"] then
    ⟨.notFound, "memory not found", false⟩
  else if error.code = some "version_conflict" ∨
      error.className ∈ ["VersionConflict", "VersionConflictError",
        "OptimisticConcurrencyError"] then
    ⟨.versionConflict, "memory version conflict", false⟩
  else if error.className ∈ ["Forbidden", "OwnerMismatch"] then
    ⟨.forbidden, "operation not permitted", false⟩
  else if error = .timeoutError ∨ error = .connectionError ∨
      error.className ∈ ["DependencyUnavailable", "ServiceUnavailable"] then
    ⟨.dependencyUnavailable, "dependency unavailable", true⟩
  else ⟨.internal, "internal error", false⟩

/-- The `except` clauses of `call_tool`. -/
def publicError : PyError → PublicError
  | .pydanticValidationError => ⟨.validation, "invalid request", false⟩
  | .timeoutError => ⟨.dependencyUnavailable, "dependency unavailable", true⟩
  | error => mapServiceError error

/-! ## Adapter -/

/-- What pydantic makes of an argument object before it applies the constraints. -/
structure Coercion (R : Type) [Python R] (Arguments : Type) where
  write : Arguments → Except PyError (WriteDict R)
  search : Arguments → Except PyError (SearchDict R)
  update : Arguments → Except PyError (UpdateDict R)
  forget : Arguments → Except PyError ForgetDict

/-- Arguments whose values already have the declared types. -/
inductive TypedArguments (R : Type)
  | write (arguments : WriteDict R)
  | search (arguments : SearchDict R)
  | update (arguments : UpdateDict R)
  | forget (arguments : ForgetDict)

/-- There is nothing to coerce in them; fields of another tool are unknown or missing. -/
def Coercion.typed : Coercion R (TypedArguments R) where
  write | .write d => .ok d | _ => .error .pydanticValidationError
  search | .search d => .ok d | _ => .error .pydanticValidationError
  update | .update d => .ok d | _ => .error .pydanticValidationError
  forget | .forget d => .ok d | _ => .error .pydanticValidationError

/-- A parsed call. -/
inductive ToolRequest (R : Type) [Python R]
  | write (request : WriteRequest R)
  | search (request : SearchRequest R)
  | update (request : UpdateRequest R)
  | forget (request : ForgetRequest)

/-- The adapter as one call sees it: `allow` is the answer of the rate limiter and
`requestId` what the factory returns. -/
structure MCPAdapter (R : Type) [Python R] (Arguments : Type) where
  service : MemoryApplicationService R
  coercion : Coercion R Arguments
  requestId : String
  localMode : Bool := true
  allow : Bool := true

/-- `MCPAdapter.TOOLS`. -/
def tools : List String := ["memory.write", "memory.search", "memory.update", "memory.forget"]

/-- An envelope: the request id and the data, or the public error. -/
inductive Envelope (R : Type) [Python R]
  | success (requestId : Text 1 128) (data : ResponseData R)
  | failure (requestId : Text 1 128) (error : PublicError)

/-- Is it an error envelope? -/
def Envelope.isFailure : Envelope R → Bool
  | .success _ _ => false
  | .failure _ _ => true

namespace MCPAdapter

variable {Arguments : Type}

/-- `_parse`. -/
def parse (adapter : MCPAdapter R Arguments) (name : String) (arguments : Arguments) :
    Except PyError (ToolRequest R) :=
  if name = "memory.write" then
    (adapter.coercion.write arguments >>= WriteRequest.modelValidate).map .write
  else if name = "memory.search" then
    (adapter.coercion.search arguments >>= SearchRequest.modelValidate).map .search
  else if name = "memory.update" then
    (adapter.coercion.update arguments >>= UpdateRequest.modelValidate).map .update
  else (adapter.coercion.forget arguments >>= ForgetRequest.modelValidate).map .forget

/-- `_reason`. -/
def reason (memoryType : WireType) (score : R) : String :=
  (if Python.le (Python.decimal 7 1) score then "Strong"
    else if Python.le (Python.decimal 35 2) score then "Moderate" else "Weak") ++
    " baseline relevance match for a " ++ memoryType.value ++
    " memory; above the configured threshold."

/-- `_search_item`, for the items of the gateway. -/
def searchItem (item : SearchItemDict R) : Except PyError (SearchResult R) := do
  let record ← MemoryRecord.modelValidate item.memory
  let bounded := Python.max (Python.ofInt 0) (Python.min (Python.ofInt 1) item.score)
  let score ← Ranged.modelValidate Python.inUnit bounded
  let reasonRetrieved ← Text.modelValidate 1 256
    (if item.reasonRetrieved = "" then reason record.type bounded else item.reasonRetrieved)
  let profileVersion ← Text.modelValidate 1 64
    (if item.profileVersion = "" then "unknown" else item.profileVersion)
  pure
    { memory := record, score := score, reasonRetrieved := reasonRetrieved
      retrievalProfileVersion := profileVersion }

/-- The response of `memory.search`. -/
def searchResponse (items : List (SearchItemDict R)) : Except PyError (SearchResponse R) := do
  let normalized ← items.mapM searchItem
  let count ← Ranged.modelValidate _ (normalized.length : Int)
  pure { memories := normalized, count := count }

/-- Call the service in a unit of work of its own, then make the response. -/
def respond {α : Type} (call : StoreTxn R α) (response : α → Except PyError (ResponseData R))
    (s : InMemoryStore R) : Except PyError (ResponseData R) × InMemoryStore R :=
  let (answer, s') := Txn.attempt call s
  (answer >>= response, s')

/-- `_dispatch`. -/
def dispatch (adapter : MCPAdapter R Arguments) :
    ToolRequest R → InMemoryStore R → Except PyError (ResponseData R) × InMemoryStore R
  | .write request =>
    respond (gatewayWrite adapter.service (inMemoryUnitOfWork R) request) fun answer => do
      let record ← MemoryRecord.modelValidate answer.1
      pure (.write record answer.2)
  | .search request =>
    respond (gatewaySearch adapter.service (inMemoryUnitOfWork R) request) fun items => do
      let response ← searchResponse items
      pure (.search response)
  | .update request =>
    respond (gatewayUpdate adapter.service (inMemoryUnitOfWork R) request) fun memory => do
      let record ← MemoryRecord.modelValidate memory
      pure (.update record)
  | .forget request =>
    respond (gatewayForget (inMemoryUnitOfWork R) request) fun status => pure (.forget status)

/-- `_success`. -/
def success (requestId : String) (data : ResponseData R) : Except PyError (Envelope R) := do
  let requestId ← Text.modelValidate 1 128 requestId
  pure (.success requestId data)

/-- `_error`. -/
def failure (requestId : String) (error : PublicError) : Except PyError (Envelope R) := do
  let requestId ← Text.modelValidate 1 128 requestId
  pure (.failure requestId error)

/-- `request_id or self.request_id_factory()`. -/
def answerId (adapter : MCPAdapter R Arguments) (requestId : Option String) : String :=
  (MemoryApplicationService.truthyKey requestId).getD adapter.requestId

/-- `call_tool`: an envelope (or the exception of an unusable request id), and the store
that is left. -/
def callTool (adapter : MCPAdapter R Arguments) (name : String) (arguments : Arguments)
    (requestId : Option String) (s : InMemoryStore R) :
    Except PyError (Envelope R) × InMemoryStore R :=
  let rid := adapter.answerId requestId
  if name ∉ tools then (failure rid ⟨.validation, "unknown tool", false⟩, s)
  else if adapter.allow = false then
    (failure rid ⟨.rateLimited, "rate limit exceeded", true⟩, s)
  else
    match adapter.parse name arguments with
    | .error e => (failure rid (publicError e), s)
    | .ok request =>
      if adapter.localMode = false then
        (failure rid ⟨.forbidden, "local owner payload is not accepted", false⟩, s)
      else
        let (data, s') := adapter.dispatch request s
        (match data >>= success rid with
          | .ok envelope => .ok envelope
          | .error e => failure rid (publicError e), s')

/-! ## Calls that reach the service -/

theorem respond_ok {α : Type} {call : StoreTxn R α} {a : α} {s s' : InMemoryStore R}
    (h : call.run s = .ok (a, s')) (response : α → Except PyError (ResponseData R)) :
    respond call response s = (response a, s') := by
  unfold respond
  rw [Txn.attempt_ok.mpr h]
  rfl

/-- A failed response left the store, or the call committed and its response was refused. -/
theorem respond_error {α : Type} {call : StoreTxn R α}
    {response : α → Except PyError (ResponseData R)} {e : PyError} {s s' : InMemoryStore R}
    (h : respond call response s = (.error e, s')) :
    s' = s ∨ ∃ a, call.run s = .ok (a, s') ∧ response a = .error e := by
  cases hrun : call.run s with
  | error e' =>
    rw [respond, Txn.attempt_error.mpr ⟨hrun, rfl⟩] at h
    exact .inl (Prod.mk.inj h).2.symm
  | ok out =>
    rw [respond_ok hrun] at h
    obtain ⟨hresponse, rfl⟩ := Prod.mk.inj h
    exact .inr ⟨out.1, rfl, hresponse⟩

/-- The adapter serves the call: a local one within the rate, whose id fits an envelope. -/
structure Admits (adapter : MCPAdapter R Arguments) (requestId : Option String) : Prop where
  allow : adapter.allow = true
  localMode : adapter.localMode = true
  requestId : ∃ rid, Text.modelValidate 1 128 (adapter.answerId requestId) = .ok rid

/-- An admitted call with acceptable arguments answers with what dispatch returns. -/
theorem callTool_parsed {adapter : MCPAdapter R Arguments} {name : String}
    {arguments : Arguments} {requestId : Option String} {request : ToolRequest R}
    {rid : Text 1 128} (hname : name ∈ tools) (hallow : adapter.allow = true)
    (hlocal : adapter.localMode = true)
    (hrid : Text.modelValidate 1 128 (adapter.answerId requestId) = .ok rid)
    (hparse : adapter.parse name arguments = .ok request) (s : InMemoryStore R) :
    adapter.callTool name arguments requestId s =
      (.ok (match (adapter.dispatch request s).1 with
        | .ok data => .success rid data
        | .error e => .failure rid (publicError e)), (adapter.dispatch request s).2) := by
  unfold callTool
  rw [if_neg (not_not.mpr hname), if_neg (by simp [hallow]), hparse]
  dsimp only
  rw [if_neg (by simp [hlocal])]
  cases (adapter.dispatch request s).1 with
  | ok data =>
    unfold success
    dsimp only [bind, Except.bind]
    rw [hrid]
    rfl
  | error e =>
    unfold failure
    dsimp only [bind, Except.bind]
    rw [hrid]
    rfl

/-- An id that fits no envelope makes the call raise, whatever dispatch returned. -/
theorem callTool_unusable {adapter : MCPAdapter R Arguments} {name : String}
    {arguments : Arguments} {requestId : Option String} {request : ToolRequest R} {e : PyError}
    (hname : name ∈ tools) (hallow : adapter.allow = true) (hlocal : adapter.localMode = true)
    (hrid : Text.modelValidate 1 128 (adapter.answerId requestId) = .error e)
    (hparse : adapter.parse name arguments = .ok request) (s : InMemoryStore R) :
    adapter.callTool name arguments requestId s = (.error e, (adapter.dispatch request s).2) := by
  unfold callTool
  rw [if_neg (not_not.mpr hname), if_neg (by simp [hallow]), hparse]
  dsimp only
  rw [if_neg (by simp [hlocal])]
  cases (adapter.dispatch request s).1 with
  | ok data =>
    unfold success failure
    dsimp only [bind, Except.bind]
    rw [hrid]
  | error e' =>
    unfold failure
    dsimp only [bind, Except.bind]
    rw [hrid]

end MCPAdapter

/-- The local adapter on day `n`. -/
def adapterOn (n : Fin 365) : MCPAdapter ℚ (TypedArguments ℚ) where
  service := serviceOn n 9
  coercion := .typed
  requestId := "req_1"

end OpenMemory.Mcp
