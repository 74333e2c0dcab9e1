import OpenMemory.Admin.Redaction
import OpenMemory.Cloud.Isolation
import OpenMemory.Mcp.Envelopes
import OpenMemory.Mcp.Fidelity
import OpenMemory.Mcp.RateLimits
import OpenMemory.Server.Tokens

/-!
# The hosted tools (`server/official.py`, `adapters/mcp/adapter.py`)

`_call_cloud` makes a principal of the access token of its request, writes the owner of the
principal over what the arguments say and calls the adapter in the scope of the tenant. The adapter
asks the rate limiter of the tenant, validates the arguments and calls the encrypted service, and
what it returns is printed without its owners. None of this waits for anything, so the calls of a
server take effect one after the other.

All tenants share the queues of the limiter and the encrypted service (`CloudTools`). In the order
of the proof:

- `validOwner_parse`: the owner of a principal survives the validation.
- `restrict_allow_self`, `restrict_allow_other`: the queues of a tenant are the limiter of a server
  of its own.
- `callTool_restrict`, `restrict_callTool`: a call for one of some tenants does to their part of the
  state what it does to the whole, and any other call leaves the part alone.
- `tenants_isolated`: the run.

`answer_redacted` is about the text of an answer.
-/

namespace OpenMemory.Server

open Lib
open Admin (Scope Principal AccessToken owner redactOwner redactItems redactMembers)
open Cloud (TenantEnvelopeEncryptor EncryptedCloudMemoryService CloudError CloudMemory CloudHit
  CloudResult OwnerCall CloudAnswer splitOwner)
open Mcp (PrintsUnits ClockReading TenantWindowRateLimiter RateCalls TypedArguments ToolRequest
  Envelope MemoryRecord ResponseData SearchResult SearchResponse WriteRequest UpdateRequest
  SearchRequest ForgetRequest Ranged MCPAdapter publicError ofCloudError cloudPayload)

variable {R : Type} [Python R] {T : Type} [ClockReading T]

/-! ## A call -/

/-- What the tools are made with (`create_cloud_demo_runtime`); `validate` is what pydantic makes of
a record of the service. -/
structure CloudRuntime (R T : Type) [Python R] [ClockReading T] where
  encryptor : TenantEnvelopeEncryptor
  unicode : UnicodeDatabase
  limiter : TenantWindowRateLimiter T
  lib : Interpreter
  validate : CloudMemory R → Except PyError (MemoryRecord R)

/-- What all calls share. -/
structure CloudTools (R T : Type) where
  rateCalls : RateCalls T := ∅
  service : EncryptedCloudMemoryService R

/-- A call of a tool, and what it observes. -/
structure HostedCall (R T : Type) where
  arguments : TypedArguments R
  requestId : String
  /-- `datetime.now(UTC)` in `requires`. -/
  checked : DateTime
  /-- `monotonic()` in the rate limiter. -/
  reading : T
  /-- What the service observes. -/
  env : Cloud.Environment

/-- The tool that takes the arguments. -/
def toolOf : TypedArguments R → String
  | .write _ => "memory.write"
  | .search _ => "memory.search"
  | .update _ => "memory.update"
  | .forget _ => "memory.forget"

/-- The scope that the tool asks for. -/
def scopeOf : TypedArguments R → Scope
  | .write _ => .memoryWrite
  | .search _ => .memoryRead
  | .update _ => .memoryWrite
  | .forget _ => .memoryDelete

/-- `arguments["owner_id"] = …`. -/
def withOwner (ownerId : String) : TypedArguments R → TypedArguments R
  | .write d => .write { d with ownerId := ownerId }
  | .search d => .search { d with ownerId := ownerId }
  | .update d => .update { d with ownerId := ownerId }
  | .forget d => .forget { d with ownerId := ownerId }

/-- `_parse`. -/
def parse : TypedArguments R → Except PyError (ToolRequest R)
  | .write d => (WriteRequest.modelValidate d).map .write
  | .search d => (SearchRequest.modelValidate d).map .search
  | .update d => (UpdateRequest.modelValidate d).map .update
  | .forget d => (ForgetRequest.modelValidate d).map .forget

/-- The payload of a write: the dump of the request without its nulls. -/
def writePayload (request : WriteRequest R) : Cloud.WritePayload R where
  ownerId := request.ownerId.val
  idempotencyKey := request.idempotencyKey.val
  type := .str request.type.value
  space := (request.space.map fun text => .str text.val).getD .none
  importance := .float request.importance.val
  confidence := .float request.confidence.val
  content := request.content.val
  provenance := request.provenance.json

/-- What a method of the service returns or raises, as the adapter sees it. -/
def ofOutcome {α : Type} (outcome : Except CloudError α) : Except PyError α :=
  outcome.mapError ofCloudError

namespace CloudRuntime

variable (runtime : CloudRuntime R T)

/-- `WriteResponse.model_validate`. -/
def writeResponse (result : CloudResult R) : Except PyError (ResponseData R) := do
  let record ← runtime.validate result.memory
  if result.status = "created" then pure (.write record .created)
  else if result.status = "already_exists" then pure (.write record .alreadyExists)
  else throw .pydanticValidationError

/-- `_search_item`: a hit names neither a reason nor a profile. -/
def searchItem (hit : CloudHit R) : Except PyError (SearchResult R) := do
  let record ← runtime.validate hit.memory
  let bounded := Python.max (Python.ofInt 0) (Python.min (Python.ofInt 1) hit.score)
  let score ← Ranged.modelValidate Python.inUnit bounded
  let reasonRetrieved ← Mcp.Text.modelValidate 1 256 (MCPAdapter.reason record.type bounded)
  let profileVersion ← Mcp.Text.modelValidate 1 64 "unknown"
  pure
    { memory := record, score := score, reasonRetrieved := reasonRetrieved
      retrievalProfileVersion := profileVersion }

/-- The response of `memory.search`. -/
def searchResponse (hits : List (CloudHit R)) : Except PyError (ResponseData R) := do
  let normalized ← hits.mapM runtime.searchItem
  let count ← Ranged.modelValidate _ (normalized.length : Int)
  pure (.search { memories := normalized, count := count })

/-- `UpdateResponse.model_validate`. -/
def updateResponse (result : CloudResult R) : Except PyError (ResponseData R) := do
  let record ← runtime.validate result.memory
  if result.status = "updated" then pure (.update record) else throw .pydanticValidationError

/-- `_dispatch`. -/
def dispatch (env : Cloud.Environment) (s : EncryptedCloudMemoryService R) :
    ToolRequest R → Except PyError (ResponseData R) × EncryptedCloudMemoryService R
  | .write request =>
    let written := Cloud.write runtime.encryptor env (writePayload request) s
    (ofOutcome written.1 >>= runtime.writeResponse, written.2)
  | .search request =>
    (ofOutcome (Cloud.search runtime.encryptor env runtime.unicode request s) >>=
      runtime.searchResponse, s)
  | .update request =>
    let updated := Cloud.update runtime.encryptor env (cloudPayload request) s
    (ofOutcome updated.1 >>= runtime.updateResponse, updated.2)
  | .forget request =>
    let forgotten := Cloud.forget env request.ownerId.val request.id.val s
    (.ok (.forget (if forgotten.1 then .forgotten else .alreadyAbsent)), forgotten.2)

/-- The envelope of what was dispatched. -/
def envelopeOf (requestId : String) (data : Except PyError (ResponseData R)) :
    Except PyError (Envelope R) :=
  match data >>= MCPAdapter.success requestId with
  | .ok envelope => .ok envelope
  | .error e => MCPAdapter.failure requestId (publicError e)

/-- `call_tool` in the scope of a tenant. -/
def callTool (tenantId : UUID) (arguments : TypedArguments R) (call : HostedCall R T)
    (s : CloudTools R T) : Except PyError (Envelope R) × CloudTools R T :=
  let asked := runtime.limiter.allow (toolOf arguments) (some tenantId.str) call.reading
    s.rateCalls
  if asked.1 = false then
    (MCPAdapter.failure call.requestId ⟨.rateLimited, "rate limit exceeded", true⟩,
      { s with rateCalls := asked.2 })
  else
    match parse arguments with
    | .error e =>
      (MCPAdapter.failure call.requestId (publicError e), { s with rateCalls := asked.2 })
    | .ok request =>
      let dispatched := runtime.dispatch call.env s.service request
      (envelopeOf call.requestId dispatched.1,
        { rateCalls := asked.2, service := dispatched.2 })

end CloudRuntime

/-- What a tool raises. -/
inductive ToolError
  /-- `PermissionError("authorization denied")`. -/
  | authorizationDenied
  /-- What `principal_from_access_token` raises. -/
  | principal (e : Raised)
  /-- An id that fits no envelope. -/
  | envelope (e : PyError)

/-- The answer as a text. -/
def hostedText (envelope : Envelope R) : String :=
  JsonValue.compactRaw.dumps (redactOwner envelope.json)

/-- `requires`. -/
def permits (p : Principal) (scope : Scope) (now : DateTime) : Bool :=
  !(p.isExpired now || decide (scope ∉ p.scopes))

/-- `_call_cloud`; `token` is what `get_access_token` returns. -/
def CloudRuntime.callCloud (runtime : CloudRuntime R T) (token : Option AccessToken)
    (call : HostedCall R T) (s : CloudTools R T) : Except ToolError String × CloudTools R T :=
  match token with
  | none => (.error .authorizationDenied, s)
  | some token =>
    match principalFromAccessToken runtime.lib token with
    | .error e => (.error (.principal e), s)
    | .ok p =>
      if permits p (scopeOf call.arguments) call.checked = false then
        (.error .authorizationDenied, s)
      else
        let called := runtime.callTool p.tenantId (withOwner (owner p) call.arguments) call s
        ((called.1.mapError .envelope).map hostedText, called.2)

/-! ## The owner of a call -/

/-- No id has a colon in its text. -/
theorem colon_not_mem_str (u : UUID) : ':' ∉ u.str.toList := by
  intro h
  have hhex : ∀ n < 16, hexDigit n ≠ ':' := by decide
  rcases UUID.mem_str h with h | ⟨n, hn, h⟩
  · exact absurd h (by decide)
  · exact hhex n hn h.symm

/-- So tenant and subject can be told from the owner. -/
theorem toList_owner (p : Principal) :
    (owner p).toList =
      "cloud".toList ++ ':' :: (p.tenantId.str.toList ++ ':' :: p.subjectId.str.toList) := by
  simp [owner, String.toList_append]

/-- An owner is cut up into what it was put together from. -/
theorem splitOwner_owner (p : Principal) :
    splitOwner (owner p) = some ("cloud", p.tenantId.str, p.subjectId.str) := by
  have hcut : ∀ {cs : List Char} (rest : List Char), ':' ∉ cs →
      (cs ++ ':' :: rest).takeWhile (fun c => decide (c ≠ ':')) = cs ∧
        (cs ++ ':' :: rest).dropWhile (fun c => decide (c ≠ ':')) = ':' :: rest := by
    intro cs rest h
    have hall : ∀ c ∈ cs, decide (c ≠ ':') = true := fun c hc => by
      refine decide_eq_true ?_
      rintro rfl
      exact h hc
    rw [List.takeWhile_append_of_pos hall, List.dropWhile_append_of_pos hall]
    simp
  have hcloud := hcut (p.tenantId.str.toList ++ ':' :: p.subjectId.str.toList)
    (show ':' ∉ "cloud".toList by decide)
  have htenant := hcut p.subjectId.str.toList (colon_not_mem_str p.tenantId)
  unfold splitOwner
  dsimp only
  rw [toList_owner, hcloud.1, hcloud.2, List.drop_one, List.tail_cons, htenant.1, htenant.2,
    if_neg (by simp), List.drop_one, List.tail_cons, String.ofList_toList, String.ofList_toList,
    String.ofList_toList]

/-- There is nothing to trim in an owner. -/
theorem trimBoth_owner (p : Principal) : trimBoth isTrimmed (owner p) = owner p := by
  have hstr : ∀ u : UUID, ∀ c ∈ u.str.toList, isTrimmed c = false := by
    intro u c hc
    have hhex : ∀ n < 16, isTrimmed (hexDigit n) = false := by decide
    rcases UUID.mem_str hc with rfl | ⟨n, hn, rfl⟩
    · rfl
    · exact hhex n hn
  have hcloud : ∀ c ∈ "cloud".toList, isTrimmed c = false := by
    simp [isTrimmed, isSpace]
  refine trimBoth_eq_self_of_forall fun c hc => ?_
  rw [toList_owner] at hc
  simp only [List.mem_append, List.mem_cons] at hc
  rcases hc with hc | rfl | hc | rfl | hc
  · exact hcloud c hc
  · rfl
  · exact hstr _ c hc
  · rfl
  · exact hstr _ c hc

/-- The owner that a request is made for. -/
def ownerOf : ToolRequest R → String
  | .write request => request.ownerId.val
  | .search request => request.ownerId.val
  | .update request => request.ownerId.val
  | .forget request => request.ownerId.val

/-- Validation keeps the owner of a principal. -/
theorem ownerOf_parse {p : Principal} {arguments : TypedArguments R} {request : ToolRequest R}
    (h : parse (withOwner (owner p) arguments) = .ok request) : ownerOf request = owner p := by
  have hkept : ∀ {text : Mcp.Text 1 128}, Mcp.Text.modelValidate 1 128 (owner p) = .ok text →
      text.val = owner p := fun htext =>
    (Mcp.Text.modelValidate_ok htext).1.trans (trimBoth_owner p)
  cases arguments with
  | write d =>
    rw [withOwner, parse] at h
    obtain ⟨r, hr, rfl⟩ := except_map_ok.mp h
    simp only [WriteRequest.modelValidate, except_bind_ok] at hr
    obtain ⟨_, -, _, -, _, -, ownerId, howner, _, -, _, -, _, -, _, -, _, -, hr⟩ := hr
    cases hr
    exact hkept howner
  | search d =>
    rw [withOwner, parse] at h
    obtain ⟨r, hr, rfl⟩ := except_map_ok.mp h
    simp only [SearchRequest.modelValidate, except_bind_ok] at hr
    obtain ⟨_, -, ownerId, howner, _, -, _, -, _, -, _, -, _, -, _, -, hr⟩ := hr
    cases hr
    exact hkept howner
  | update d =>
    rw [withOwner, parse] at h
    obtain ⟨r, hr, rfl⟩ := except_map_ok.mp h
    simp only [UpdateRequest.modelValidate, except_bind_ok] at hr
    obtain ⟨_, -, _, -, _, -, ownerId, howner, _, -, _, -, _, -, hr⟩ := hr
    cases hr
    exact hkept howner
  | forget d =>
    rw [withOwner, parse] at h
    obtain ⟨r, hr, rfl⟩ := except_map_ok.mp h
    simp only [ForgetRequest.modelValidate, except_bind_ok] at hr
    obtain ⟨_, -, ownerId, howner, _, -, _, -, _, -, hr⟩ := hr
    cases hr
    exact hkept howner

/-! ## The call of the service -/

/-- The call of the service that a request makes. -/
def methodOf (env : Cloud.Environment) : ToolRequest R → OwnerCall R
  | .write request => .write env (writePayload request)
  | .search request => .search env request
  | .update request => .update env (cloudPayload request)
  | .forget request => .forget env request.ownerId.val request.id.val

/-- The id that a call draws for a record. -/
def HostedCall.drawn (call : HostedCall R T) : Option String :=
  match call.arguments with
  | .write _ => some (Cloud.drawnId call.env)
  | _ => none

section Dispatch

variable {runtime : CloudRuntime R T} {env : Cloud.Environment} {request : ToolRequest R}
  {s t : EncryptedCloudMemoryService R}

/-- A request changes the service as the call that it stands for. -/
theorem dispatch_snd :
    (runtime.dispatch env s request).2 =
      (methodOf env request).next runtime.encryptor runtime.unicode s := by
  cases request <;> rfl

/-- What is dispatched comes of the answer of the service alone. -/
theorem dispatch_fst_congr
    (h : (methodOf env request).answer runtime.encryptor runtime.unicode s =
      (methodOf env request).answer runtime.encryptor runtime.unicode t) :
    (runtime.dispatch env s request).1 = (runtime.dispatch env t request).1 := by
  cases request with
  | write request =>
    exact congrArg (ofOutcome · >>= runtime.writeResponse) (CloudAnswer.result.inj h)
  | search request =>
    exact congrArg (ofOutcome · >>= runtime.searchResponse) (CloudAnswer.hits.inj h)
  | update request =>
    exact congrArg (ofOutcome · >>= runtime.updateResponse) (CloudAnswer.result.inj h)
  | forget request =>
    exact congrArg (fun forgotten : Bool => Except.ok (ResponseData.forget
      (if forgotten then .forgotten else .alreadyAbsent))) (CloudAnswer.forgotten.inj h)

/-- And that call is for the owner of the request. -/
theorem isFor_methodOf (mine : String → Bool) :
    (methodOf env request).isFor mine = mine (ownerOf request) := by
  cases request <;> rfl

omit [ClockReading T] in
/-- It draws the id that the request draws. -/
theorem drawn_methodOf {call : HostedCall R T} {ownerId : String}
    (h : parse (withOwner ownerId call.arguments) = .ok request) :
    (methodOf call.env request).drawn = call.drawn := by
  unfold HostedCall.drawn
  cases harguments : call.arguments with
  | write d =>
    rw [harguments] at h
    rw [withOwner, parse] at h
    obtain ⟨r, -, rfl⟩ := except_map_ok.mp h
    rfl
  | search d =>
    rw [harguments] at h
    rw [withOwner, parse] at h
    obtain ⟨r, -, rfl⟩ := except_map_ok.mp h
    rfl
  | update d =>
    rw [harguments] at h
    rw [withOwner, parse] at h
    obtain ⟨r, -, rfl⟩ := except_map_ok.mp h
    rfl
  | forget d =>
    rw [harguments] at h
    rw [withOwner, parse] at h
    obtain ⟨r, -, rfl⟩ := except_map_ok.mp h
    rfl

end Dispatch

/-! ## The part of some tenants -/

/-- The tenant that an owner is bound to. -/
def tenantText (ownerId : String) : String :=
  ((splitOwner ownerId).map fun parts => parts.2.1).getD ""

/-- The tenant is read back from the owner. -/
theorem tenantText_owner (p : Principal) : tenantText (owner p) = p.tenantId.str := by
  rw [tenantText, splitOwner_owner]
  rfl

/-- Is the owner of one of these tenants? -/
def ofTenants (mine : String → Bool) (ownerId : String) : Bool := mine (tenantText ownerId)

/-- The queues of some tenants and what is stored for their owners. -/
def CloudTools.restrict (mine : String → Bool) (s : CloudTools R T) : CloudTools R T where
  rateCalls := s.rateCalls.filter fun key _ => mine key.1
  service := Cloud.restrict (ofTenants mine) s.service

section Queues

variable {mine : String → Bool} (limiter : TenantWindowRateLimiter T) (tool : String)
  {tenantKey : String} (now : T) (rateCalls : RateCalls T)

/-- The limiter answers a tenant from the calls of that tenant. -/
theorem restrict_allow_self (hmine : mine tenantKey = true) :
    limiter.allow tool (some tenantKey) now (rateCalls.filter fun key _ => mine key.1) =
      ((limiter.allow tool (some tenantKey) now rateCalls).1,
        (limiter.allow tool (some tenantKey) now rateCalls).2.filter fun key _ => mine key.1) := by
  have hget : (rateCalls.filter fun key _ => mine key.1).get? (tenantKey, tool) =
      rateCalls.get? (tenantKey, tool) := by
    rw [Dict.get?_filter]
    cases rateCalls.get? (tenantKey, tool) with
    | none => rfl
    | some calls => exact Option.filter_some_pos hmine
  have hset : ∀ calls, (rateCalls.set (tenantKey, tool) calls).filter (fun key _ => mine key.1) =
      (rateCalls.filter fun key _ => mine key.1).set (tenantKey, tool) calls := fun calls =>
    Dict.filter_set_of_pos hmine fun _ _ => hmine
  unfold TenantWindowRateLimiter.allow
  dsimp only
  rw [hget]
  split
  · rw [hset]
  · rw [hset]

/-- A tenant's call is not seen in the calls of the others. -/
theorem restrict_allow_other (hforeign : mine tenantKey = false) :
    (limiter.allow tool (some tenantKey) now rateCalls).2.filter (fun key _ => mine key.1) =
      rateCalls.filter fun key _ => mine key.1 := by
  unfold TenantWindowRateLimiter.allow
  dsimp only
  split
  · exact Dict.filter_set_of_neg hforeign fun _ _ => hforeign
  · exact Dict.filter_set_of_neg hforeign fun _ _ => hforeign

end Queues

/-! ## One call -/

section Step

variable {mine : String → Bool} {runtime : CloudRuntime R T} {call : HostedCall R T}
  {p : Principal} {s : CloudTools R T} {ids : List String}

/-- What a call of a tool with a principal does to the service: nothing, or it makes one call for
the owner of the principal. -/
theorem service_callTool (runtime : CloudRuntime R T) (p : Principal) (call : HostedCall R T)
    (s : CloudTools R T) :
    (runtime.callTool p.tenantId (withOwner (owner p) call.arguments) call s).2.service =
        s.service ∨
      ∃ method : OwnerCall R, (∀ mine, method.isFor mine = mine (owner p)) ∧
        method.drawn = call.drawn ∧
        (runtime.callTool p.tenantId (withOwner (owner p) call.arguments) call s).2.service =
          method.next runtime.encryptor runtime.unicode s.service := by
  unfold CloudRuntime.callTool
  dsimp only
  split
  · exact .inl rfl
  · cases hparse : parse (withOwner (owner p) call.arguments) with
    | error e => exact .inl rfl
    | ok request =>
      refine .inr ⟨methodOf call.env request, fun mine => ?_, drawn_methodOf hparse, dispatch_snd⟩
      rw [isFor_methodOf, ownerOf_parse hparse]

/-- A tool call uses up the id that it draws. -/
theorem ready_callTool (h : OwnerCall.Ready s.service (call.drawn.toList ++ ids)) :
    OwnerCall.Ready
      (runtime.callTool p.tenantId (withOwner (owner p) call.arguments) call s).2.service ids := by
  rcases service_callTool runtime p call s with hsame | ⟨method, -, hdrawn, hnext⟩
  · rw [hsame]
    exact h.skip
  · rw [hnext]
    rw [← hdrawn] at h
    exact h.next

/-- A call for one of these tenants does to their part what it does to the whole. -/
theorem callTool_restrict (h : OwnerCall.Ready s.service (call.drawn.toList ++ ids))
    (hmine : mine p.tenantId.str = true) :
    runtime.callTool p.tenantId (withOwner (owner p) call.arguments) call (s.restrict mine) =
      ((runtime.callTool p.tenantId (withOwner (owner p) call.arguments) call s).1,
        (runtime.callTool p.tenantId (withOwner (owner p) call.arguments) call s).2.restrict
          mine) := by
  have hasked := restrict_allow_self runtime.limiter
    (toolOf (withOwner (owner p) call.arguments)) call.reading s.rateCalls hmine
  unfold CloudRuntime.callTool
  dsimp only
  rw [show (s.restrict mine).rateCalls = s.rateCalls.filter fun key _ => mine key.1 from rfl,
    hasked]
  dsimp only
  split
  · rfl
  · cases hparse : parse (withOwner (owner p) call.arguments) with
    | error e => rfl
    | ok request =>
      have hfor : (methodOf call.env request).isFor (ofTenants mine) = true := by
        rw [isFor_methodOf, ownerOf_parse hparse, ofTenants, tenantText_owner]
        exact hmine
      rw [← drawn_methodOf hparse] at h
      have hrun : (methodOf call.env request).run runtime.encryptor runtime.unicode
          (Cloud.restrict (ofTenants mine) s.service) = _ :=
        OwnerCall.run_restrict h.kept h.head hfor
      have hanswer := congrArg Prod.fst hrun
      have hnext := congrArg Prod.snd hrun
      refine Prod.ext ?_ ?_
      · exact congrArg (CloudRuntime.envelopeOf call.requestId) (dispatch_fst_congr hanswer)
      · show CloudTools.mk _ (runtime.dispatch call.env _ request).2 =
          CloudTools.mk _ (Cloud.restrict _ (runtime.dispatch call.env _ request).2)
        rw [dispatch_snd, dispatch_snd]
        exact congrArg (CloudTools.mk _) hnext

/-- A call for another tenant leaves the part alone. -/
theorem restrict_callTool (h : OwnerCall.Ready s.service (call.drawn.toList ++ ids))
    (hforeign : mine p.tenantId.str = false) :
    (runtime.callTool p.tenantId (withOwner (owner p) call.arguments) call s).2.restrict mine =
      s.restrict mine := by
  have hqueues : ((runtime.callTool p.tenantId (withOwner (owner p) call.arguments) call
      s).2.rateCalls).filter (fun key _ => mine key.1) =
        s.rateCalls.filter fun key _ => mine key.1 := by
    have hasked := restrict_allow_other runtime.limiter
      (toolOf (withOwner (owner p) call.arguments)) call.reading s.rateCalls hforeign
    unfold CloudRuntime.callTool
    dsimp only
    split
    · exact hasked
    · cases parse (withOwner (owner p) call.arguments) with
      | error e => exact hasked
      | ok request => exact hasked
  unfold CloudTools.restrict
  rw [hqueues]
  congr 1
  rcases service_callTool runtime p call s with hsame | ⟨method, hfor, hdrawn, hnext⟩
  · rw [hsame]
  · rw [hnext]
    rw [← hdrawn] at h
    refine OwnerCall.restrict_run h.kept h.head ?_
    rw [hfor, ofTenants, tenantText_owner]
    exact hforeign

end Step

/-! ## Runs -/

/-- A tool is called, or an operator moves the service to another key version. -/
inductive ToolMove (R T : Type)
  | call (token : Option AccessToken) (call : HostedCall R T)
  | rotate (version : Int)

/-- What a move returns or raises. -/
inductive ToolAnswer
  | text (outcome : Except ToolError String)
  | rotated (outcome : Except CloudError Unit)

/-- The id that a move draws. -/
def ToolMove.drawn : ToolMove R T → Option String
  | .call _ hosted => hosted.drawn
  | .rotate _ => none

namespace CloudRuntime

variable (runtime : CloudRuntime R T)

/-- Who the access token of a call is for. -/
def callerOf (token : Option AccessToken) : Option Principal :=
  token.bind fun token => (principalFromAccessToken runtime.lib token).toOption

/-- The answer to a move, and the state after it. -/
def run (s : CloudTools R T) : ToolMove R T → ToolAnswer × CloudTools R T
  | .call token call => (runtime.callCloud token call s).map .text id
  | .rotate version =>
    (Cloud.rotate version s.service).map .rotated fun service => { s with service := service }

def answer (s : CloudTools R T) (move : ToolMove R T) : ToolAnswer := (runtime.run s move).1

def next (s : CloudTools R T) (move : ToolMove R T) : CloudTools R T := (runtime.run s move).2

/-- Is the move a call for one of these tenants? What is for no tenant is for everybody. -/
def isFor (mine : String → Bool) : ToolMove R T → Bool
  | .call token _ => ((runtime.callerOf token).map fun p => mine p.tenantId.str).getD true
  | .rotate _ => true

variable {runtime}

/-- A call is turned away, whatever the state is, or it reaches the adapter with a principal. -/
theorem callCloud_cases (runtime : CloudRuntime R T) (token : Option AccessToken)
    (call : HostedCall R T) :
    (∃ e, ∀ s : CloudTools R T, runtime.callCloud token call s = (.error e, s)) ∨
      ∃ p, runtime.callerOf token = some p ∧
        permits p (scopeOf call.arguments) call.checked = true ∧
        ∀ s : CloudTools R T, runtime.callCloud token call s =
          (runtime.callTool p.tenantId (withOwner (owner p) call.arguments) call s).map
            (fun envelope => (envelope.mapError .envelope).map hostedText) id := by
  unfold callCloud callerOf
  cases token with
  | none => exact .inl ⟨_, fun _ => rfl⟩
  | some token =>
    dsimp only [Option.bind_some]
    cases principalFromAccessToken runtime.lib token with
    | error e => exact .inl ⟨_, fun _ => rfl⟩
    | ok p =>
      dsimp only [Except.toOption]
      cases hpermits : permits p (scopeOf call.arguments) call.checked with
      | false => exact .inl ⟨_, fun _ => rfl⟩
      | true => exact .inr ⟨p, rfl, hpermits, fun _ => rfl⟩

section

variable {mine : String → Bool} {move : ToolMove R T} {s : CloudTools R T} {ids : List String}

/-- So does every move. -/
theorem ready_next (h : OwnerCall.Ready s.service (move.drawn.toList ++ ids)) :
    OwnerCall.Ready (runtime.next s move).service ids := by
  cases move with
  | call token call =>
    show OwnerCall.Ready (runtime.callCloud token call s).2.service ids
    rcases callCloud_cases runtime token call with ⟨e, hdenied⟩ | ⟨p, -, -, hcalled⟩
    · rw [hdenied]
      exact h.skip
    · rw [hcalled]
      exact ready_callTool h
  | rotate version =>
    have hready : OwnerCall.Ready s.service
        ((OwnerCall.rotate (R := R) version).drawn.toList ++ ids) := h
    show OwnerCall.Ready ((OwnerCall.rotate version).next runtime.encryptor runtime.unicode
      s.service) ids
    exact hready.next

/-- A move for the owners acts on their part, and answers from it. -/
theorem run_restrict (h : OwnerCall.Ready s.service (move.drawn.toList ++ ids))
    (hfor : runtime.isFor mine move = true) :
    runtime.run (s.restrict mine) move =
      ((runtime.run s move).1, (runtime.run s move).2.restrict mine) := by
  cases move with
  | call token call =>
    unfold run
    dsimp only
    rcases callCloud_cases runtime token call with ⟨e, hdenied⟩ | ⟨p, hcaller, -, hcalled⟩
    · rw [hdenied, hdenied]
      rfl
    · have hmine : mine p.tenantId.str = true := by
        rwa [isFor, hcaller] at hfor
      rw [hcalled, hcalled, callTool_restrict h hmine]
      rfl
  | rotate version =>
    unfold run
    dsimp only
    rw [show (s.restrict mine).service = Cloud.restrict (ofTenants mine) s.service from rfl,
      Cloud.rotate_restrict version]
    rfl

/-- A move for others is not seen. -/
theorem restrict_run (h : OwnerCall.Ready s.service (move.drawn.toList ++ ids))
    (hforeign : runtime.isFor mine move = false) :
    (runtime.run s move).2.restrict mine = s.restrict mine := by
  cases move with
  | call token call =>
    show (runtime.callCloud token call s).2.restrict mine = _
    rcases callCloud_cases runtime token call with ⟨e, hdenied⟩ | ⟨p, hcaller, -, hcalled⟩
    · rw [hdenied]
    · have hother : mine p.tenantId.str = false := by
        rwa [isFor, hcaller] at hforeign
      rw [hcalled]
      exact restrict_callTool h hother
  | rotate version => cases hforeign

end

omit [Python R] [ClockReading T] in
theorem filterMap_drawn_cons (move : ToolMove R T) (moves : List (ToolMove R T)) :
    (move :: moves).filterMap ToolMove.drawn =
      move.drawn.toList ++ moves.filterMap ToolMove.drawn := by
  rw [List.filterMap_cons]
  cases move.drawn <;> rfl

/-- The part of some tenants unwinds. -/
theorem unwinds (runtime : CloudRuntime R T) (mine : String → Bool) :
    Unwinds runtime.next runtime.answer (runtime.isFor mine)
      (fun s moves => OwnerCall.Ready s.service (moves.filterMap ToolMove.drawn))
      fun s t => s.restrict mine = t where
  ready h := by
    rw [filterMap_drawn_cons] at h
    exact ready_next h
  skip h _ := by
    rw [filterMap_drawn_cons] at h
    exact h.skip
  unseen h hforeign hagree := by
    rw [filterMap_drawn_cons] at h
    exact (restrict_run h hforeign).trans hagree
  seen := by
    rintro s t move moves h - hfor rfl
    rw [filterMap_drawn_cons] at h
    have hrun := run_restrict h hfor
    exact ⟨(congrArg Prod.fst hrun).symm, (congrArg Prod.snd hrun).symm⟩

end CloudRuntime

/-- The server before its first call. -/
def newTools (R T : Type) (keyVersion : Int) : CloudTools R T :=
  { service := Cloud.newService keyVersion }

/-- In any run of tool calls with any access tokens, with rotations in between and all drawn ids
different, some tenants get the answers that they would get from a server of their own, down to the
rate limits, and at the end their queues and what is stored for them are those of that server. -/
theorem tenants_isolated (mine : String → Bool) (runtime : CloudRuntime R T) (keyVersion : Int)
    {moves : List (ToolMove R T)} (hfresh : (moves.filterMap ToolMove.drawn).Nodup) :
    answersTo runtime.next runtime.answer (runtime.isFor mine) (newTools R T keyVersion) moves =
      answers runtime.next runtime.answer (newTools R T keyVersion)
        (moves.filter (runtime.isFor mine)) ∧
    (moves.foldl runtime.next (newTools R T keyVersion)).restrict mine =
      (moves.filter (runtime.isFor mine)).foldl runtime.next (newTools R T keyVersion) := by
  have hready := OwnerCall.ready_newService (R := R) keyVersion hfresh
  have hunwinds := CloudRuntime.unwinds runtime mine
  exact ⟨hunwinds.purge hready rfl, hunwinds.agree_foldl hready hready rfl⟩

/-! ## The text of an answer -/

mutual

/-- Taking owners out leaves the numbers as they are. -/
theorem hasLiterals_redactOwner :
    ∀ {value : JsonValue}, value.HasLiterals → (redactOwner value).HasLiterals
  | .null, h | .bool _, h | .int _, h | .float _, h | .str _, h => h
  | .arr _, h => itemsHaveLiterals_redactItems h
  | .obj _, h => membersHaveLiterals_redactMembers h

theorem itemsHaveLiterals_redactItems :
    ∀ {items : List JsonValue}, JsonValue.ItemsHaveLiterals items →
      JsonValue.ItemsHaveLiterals (redactItems items)
  | [], h => h
  | _ :: _, h => ⟨hasLiterals_redactOwner h.1, itemsHaveLiterals_redactItems h.2⟩

theorem membersHaveLiterals_redactMembers :
    ∀ {members : List (String × JsonValue)}, JsonValue.MembersHaveLiterals members →
      JsonValue.MembersHaveLiterals (redactMembers members)
  | [], h => h
  | (key, _) :: _, h => by
    rw [redactMembers]
    by_cases hkey : key = "owner_id"
    · rw [if_pos hkey]
      exact membersHaveLiterals_redactMembers h.2
    · rw [if_neg hkey]
      exact ⟨hasLiterals_redactOwner h.1, membersHaveLiterals_redactMembers h.2⟩

end

/-- The text of an envelope is a line, and reads as the envelope without its owners. -/
theorem hostedText_reads (hprints : PrintsUnits R) (envelope : Envelope R) :
    '\n' ∉ (hostedText envelope).toList ∧
      JsonValue.loads (hostedText envelope) = some (redactOwner envelope.json).sorted := by
  have hliterals := hasLiterals_redactOwner (hprints.envelope envelope)
  refine ⟨fun hline => ?_, JsonValue.Layout.loads_dumps _ hliterals⟩
  unfold hostedText JsonValue.Layout.dumps at hline
  rw [String.toList_ofList] at hline
  exact JsonValue.Layout.compactRaw_prints.print 0 _ hliterals _ hline rfl

/-- What a tool answers is one line of JSON. It reads as the envelope that the adapter has returned,
with the owners taken out: nowhere in it is there a key `owner_id`. -/
theorem answer_redacted (hprints : PrintsUnits R) {runtime : CloudRuntime R T}
    {token : Option AccessToken} {call : HostedCall R T} {s s' : CloudTools R T} {text : String}
    (h : runtime.callCloud token call s = (.ok text, s')) :
    ∃ p envelope, runtime.callerOf token = some p ∧
      runtime.callTool p.tenantId (withOwner (owner p) call.arguments) call s =
        (.ok envelope, s') ∧
      '\n' ∉ text.toList ∧ JsonValue.loads text = some (redactOwner envelope.json).sorted ∧
      JsonValue.hasKey "owner_id" (redactOwner envelope.json).sorted = false := by
  rcases CloudRuntime.callCloud_cases runtime token call with
    ⟨e, hdenied⟩ | ⟨p, hcaller, -, hcalled⟩
  · rw [hdenied] at h
    cases h
  · rw [hcalled] at h
    generalize hcall : runtime.callTool p.tenantId (withOwner (owner p) call.arguments) call s =
      called at h
    obtain ⟨outcome, s''⟩ := called
    cases outcome with
    | error e => cases h
    | ok envelope =>
      cases h
      obtain ⟨hline, hloads⟩ := hostedText_reads hprints envelope
      exact ⟨p, envelope, hcaller, hcall, hline, hloads,
        JsonValue.hasKey_sorted (Admin.hasKey_redactOwner envelope.json)⟩

/-! ### Two tenants -/

/-- The caller with a token of given claims is the principal of the claims. -/
theorem callerOf_accessTokenOf {runtime : CloudRuntime R T} {v : LocalDevelopmentTokenVerifier}
    {token : String} {claims : Claims} {expires : DateTime}
    (h : fromTimestamp runtime.lib (timestamp runtime.lib claims.expiresAt) = .ok expires) :
    runtime.callerOf (some (v.accessTokenOf runtime.lib token claims)) =
      some (LocalDevelopmentTokenVerifier.principalOf claims expires) := by
  have hprincipal :
      principalFromAccessToken runtime.lib (v.accessTokenOf runtime.lib token claims) =
        .ok (LocalDevelopmentTokenVerifier.principalOf claims expires) :=
    (LocalDevelopmentTokenVerifier.principalFromAccessToken_accessTokenOf runtime.lib).mpr
      ⟨expires, h, rfl⟩
  unfold CloudRuntime.callerOf
  rw [Option.bind_some, hprincipal]
  rfl

/-- One call of a tool in a minute. -/
def deskRuntime : CloudRuntime ℚ Int where
  encryptor := Cloud.deskEncryptor
  unicode := Mcp.asciiDatabase
  limiter := { maximum := 1, windowSeconds := 60, maximum_pos := le_rfl, window_pos := by decide }
  lib := LocalDevelopmentTokenVerifier.utcInterpreter
  validate := Mcp.deskValidate

/-- Somebody of a tenant who reads and writes until two o'clock. -/
def writerClaims (tenantId : UUID) : Claims :=
  { LocalDevelopmentTokenVerifier.readerClaims with
    tenantId := tenantId, scopes := {.memoryRead, .memoryWrite} }

/-- A call of theirs at one o'clock. -/
def writerCall (tenantId : UUID) (arguments : TypedArguments ℚ) (drawn : Nat) (reading : Int) :
    ToolMove ℚ Int :=
  .call
    (some (LocalDevelopmentTokenVerifier.newVerifier.accessTokenOf
      LocalDevelopmentTokenVerifier.utcInterpreter "" (writerClaims tenantId)))
    { arguments := arguments, requestId := "req_1", checked := Admin.atHour 1, reading := reading
      env := Cloud.deskEnv drawn }

/-- What both tenants note under one key. -/
def sharedNote : TypedArguments ℚ :=
  .write
    { content := "tea", type := "fact", ownerId := "", importance := 1 / 2, confidence := 1 / 2
      provenance := { sourceType := "user", capturedAt := "2026-01-01T00:00:00Z" }
      idempotencyKey := "k" }

/-- What they look for. -/
def teaSearch : TypedArguments ℚ := .search { query := "tea", ownerId := "", minRelevance := 1 / 2 }

theorem isFor_writerCall (tenantId : UUID) (arguments : TypedArguments ℚ) (drawn : Nat)
    (reading : Int) (mine : String → Bool) :
    deskRuntime.isFor mine (writerCall tenantId arguments drawn reading) = mine tenantId.str := by
  have hcaller : deskRuntime.callerOf (some
      (LocalDevelopmentTokenVerifier.newVerifier.accessTokenOf deskRuntime.lib ""
        (writerClaims tenantId))) =
      some (LocalDevelopmentTokenVerifier.principalOf (writerClaims tenantId) (Admin.atHour 2)) :=
    callerOf_accessTokenOf rfl
  unfold writerCall
  rw [CloudRuntime.isFor]
  exact congrArg (fun caller => (caller.map fun p : Principal => mine p.tenantId.str).getD true)
    hcaller

/-- Of these calls one is of the second tenant. -/
theorem filter_writerCalls :
    [writerCall ⟨5⟩ sharedNote 8 0, writerCall ⟨5⟩ teaSearch 9 1,
        writerCall ⟨2⟩ sharedNote 7 2].filter
      (deskRuntime.isFor fun tenantKey => decide (tenantKey = (⟨2⟩ : UUID).str)) =
        [writerCall ⟨2⟩ sharedNote 7 2] := by
  have hother : decide ((⟨5⟩ : UUID).str = (⟨2⟩ : UUID).str) = false :=
    decide_eq_false (UUID.str_injective.ne (by decide))
  rw [List.filter_cons_of_neg (by rw [isFor_writerCall, hother]; decide),
    List.filter_cons_of_neg (by rw [isFor_writerCall, hother]; decide),
    List.filter_cons_of_pos (by rw [isFor_writerCall, decide_eq_true rfl]), List.filter_nil]

/-- The other tenant has written under the key and used up its rate. -/
theorem desk_tenants_isolated :
    answersTo deskRuntime.next deskRuntime.answer
        (deskRuntime.isFor fun tenantKey => decide (tenantKey = (⟨2⟩ : UUID).str))
        (newTools ℚ Int 1)
        [writerCall ⟨5⟩ sharedNote 8 0, writerCall ⟨5⟩ teaSearch 9 1,
          writerCall ⟨2⟩ sharedNote 7 2] =
      answers deskRuntime.next deskRuntime.answer (newTools ℚ Int 1)
        [writerCall ⟨2⟩ sharedNote 7 2] := by
  rw [← filter_writerCalls]
  exact (tenants_isolated _ deskRuntime 1 (by decide +kernel)).1

def deskSearched : Except ToolError String × CloudTools ℚ Int :=
  deskRuntime.callCloud
    (some (LocalDevelopmentTokenVerifier.newVerifier.accessTokenOf deskRuntime.lib ""
      (writerClaims ⟨2⟩)))
    { arguments := teaSearch, requestId := "req_1", checked := Admin.atHour 1, reading := 0
      env := Cloud.deskEnv 7 }
    (newTools ℚ Int 1)

theorem deskSearched_isSome : deskSearched.1.toOption.isSome = true := by decide +kernel

/-- A search at the desk is answered with one line that names no owner. -/
theorem desk_search_redacted :
    ∃ text value, deskSearched.1 = .ok text ∧ '\n' ∉ text.toList ∧
      JsonValue.loads text = some value ∧ JsonValue.hasKey "owner_id" value = false := by
  have hsome := deskSearched_isSome
  cases h : deskSearched with
  | mk outcome s' =>
    rw [h] at hsome
    cases outcome with
    | error e => cases hsome
    | ok text =>
      obtain ⟨p, envelope, -, -, hline, hloads, hkey⟩ :=
        answer_redacted Mcp.printsUnits_rat h
      exact ⟨text, _, rfl, hline, hloads, hkey⟩

end OpenMemory.Server
