import OpenMemory.Cloud.Runs
import OpenMemory.Mcp.Effects
import OpenMemory.Mcp.Fakes
import OpenMemory.Mcp.Search
import OpenMemory.Store.Contradiction

/-!
# The services behind `memory.update`

`MCPAdapter` serves an update from any object that has the method, and turns what it raises into a
public code (`publicError`). Three services implement it, over ids of three kinds and with
exceptions of their own:

- The gateway reads the id as a UUID and converts the provenance before the service is called, so
  another text or a provenance that the domain does not take ends it with `ValueError` or
  `ValidationError`, whether or not the memory exists.
- The Cloud service raises `KeyError` and `ValueError`, which the mapping does not know.
- The fake raises the two exceptions that the mapping is made for.

`error_codes_agree_iff` says when a memory that is not there is reported as `not_found` and a stale
version as `version_conflict`. None of them changes its store on the way.
-/

namespace OpenMemory.Mcp

open Lib MemoryApplicationService
open Cloud (CloudError TenantEnvelopeEncryptor EncryptedCloudMemoryService CloudMemory CloudPatch PyObj
  PyDict PyKey)

variable {R : Type} [Python R] {Arguments : Type}

/-! ## The Cloud service -/

/-- An exception of the Cloud service as the adapter sees it. -/
def ofCloudError : CloudError → PyError
  | .permissionError _ => .foreign "PermissionError" none
  | .kmsUnavailableError _ => .foreign "KMSUnavailableError" none
  | .valueError message => .valueError message
  | .keyError _ => .keyError
  | .typeError => .foreign "TypeError" none
  | .attributeError => .foreign "AttributeError" none

/-- The patch of the dumped request, as the Cloud service reads it: it has no provenance. -/
def cloudPatch (patch : MemoryPatch R) : CloudPatch R where
  content := patch.content.map fun text => text.val.val
  type := patch.type.map fun t => .str t.value
  space := patch.space.map fun text => .str text.val
  importance := patch.importance.map fun x => .float x.val
  confidence := patch.confidence.map fun x => .float x.val
  state := patch.state.map fun st => .str st.value

def cloudPayload (request : UpdateRequest R) : Cloud.UpdatePayload R where
  ownerId := request.ownerId.val
  id := request.id.val
  expectedVersion := request.expectedVersion.val
  patch := cloudPatch request.patch

/-! ## The fake -/

/-- One item of a dump without nulls. -/
def item (key : String) (value : Option (PyObj R)) : PyDict R :=
  (value.map fun value => (PyKey.str key, value)).toList

/-- The dump of a provenance. -/
def provenanceItems (p : WireProvenance) : PyDict R :=
  item "source_type" (some (.str p.sourceType.value)) ++
    item "captured_at" (some (.str p.capturedAt.val)) ++
    item "source_id" (p.sourceId.map fun text => .str text.val) ++
    item "source_model" (p.sourceModel.map fun text => .str text.val) ++
    item "evidence" (p.evidence.map fun text => .str text.val)

/-- The dump of a patch. -/
def patchItems (patch : MemoryPatch R) : PyDict R :=
  item "content" (patch.content.map fun text => .str text.val.val) ++
    item "type" (patch.type.map fun t => .str t.value) ++
    item "space" (patch.space.map fun text => .str text.val) ++
    item "importance" (patch.importance.map fun x => .float x.val) ++
    item "confidence" (patch.confidence.map fun x => .float x.val) ++
    item "state" (patch.state.map fun st => .str st.value) ++
    item "provenance" (patch.provenance.map fun p => .dict (provenanceItems p))

/-- `record[key] = value` for each of the items. -/
def assignItems (items record : PyDict R) : PyDict R :=
  items.foldl (fun record item => Dict.setItems item.1 item.2 record) record

/-- The record with the patch assigned, and the provenance of the request after it. -/
def patched (request : UpdateRequest R) (record : PyDict R) : PyDict R :=
  assignItems (item "provenance" (request.provenance.map fun p => .dict (provenanceItems p)))
    (assignItems (patchItems request.patch) record)

/-- `update`; `now` is what `_now` returns. The record is assigned to in place. -/
def InMemoryMemoryService.update (now : String) (request : UpdateRequest R)
    (s : InMemoryMemoryService R) : Except PyError (PyDict R) × InMemoryMemoryService R :=
  match s.records.get? request.id.val with
  | none => (.error (.foreign "NotFoundError" none), s)
  | some record =>
    if (record.get "owner_id").isNone then (.error .keyError, s)
    else if record.getText "owner_id" ≠ some request.ownerId.val then
      (.error (.foreign "NotFoundError" none), s)
    else
      match record.get "version" with
      | none => (.error .keyError, s)
      | some version =>
        if version.eqInt request.expectedVersion.val = false then
          (.error (.foreign "VersionConflictError" none), s)
        else
          match version.succ with
          | .error e =>
            (.error (ofCloudError e),
              { s with records := s.records.set request.id.val (patched request record) })
          | .ok next =>
            let record := PyDict.set (PyDict.set (patched request record) "version" next)
              "updated_at" (.str now)
            (.ok record, { s with records := s.records.set request.id.val record })

/-! ## The three services -/

/-- A service that the adapter can be given. What pydantic makes of the record of a service without
a type for it is a parameter. -/
inductive UpdateService (R : Type) [Python R]
  | gateway (service : MemoryApplicationService R)
  | cloud (encryptor : TenantEnvelopeEncryptor) (env : Cloud.Environment)
      (validate : CloudMemory R → Except PyError (MemoryRecord R))
  | fake (now : String) (validate : PyDict R → Except PyError (MemoryRecord R))

namespace UpdateService

def Store : UpdateService R → Type
  | gateway _ => InMemoryStore R
  | cloud _ _ _ => EncryptedCloudMemoryService R
  | fake _ _ => InMemoryMemoryService R

/-- `_dispatch` of an update: the answer of the service, validated. -/
def update : (b : UpdateService R) → UpdateRequest R → b.Store →
    Except PyError (ResponseData R) × b.Store
  | gateway service => fun request s =>
    MCPAdapter.respond (gatewayUpdate service (inMemoryUnitOfWork R) request) (fun memory => do
      let record ← MemoryRecord.modelValidate memory
      pure (.update record)) s
  | cloud encryptor env validate => fun request s =>
    (match (Cloud.update encryptor env (cloudPayload request) s).1 with
      | .error e => .error (ofCloudError e)
      | .ok result => (validate result.memory).map .update,
      (Cloud.update encryptor env (cloudPayload request) s).2)
  | fake now validate => fun request s =>
    ((InMemoryMemoryService.update now request s).1 >>= fun record =>
      (validate record).map .update, (InMemoryMemoryService.update now request s).2)

/-- The key of the request is new to the ledger; only the service behind the gateway keeps one. -/
def FreshKey : (b : UpdateService R) → b.Store → UpdateRequest R → Prop
  | gateway _ => fun s request => s.idempotencyOperations.get? (ledgerKey request) = none
  | cloud _ _ _ => fun _ _ => True
  | fake _ _ => fun _ _ => True

/-- The version that a record has, if any, is the one expected. -/
def versionIs (fields : PyDict R) (expected : Int) : Bool :=
  ((fields.get "version").map (·.eqInt expected)).getD false

/-- The owner of the request has no memory of that id: it is another text, or nothing is stored under
it, or a memory of somebody else. -/
def Missing : (b : UpdateService R) → b.Store → UpdateRequest R → Prop
  | gateway _ => fun s request =>
    ∀ id, Python.parseUuid R request.id.val = some id → s.lookup request.ownerId.val id none = none
  | cloud _ _ _ => fun s request =>
    ∀ r, s.records.get? request.id.val = some r → r.ownerId ≠ request.ownerId.val
  | fake _ _ => fun s request =>
    ∀ record, s.records.get? request.id.val = some record →
      record.getText "owner_id" ≠ some request.ownerId.val

/-- The owner has a memory of that id, at another version than the one expected. -/
def Stale : (b : UpdateService R) → b.Store → UpdateRequest R → Prop
  | gateway _ => fun s request =>
    ∃ id m, Python.parseUuid R request.id.val = some id ∧
      s.lookup request.ownerId.val id none = some m ∧ m.version ≠ request.expectedVersion.val
  | cloud _ _ _ => fun s request =>
    ∃ r, s.records.get? request.id.val = some r ∧ r.ownerId = request.ownerId.val ∧
      versionIs r.fields request.expectedVersion.val = false
  | fake _ _ => fun s request =>
    ∃ record, s.records.get? request.id.val = some record ∧
      record.getText "owner_id" = some request.ownerId.val ∧
      versionIs record request.expectedVersion.val = false

/-- The service comes to look for the memory, and names what it finds as the mapping expects: the
gateway can read the id and convert the provenance and the domain takes the owner; a record of the
fake has the keys that are looked at. The Cloud service never does. -/
def Names : (b : UpdateService R) → b.Store → UpdateRequest R → Prop
  | gateway _ => fun _ request =>
    (∃ id, Python.parseUuid R request.id.val = some id) ∧
      (∃ p, optional (provenance R) (request.patch.provenance.or request.provenance) = .ok p) ∧
      ∃ owner, validateOwnerId request.ownerId.val = .ok owner
  | cloud _ _ _ => fun _ _ => False
  | fake _ _ => fun s request =>
    ∀ record, s.records.get? request.id.val = some record →
      (record.get "owner_id").isSome = true ∧
        (record.getText "owner_id" = some request.ownerId.val → (record.get "version").isSome = true)

end UpdateService

namespace MCPAdapter

/-- `call_tool("memory.update", …)` of the adapter, when it is given this service. -/
def callUpdate (adapter : MCPAdapter R Arguments) (b : UpdateService R) (arguments : Arguments)
    (requestId : Option String) (s : b.Store) : Except PyError (Envelope R) × b.Store :=
  let rid := adapter.answerId requestId
  if adapter.allow = false then
    (failure rid ⟨.rateLimited, "rate limit exceeded", true⟩, s)
  else
    match adapter.coercion.update arguments >>= UpdateRequest.modelValidate with
    | .error e => (failure rid (publicError e), s)
    | .ok request =>
      if adapter.localMode = false then
        (failure rid ⟨.forbidden, "local owner payload is not accepted", false⟩, s)
      else
        (match (b.update request s).1 >>= success rid with
          | .ok envelope => .ok envelope
          | .error e => failure rid (publicError e), (b.update request s).2)

/-- Over the gateway it is the call of the adapter itself. -/
theorem callUpdate_gateway (adapter : MCPAdapter R Arguments) (arguments : Arguments)
    (requestId : Option String) (s : InMemoryStore R) :
    adapter.callUpdate (.gateway adapter.service) arguments requestId s
      = adapter.callTool "memory.update" arguments requestId s := by
  unfold callUpdate callTool parse
  rw [if_neg (show ¬"memory.update" ∉ tools by decide),
    if_neg (show ¬"memory.update" = "memory.write" by decide),
    if_neg (show ¬"memory.update" = "memory.search" by decide),
    if_pos (show "memory.update" = "memory.update" from rfl)]
  cases adapter.coercion.update arguments >>= UpdateRequest.modelValidate with
  | error e => rfl
  | ok request => rfl

/-- An admitted call with acceptable arguments answers with what the service returns. -/
theorem callUpdate_parsed {adapter : MCPAdapter R Arguments} {b : UpdateService R}
    {arguments : Arguments} {requestId : Option String} {request : UpdateRequest R}
    (hadmits : adapter.Admits requestId)
    (hparse : adapter.coercion.update arguments >>= UpdateRequest.modelValidate = .ok request)
    (s : b.Store) :
    ∃ rid, adapter.callUpdate b arguments requestId s =
      (.ok (match (b.update request s).1 with
        | .ok data => .success rid data
        | .error e => .failure rid (publicError e)), (b.update request s).2) := by
  obtain ⟨hallow, hlocal, rid, hrid⟩ := hadmits
  refine ⟨rid, ?_⟩
  unfold callUpdate
  rw [if_neg (by simp [hallow]), hparse]
  dsimp only
  rw [if_neg (by simp [hlocal])]
  cases (b.update request s).1 with
  | ok data =>
    unfold success
    dsimp only [bind, Except.bind]
    rw [hrid]
    rfl
  | error e =>
    unfold failure
    dsimp only [bind, Except.bind]
    rw [hrid]
    rfl

end MCPAdapter

/-! ## The gateway -/

/-- The exception is reported as neither of the two codes. -/
def Blunt (e : PyError) : Prop :=
  (publicError e).code ≠ .notFound ∧ (publicError e).code ≠ .versionConflict

/-- A `ValueError` is blunt, whatever it says. -/
theorem blunt_valueError (message : String) : Blunt (.valueError message) := by
  constructor <;> nofun

theorem blunt_validation (message : String) : Blunt (.validation message) := by
  constructor <;> nofun

theorem blunt_overflowError : Blunt .overflowError := by
  constructor <;> nofun

/-- Whatever the computation raises is reported as neither of them. -/
def RaisesBlunt {α : Type} (x : Except PyError α) : Prop := ∀ e, x = .error e → Blunt e

namespace RaisesBlunt

variable {α β : Type}

/-- A sequence of blunt checks is blunt. -/
theorem bind {x : Except PyError α} {f : α → Except PyError β} (hx : RaisesBlunt x)
    (hf : ∀ a, RaisesBlunt (f a)) : RaisesBlunt (x >>= f) := by
  intro e h
  cases x with
  | error e' =>
    cases h
    exact hx e rfl
  | ok a => exact hf a e h

theorem pure (a : α) : RaisesBlunt (Pure.pure a : Except PyError α) := by
  intro e h
  cases h

theorem raiseIf (c : Bool) (message : String) :
    RaisesBlunt (OpenMemory.raiseIf c (.validation message) : Except PyError Unit) := by
  intro e h
  cases c with
  | false => cases h
  | true =>
    cases h
    exact blunt_validation message

/-- A text that names no member of an enumeration is a blunt error. -/
theorem enumOf (ofValue : String → Option α) (text : String) : RaisesBlunt (enumOf ofValue text) := by
  intro e h
  unfold Mcp.enumOf at h
  split at h
  · cases h
    exact blunt_valueError _
  · cases h

/-- A check of an optional value is as blunt as the check of the value. -/
theorem optional {check : α → Except PyError β} (hcheck : ∀ a, RaisesBlunt (check a))
    (value : Option α) : RaisesBlunt (optional check value) := by
  intro e h
  cases value with
  | none => cases h
  | some a =>
    cases hone : check a with
    | error e' =>
      rw [Mcp.optional, hone] at h
      cases h
      exact hcheck a e hone
    | ok b =>
      rw [Mcp.optional, hone] at h
      cases h

/-- A time without an offset is a blunt error. -/
theorem ensureAware (d : DateTime) (field : String) : RaisesBlunt (ensureAware d field) := by
  intro e h
  unfold OpenMemory.ensureAware at h
  split at h
  · cases h
    exact blunt_validation _
  · split at h
    · cases h
    · cases h
      exact blunt_overflowError

theorem checkOpaqueId (value : Option String) (field : String) :
    RaisesBlunt (checkOpaqueId value field) :=
  (raiseIf _ _).bind fun _ => raiseIf _ _

/-- So is what the checks on an origin raise. -/
theorem postInit (f : ProvenanceFields) : RaisesBlunt f.postInit :=
  (ensureAware _ _).bind fun _ => (raiseIf _ _).bind fun _ => (raiseIf _ _).bind fun _ =>
    (raiseIf _ _).bind fun _ => (checkOpaqueId _ _).bind fun _ => (checkOpaqueId _ _).bind fun _ =>
    (checkOpaqueId _ _).bind fun _ => (checkOpaqueId _ _).bind fun _ => (raiseIf _ _).bind fun _ =>
    pure _

theorem make (f : ProvenanceFields) : RaisesBlunt (Provenance.make f) := by
  intro e h
  unfold Provenance.make construct at h
  split at h
  · cases h
  · rename_i e' hcheck
    cases h
    exact postInit f e hcheck

theorem provenance (p : WireProvenance) : RaisesBlunt (provenance R p) := by
  refine (enumOf _ _).bind fun _ => bind ?_ fun _ => make _
  intro e h
  unfold datetime at h
  split at h
  · cases h
    exact blunt_valueError _
  · cases h

/-- Making a command of a request raises blunt errors only. -/
theorem updateCommand (request : UpdateRequest R) : RaisesBlunt (updateCommand request) := by
  unfold Mcp.updateCommand
  cases Python.parseUuid R request.id.val with
  | none =>
    intro e h
    cases h
    exact blunt_valueError _
  | some id =>
    exact (pure id).bind fun _ => (optional (enumOf _) _).bind fun _ =>
      (optional (enumOf _) _).bind fun _ => (optional (provenance (R := R)) _).bind fun _ => pure _

theorem validateOwnerId (value : String) : RaisesBlunt (validateOwnerId value) :=
  (raiseIf _ _).bind fun _ => (raiseIf _ _).bind fun _ => pure _

end RaisesBlunt

/-- A request becomes a command exactly when its id and its provenance are read. -/
theorem exists_updateCommand_iff {request : UpdateRequest R} :
    (∃ command, updateCommand request = .ok command) ↔
      (∃ id, Python.parseUuid R request.id.val = some id) ∧
        ∃ p, optional (provenance R) (request.patch.provenance.or request.provenance) = .ok p := by
  have htype : ∃ t, optional (enumOf MemoryType.ofValue) (request.patch.type.map WireType.value)
      = .ok t := by
    cases request.patch.type with
    | none => exact ⟨_, rfl⟩
    | some t => cases t <;> exact ⟨_, rfl⟩
  have hstate : ∃ st, optional (enumOf MemoryState.ofValue)
      (request.patch.state.map WireState.value) = .ok st := by
    cases request.patch.state with
    | none => exact ⟨_, rfl⟩
    | some st => cases st <;> exact ⟨_, rfl⟩
  obtain ⟨t, ht⟩ := htype
  obtain ⟨st, hst⟩ := hstate
  unfold updateCommand
  constructor
  · rintro ⟨command, h⟩
    cases hid : Python.parseUuid R request.id.val with
    | none =>
      rw [hid] at h
      cases h
    | some id =>
      simp only [hid, except_bind_ok] at h
      obtain ⟨_, -, _, -, _, -, p, hp, -⟩ := h
      exact ⟨⟨id, rfl⟩, p, hp⟩
  · rintro ⟨⟨id, hid⟩, p, hp⟩
    rw [hid]
    simp only [except_bind_ok, except_pure_ok]
    exact ⟨_, id, rfl, t, ht, st, hst, p, hp, rfl⟩

/-- The command names the memory that the id is the text of. -/
theorem updateCommand_names {request : UpdateRequest R} {command : UpdateMemoryCommand R}
    (h : updateCommand request = .ok command) :
    Python.parseUuid R request.id.val = some command.memoryId ∧
      command.expectedVersion = request.expectedVersion.val := by
  unfold updateCommand at h
  cases hid : Python.parseUuid R request.id.val with
  | none =>
    rw [hid] at h
    cases h
  | some id =>
    simp only [hid, except_bind_ok, except_pure_ok] at h
    obtain ⟨id', hid', _, -, _, -, _, -, rfl⟩ := h
    cases hid'
    exact ⟨rfl, rfl⟩

section Gateway

variable {svc : MemoryApplicationService R} {request : UpdateRequest R}
  {command : UpdateMemoryCommand R} {s : InMemoryStore R}

/-- What ends the call of the service ends the dispatch, on the store of before. -/
theorem gateway_update_error {e : PyError}
    (h : (gatewayUpdate svc (inMemoryUnitOfWork R) request).run s = .error e) :
    (UpdateService.gateway svc).update request s = (.error e, s) := by
  show MCPAdapter.respond _ _ s = _
  unfold MCPAdapter.respond
  rw [Txn.attempt_error.mpr ⟨h, rfl⟩]
  rfl

/-- An update whose memory is not there, or not at the version expected, under a new key. -/
theorem update_run_error {e : PyError} {owner : String} (hcommand : UpdateOf request command)
    (howner : validateOwnerId command.ownerId = .ok owner)
    (hfresh : s.idempotencyOperations.get? (ledgerKey request) = none)
    (hbody : ∀ s', s'.memories = s.memories →
      (svc.updateBody (inMemoryUnitOfWork R) command).run s' = .error e) :
    (svc.update (inMemoryUnitOfWork R) command).run s = .error e := by
  unfold update
  rw [Txn.run_bind_of_ok (Txn.ofExcept_ok.mpr ⟨howner, rfl⟩), hcommand.truthyKey]
  dsimp only
  have hnew : s.idempotencyOperations.get?
      (command.ownerId, .update, request.idempotencyKey.val) = none := by
    rw [hcommand.ownerId]
    exact hfresh
  rw [Txn.run_bind_of_ok (claim_run _ hnew), if_neg Bool.false_ne_true]
  exact Txn.run_bind_of_error (hbody (s.record _ _) rfl)

/-- A memory that is not there is not found. -/
theorem currentAt_none {o : String} {i : UUID} {v : Int} (message : Memory R → String)
    (h : s.lookup o i none = none) :
    (currentAt (inMemoryUnitOfWork R) o none i v message).run s
      = .error (.notFound "memory was not found") := by
  have hget : ((inMemoryUnitOfWork R).memories.get o i none).run s = .ok (none, s) := by
    show Except.ok (s.lookup o i none, s) = _
    rw [h]
  unfold currentAt
  rw [Txn.run_bind_of_ok hget]
  rfl

/-- One at another version is in conflict. -/
theorem currentAt_stale {o : String} {i : UUID} {v : Int} {m : Memory R}
    (message : Memory R → String) (h : s.lookup o i none = some m) (hversion : m.version ≠ v) :
    (currentAt (inMemoryUnitOfWork R) o none i v message).run s
      = .error (.omp .versionConflictError (message m)) := by
  have hget : ((inMemoryUnitOfWork R).memories.get o i none).run s = .ok (some m, s) := by
    show Except.ok (s.lookup o i none, s) = _
    rw [h]
  unfold currentAt
  rw [Txn.run_bind_of_ok hget]
  dsimp only
  rw [decide_eq_true hversion]
  rfl

/-- A request that becomes no command, or whose owner the domain refuses. -/
theorem gateway_update_blunt
    (h : ¬(UpdateService.gateway svc).Names s request) :
    ∃ e, (UpdateService.gateway svc).update request s = (.error e, s) ∧ Blunt e := by
  cases hcommand : updateCommand request with
  | error e =>
    refine ⟨e, gateway_update_error ?_, RaisesBlunt.updateCommand request e hcommand⟩
    exact Txn.run_bind_of_error (by rw [Txn.run_ofExcept, hcommand]; rfl)
  | ok command =>
    obtain ⟨hid, hp⟩ := exists_updateCommand_iff.mp ⟨command, hcommand⟩
    cases howner : validateOwnerId request.ownerId.val with
    | ok owner => exact absurd ⟨hid, hp, owner, howner⟩ h
    | error e =>
      refine ⟨e, gateway_update_error ?_, RaisesBlunt.validateOwnerId _ e howner⟩
      unfold gatewayUpdate
      rw [Txn.run_bind_of_ok (Txn.ofExcept_ok.mpr ⟨hcommand, rfl⟩)]
      refine Txn.run_bind_of_error ?_
      unfold update
      rw [(updateCommand_ok hcommand).ownerId]
      exact Txn.run_bind_of_error (by rw [Txn.run_ofExcept, howner]; rfl)

/-- A request that does is answered by the body of the update. -/
theorem gateway_update_named {e : PyError} (h : (UpdateService.gateway svc).Names s request)
    (hfresh : s.idempotencyOperations.get? (ledgerKey request) = none)
    (hbody : ∀ (command : UpdateMemoryCommand R) (s' : InMemoryStore R),
      Python.parseUuid R request.id.val = some command.memoryId →
      command.expectedVersion = request.expectedVersion.val →
      command.ownerId = request.ownerId.val → s'.memories = s.memories →
      (svc.updateBody (inMemoryUnitOfWork R) command).run s' = .error e) :
    (UpdateService.gateway svc).update request s = (.error e, s) := by
  obtain ⟨hid, hp, owner, howner⟩ := h
  obtain ⟨command, hcommand⟩ := exists_updateCommand_iff.mpr ⟨hid, hp⟩
  have hof := updateCommand_ok hcommand
  obtain ⟨hnamed, hversion⟩ := updateCommand_names hcommand
  refine gateway_update_error ?_
  unfold gatewayUpdate
  rw [Txn.run_bind_of_ok (Txn.ofExcept_ok.mpr ⟨hcommand, rfl⟩)]
  rw [← hof.ownerId] at howner
  exact Txn.run_bind_of_error (update_run_error hof howner hfresh fun s' =>
    hbody command s' hnamed hversion hof.ownerId)

end Gateway

/-! ## The Cloud service -/

section CloudService

variable {encryptor : TenantEnvelopeEncryptor} {env : Cloud.Environment}
  {validate : CloudMemory R → Except PyError (MemoryRecord R)} {request : UpdateRequest R}
  {s : EncryptedCloudMemoryService R}

/-- An update that Cloud refuses is refused with its error. -/
theorem cloud_update_error {e : CloudError}
    (h : Cloud.update encryptor env (cloudPayload request) s = (.error e, s)) :
    (UpdateService.cloud encryptor env validate).update request s = (.error (ofCloudError e), s) := by
  show ((match (Cloud.update encryptor env (cloudPayload request) s).1 with
    | .error e => .error (ofCloudError e)
    | .ok result => (validate result.memory).map .update,
    (Cloud.update encryptor env (cloudPayload request) s).2) :
      Except PyError (ResponseData R) × EncryptedCloudMemoryService R) = _
  rw [h]

/-- A record that is not let through is not assigned to. -/
theorem cloud_update_of_check {r : Cloud.StoredRecord R} {e : CloudError}
    (hr : s.records.get? request.id.val = some r)
    (hcheck : Cloud.checkUpdate (cloudPayload request) r = .error e) :
    Cloud.update encryptor env (cloudPayload request) s = (.error e, s) := by
  have hrun : (Cloud.patchContent encryptor env s (cloudPayload request) r).run 0 = .error e :=
    Txn.run_bind_of_error (by rw [Txn.run_ofExcept, hcheck]; rfl)
  unfold Cloud.update
  rw [show s.records.get? (cloudPayload request).id = some r from hr]
  dsimp only
  rw [hrun]

/-- Cloud finds no record under an id that is somebody else's. -/
theorem cloud_update_missing
    (h : ∀ r, s.records.get? request.id.val = some r → r.ownerId ≠ request.ownerId.val) :
    Cloud.update encryptor env (cloudPayload request) s = (.error (.keyError "not found"), s) := by
  cases hr : s.records.get? request.id.val with
  | none =>
    unfold Cloud.update
    rw [show s.records.get? (cloudPayload request).id = none from hr]
  | some r =>
    have hne : r.ownerId ≠ (cloudPayload request).ownerId := h r hr
    exact cloud_update_of_check hr (if_pos hne)

variable (encryptor env) in
/-- At another version, or at none, the service raises `ValueError` or `KeyError`. -/
theorem cloud_update_stale {r : Cloud.StoredRecord R} (hr : s.records.get? request.id.val = some r)
    (howner : r.ownerId = request.ownerId.val)
    (hversion : UpdateService.versionIs r.fields request.expectedVersion.val = false) :
    ∃ e, Cloud.update encryptor env (cloudPayload request) s = (.error e, s) ∧
      (publicError (ofCloudError e)).code ≠ .versionConflict := by
  have hsame : r.ownerId = (cloudPayload request).ownerId := howner
  unfold UpdateService.versionIs at hversion
  cases hget : r.fields.get "version" with
  | none =>
    refine ⟨.keyError "version", cloud_update_of_check hr ?_, by nofun⟩
    unfold Cloud.checkUpdate
    rw [if_neg (not_not.mpr hsame), hget]
  | some version =>
    rw [hget] at hversion
    have hother : version.eqInt (cloudPayload request).expectedVersion = false := hversion
    refine ⟨.valueError "version conflict", cloud_update_of_check hr ?_, by nofun⟩
    unfold Cloud.checkUpdate
    rw [if_neg (not_not.mpr hsame), hget]
    dsimp only
    rw [hother]
    rfl

end CloudService

/-! ## The fake -/

section Fake

variable {now : String} {validate : PyDict R → Except PyError (MemoryRecord R)}
  {request : UpdateRequest R} {s : InMemoryMemoryService R}

/-- An update that the fake refuses is refused with its error. -/
theorem fake_update_error {e : PyError} (h : InMemoryMemoryService.update now request s = (.error e, s)) :
    (UpdateService.fake now validate).update request s = (.error e, s) := by
  show (((InMemoryMemoryService.update now request s).1 >>= fun record =>
    (validate record).map .update, (InMemoryMemoryService.update now request s).2) :
      Except PyError (ResponseData R) × InMemoryMemoryService R) = _
  rw [h]
  rfl

omit [Python R] in
theorem get_of_getText {record : PyDict R} {key text : String}
    (h : record.getText key = some text) : ∃ value, record.get key = some value := by
  unfold PyDict.getText at h
  cases hget : record.get key with
  | none =>
    rw [hget] at h
    cases h
  | some value => exact ⟨value, rfl⟩

variable (now) in
/-- The record under the id, if any, is not the owner's. -/
theorem fake_update_missing
    (h : ∀ record, s.records.get? request.id.val = some record →
      record.getText "owner_id" ≠ some request.ownerId.val) :
    ∃ e, InMemoryMemoryService.update now request s = (.error e, s) ∧
      ((publicError e).code = .notFound ↔
        ∀ record, s.records.get? request.id.val = some record →
          (record.get "owner_id").isSome = true) := by
  unfold InMemoryMemoryService.update
  cases hr : s.records.get? request.id.val with
  | none => exact ⟨_, rfl, iff_of_true rfl (by nofun)⟩
  | some record =>
    dsimp only
    cases howner : record.get "owner_id" with
    | none =>
      rw [if_pos (show (none : Option (PyObj R)).isNone = true from rfl)]
      refine ⟨_, rfl, iff_of_false (by nofun) fun hall => ?_⟩
      have hsome := hall record rfl
      rw [howner] at hsome
      cases hsome
    | some owner =>
      rw [if_neg (by simp), if_pos (h record hr)]
      refine ⟨_, rfl, iff_of_true rfl ?_⟩
      rintro _ ⟨⟩
      rw [howner]
      rfl

variable (now) in
/-- The owner's record is at another version, or has none. -/
theorem fake_update_stale {record : PyDict R} (hr : s.records.get? request.id.val = some record)
    (howner : record.getText "owner_id" = some request.ownerId.val)
    (hversion : UpdateService.versionIs record request.expectedVersion.val = false) :
    ∃ e, InMemoryMemoryService.update now request s = (.error e, s) ∧
      ((publicError e).code = .versionConflict ↔ (record.get "version").isSome = true) := by
  obtain ⟨owner, hsome⟩ := get_of_getText howner
  unfold UpdateService.versionIs at hversion
  unfold InMemoryMemoryService.update
  rw [hr]
  dsimp only
  rw [if_neg (by rw [hsome]; exact Bool.false_ne_true), if_neg (not_not.mpr howner)]
  cases hget : record.get "version" with
  | none => exact ⟨_, rfl, iff_of_false (by nofun) Bool.false_ne_true⟩
  | some version =>
    rw [hget] at hversion
    have hother : version.eqInt request.expectedVersion.val = false := hversion
    dsimp only
    rw [if_pos hother]
    exact ⟨_, rfl, iff_of_true rfl rfl⟩

end Fake

/-! ## What each service answers -/

namespace UpdateService

/-- The service refuses the request and keeps its store; the exception is reported with the code
exactly if the service names what it finds. -/
def Refuses (b : UpdateService R) (s : b.Store) (request : UpdateRequest R)
    (code : PublicErrorCode) : Prop :=
  ∃ e, b.update request s = (.error e, s) ∧ ((publicError e).code = code ↔ b.Names s request)

/-- Where the refusal has one of the two codes, the gateway answers with the same. -/
theorem gateway_refuses {svc : MemoryApplicationService R} {s : InMemoryStore R}
    {request : UpdateRequest R} {e : PyError} {code : PublicErrorCode}
    (hcode : code = .notFound ∨ code = .versionConflict) (he : (publicError e).code = code)
    (hnamed : (gateway svc).Names s request →
      (gateway svc).update request s = (.error e, s)) :
    (gateway svc).Refuses s request code := by
  by_cases h : (gateway svc).Names s request
  · exact ⟨e, hnamed h, iff_of_true he h⟩
  · obtain ⟨e', hupdate, hnotFound, hconflict⟩ :
        ∃ e, (gateway svc).update request s = (.error e, s) ∧ Blunt e := gateway_update_blunt h
    refine ⟨e', hupdate, iff_of_false ?_ h⟩
    rcases hcode with rfl | rfl
    · exact hnotFound
    · exact hconflict

/-- A memory that is not there. -/
theorem refuses_missing {b : UpdateService R} {s : b.Store} {request : UpdateRequest R}
    (hfresh : b.FreshKey s request) (h : b.Missing s request) :
    b.Refuses s request .notFound := by
  cases b with
  | gateway svc =>
    refine gateway_refuses (.inl rfl) (e := .notFound "memory was not found") rfl fun hnames =>
      gateway_update_named hnames hfresh fun command s' hid _ howner hsame => ?_
    have hnone : s'.lookup command.ownerId command.memoryId none = none := by
      rw [howner, InMemoryStore.lookup, hsame]
      exact h _ hid
    exact Txn.run_bind_of_error (currentAt_none _ hnone)
  | cloud encryptor env validate =>
    exact ⟨_, cloud_update_error (cloud_update_missing h), iff_of_false (by nofun) id⟩
  | fake now validate =>
    obtain ⟨e, hupdate, hcode⟩ := fake_update_missing now h
    refine ⟨e, fake_update_error hupdate, hcode.trans ?_⟩
    exact ⟨fun hall record hr => ⟨hall record hr, fun howner => absurd howner (h record hr)⟩,
      fun hall record hr => (hall record hr).1⟩

/-- A memory at another version. -/
theorem refuses_stale {b : UpdateService R} {s : b.Store} {request : UpdateRequest R}
    (hfresh : b.FreshKey s request) (h : b.Stale s request) :
    b.Refuses s request .versionConflict := by
  cases b with
  | gateway svc =>
    obtain ⟨id, m, hparse, hlive, hversion⟩ := h
    refine gateway_refuses (.inr rfl) (e := .omp .versionConflictError
      ("expected version " ++ toString request.expectedVersion.val ++ ", current version " ++
        toString m.version)) rfl fun hnames =>
      gateway_update_named hnames hfresh fun command s' hid hexpected howner hsame => ?_
    obtain rfl : id = command.memoryId := Option.some.inj (hparse.symm.trans hid)
    have hsome : s'.lookup command.ownerId command.memoryId none = some m := by
      rw [howner, InMemoryStore.lookup, hsame]
      exact hlive
    rw [← hexpected] at hversion ⊢
    exact Txn.run_bind_of_error (currentAt_stale _ hsome hversion)
  | cloud encryptor env validate =>
    obtain ⟨r, hr, howner, hversion⟩ := h
    obtain ⟨e, hupdate, hcode⟩ := cloud_update_stale encryptor env hr howner hversion
    exact ⟨_, cloud_update_error hupdate, iff_of_false hcode id⟩
  | fake now validate =>
    obtain ⟨record, hr, howner, hversion⟩ := h
    obtain ⟨e, hupdate, hcode⟩ := fake_update_stale now hr howner hversion
    refine ⟨e, fake_update_error hupdate, hcode.trans ?_⟩
    constructor
    · rintro hsome record' hr'
      cases hr.symm.trans hr'
      obtain ⟨owner, hget⟩ := get_of_getText howner
      exact ⟨by rw [hget]; rfl, fun _ => hsome⟩
    · exact fun hall => (hall record hr).2 howner

/-- The store that a service starts from. -/
def empty : (b : UpdateService R) → b.Store
  | gateway _ => ({} : InMemoryStore R)
  | cloud _ _ _ => ({} : EncryptedCloudMemoryService R)
  | fake _ _ => ({} : InMemoryMemoryService R)

end UpdateService

/-- The call is answered by a failure of that code, and the store is the one of before. -/
def Answers (adapter : MCPAdapter R Arguments) (b : UpdateService R) (arguments : Arguments)
    (requestId : Option String) (s : b.Store) (code : PublicErrorCode) : Prop :=
  ∃ rid error, adapter.callUpdate b arguments requestId s = (.ok (.failure rid error), s) ∧
    error.code = code

section

variable {adapter : MCPAdapter R Arguments} {b : UpdateService R} {arguments : Arguments}
  {requestId : Option String} {request : UpdateRequest R} {s : b.Store} {code : PublicErrorCode}

/-- A refusal reaches the client under its public code. -/
theorem UpdateService.Refuses.answers (hadmits : adapter.Admits requestId)
    (hparse : adapter.coercion.update arguments >>= UpdateRequest.modelValidate = .ok request)
    (h : b.Refuses s request code) :
    (Answers adapter b arguments requestId s code ↔ b.Names s request) ∧
      (adapter.callUpdate b arguments requestId s).2 = s := by
  obtain ⟨e, hupdate, hcode⟩ := h
  obtain ⟨rid, hcall⟩ := MCPAdapter.callUpdate_parsed hadmits hparse s
  rw [hupdate] at hcall
  refine ⟨⟨?_, fun hnames => ⟨rid, publicError e, hcall, hcode.mpr hnames⟩⟩, by rw [hcall]⟩
  rintro ⟨rid', error, hanswer, herror⟩
  obtain ⟨-, rfl⟩ := Envelope.failure.inj (Except.ok.inj (Prod.mk.inj (hcall.symm.trans hanswer)).1)
  exact hcode.mp herror

/-- Under a new key, a memory that the owner does not have is answered by `not_found` and a stale
version by `version_conflict` exactly if the service names what it finds; the store stays as it was
either way. -/
theorem error_codes_agree_iff (hadmits : adapter.Admits requestId)
    (hparse : adapter.coercion.update arguments >>= UpdateRequest.modelValidate = .ok request)
    (hfresh : b.FreshKey s request) :
    (((b.Missing s request → Answers adapter b arguments requestId s .notFound) ∧
        (b.Stale s request → Answers adapter b arguments requestId s .versionConflict)) ↔
      (b.Missing s request ∨ b.Stale s request → b.Names s request)) ∧
    (b.Missing s request ∨ b.Stale s request →
      (adapter.callUpdate b arguments requestId s).2 = s) := by
  have hmissing (h : b.Missing s request) :=
    (UpdateService.refuses_missing hfresh h).answers hadmits hparse
  have hstale (h : b.Stale s request) :=
    (UpdateService.refuses_stale hfresh h).answers hadmits hparse
  refine ⟨⟨?_, ?_⟩, ?_⟩
  · rintro ⟨hnotFound, hconflict⟩ (h | h)
    · exact (hmissing h).1.mp (hnotFound h)
    · exact (hstale h).1.mp (hconflict h)
  · intro hnames
    exact ⟨fun h => (hmissing h).1.mpr (hnames (.inl h)),
      fun h => (hstale h).1.mpr (hnames (.inr h))⟩
  · rintro (h | h)
    · exact (hmissing h).2
    · exact (hstale h).2

end

theorem trimBoth_noteId :
    trimBoth isTrimmed "00000000-0000-0000-0000-000000000007"
      = "00000000-0000-0000-0000-000000000007" := by
  decide +kernel

theorem length_noteId :
    1 ≤ "00000000-0000-0000-0000-000000000007".length
      ∧ "00000000-0000-0000-0000-000000000007".length ≤ 128 := by
  decide +kernel

theorem trimBoth_alice : trimBoth isTrimmed "alice" = "alice" := by decide

theorem length_alice : 1 ≤ "alice".length ∧ "alice".length ≤ 128 := by decide

theorem trimBoth_raiseKey : trimBoth isTrimmed "u1" = "u1" := by decide

theorem length_raiseKey : 1 ≤ "u1".length ∧ "u1".length ≤ 128 := by decide

theorem secondVersion_admitted : decide ((1 : Int) ≤ 2) = true := rfl

theorem inUnit_one : (Python.inUnit (1 : ℚ)) = true := by decide +kernel

theorem defaultTimeout_admitted :
    decide ((1 : Int) ≤ 2500 ∧ (2500 : Int) ≤ maxTimeoutMs) = true := by
  decide

/-- A v0 client raises the importance of a note. -/
def raiseImportance : UpdateDict ℚ where
  id := "00000000-0000-0000-0000-000000000007"
  ownerId := "alice"
  expectedVersion := 2
  patch := { importance := some 1 }
  idempotencyKey := "u1"

/-- The request that it makes. -/
def raiseRequest : UpdateRequest ℚ where
  id := ⟨"00000000-0000-0000-0000-000000000007", trimBoth_noteId, length_noteId⟩
  ownerId := ⟨"alice", trimBoth_alice, length_alice⟩
  expectedVersion := ⟨2, secondVersion_admitted⟩
  patch :=
    { content := none, type := none, space := none, importance := some ⟨1, inUnit_one⟩
      confidence := none, state := none, provenance := none, has_change := rfl }
  provenance := none
  idempotencyKey := ⟨"u1", trimBoth_raiseKey, length_raiseKey⟩
  timeoutMs := ⟨2500, defaultTimeout_admitted⟩

/-- The arguments of the example are read as its request. -/
theorem update_raiseImportance :
    (adapterOn 3).coercion.update (.update raiseImportance) >>= UpdateRequest.modelValidate
      = .ok raiseRequest := rfl

/-- Over the gateway the note that is not there is named. -/
theorem error_codes_agree_iff_raiseImportance :
    Answers (adapterOn 3) (.gateway (adapterOn 3).service) (.update raiseImportance) none
      ({} : InMemoryStore ℚ) .notFound :=
  ((error_codes_agree_iff (b := .gateway (adapterOn 3).service) (s := ({} : InMemoryStore ℚ))
    (admits_adapterOn 3) update_raiseImportance rfl).1.mpr fun _ =>
      ⟨⟨_, rfl⟩, ⟨_, rfl⟩, ⟨_, rfl⟩⟩).1 fun _ _ => rfl

/-- The Cloud service answers `internal_error` for it. -/
theorem cloud_hides_missing :
    ¬∀ (b : UpdateService ℚ) (adapter : MCPAdapter ℚ (TypedArguments ℚ))
      (arguments : TypedArguments ℚ) (requestId : Option String) (request : UpdateRequest ℚ),
      adapter.Admits requestId →
      adapter.coercion.update arguments >>= UpdateRequest.modelValidate = .ok request →
      b.FreshKey b.empty request →
      (b.Missing b.empty request → Answers adapter b arguments requestId b.empty .notFound) ∧
        (b.Stale b.empty request →
          Answers adapter b arguments requestId b.empty .versionConflict) := by
  intro hclaim
  obtain ⟨rid, error, hcall, hcode⟩ := (hclaim
    (.cloud Cloud.deskEncryptor (Cloud.deskEnv 7) fun _ => .error .keyError) (adapterOn 3)
    (.update raiseImportance) none raiseRequest (admits_adapterOn 3) update_raiseImportance
    trivial).1 nofun
  have hinternal : (adapterOn 3).callUpdate
      (.cloud Cloud.deskEncryptor (Cloud.deskEnv 7) fun _ => .error .keyError)
      (.update raiseImportance) none ({} : EncryptedCloudMemoryService ℚ)
      = (.ok (.failure _ (publicError .keyError)), {}) := rfl
  cases hcall.symm.trans hinternal
  cases hcode

end OpenMemory.Mcp
