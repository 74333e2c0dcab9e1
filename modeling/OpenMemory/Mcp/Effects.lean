import OpenMemory.Mcp.Projection

/-!
# Effects behind an error envelope

The service commits before the adapter validates the response, so an error envelope need not
mean that nothing happened. For three of the tools it does: a new v0 memory is representable
by construction, a search only reads, and the answer to a forget always fits. An update is
different. It lays a patch over whatever the store holds, and what the patch does not replace
may be out of reach of v0; then the new version is committed and the call reports
`validation_error`.

- `update_cases`: an update repeats an answer, or commits a version that `Covers` decides about.
- `dispatch_error`, `callTool_failure`: how a call comes to an error envelope.
-/

namespace OpenMemory.Mcp

open Lib MemoryApplicationService

variable {R : Type} [Python R] {Arguments : Type}

/-! ## Writes -/

/-- A memory that v0 writes is one that v0 can represent. -/
theorem representable_of_write {svc : MemoryApplicationService R} {request : WriteRequest R}
    {command : WriteMemoryCommand R} {at_ : DateTime} {descriptor : EmbeddingDescriptor}
    {m : Memory R} (hcommand : writeCommand request = .ok command)
    (hm : Memory.create (svc.writeArgs command at_ descriptor) = .ok m) :
    V0Representable m ∧ (trimBoth isTrimmed m.ownerId).length ≤ 128 := by
  obtain ⟨-, howner, -, -, -, hstate⟩ := Memory.create_ok hm
  obtain ⟨hcontent, htype, hspace, horigin⟩ := Memory.create_holds hm
  simp only [writeCommand, except_bind_ok, except_pure_ok] at hcommand
  obtain ⟨type, htypeOf, p, hp, rfl⟩ := hcommand
  refine ⟨⟨htype ▸ enumOf_type_ok htypeOf, hstate ▸ List.mem_cons_self, ?_, ?_,
    horigin ▸ provenance_ok hp⟩, ?_⟩
  · rw [hcontent]
    exact (length_collapse_le _).trans request.content.bounded.2
  · intro t ht
    rw [hspace] at ht
    obtain ⟨text, -, rfl⟩ := Option.map_eq_some_iff.mp ht
    rw [text.trimmed]
    exact text.bounded.2
  · rw [howner]
    show (trimBoth isTrimmed request.ownerId.val).length ≤ 128
    rw [request.ownerId.trimmed]
    exact request.ownerId.bounded.2

/-! ## Updates -/

/-- What a patch leaves of a memory, v0 can represent. -/
structure Covers (request : UpdateRequest R) (current : Memory R) : Prop where
  type : request.patch.type = none → current.memoryType ≠ .mentalNote
  state : request.patch.state = none → current.state ∈ v0States
  content : request.patch.content = none → current.content.length ≤ maxContentLength
  space : request.patch.space = none → ∀ t ∈ current.space, (trimBoth isTrimmed t).length ≤ 128
  origin : request.patch.provenance.or request.provenance = none → V0Origin current.provenance

theorem optional_map {α β γ : Type} (check : β → Except PyError γ) (f : α → β)
    (value : Option α) : optional check (value.map f) = optional (fun a => check (f a)) value := by
  cases value <;> rfl

/-- A field that is patched with checked values has what they have. -/
theorem patched_iff {α β : Type} {P : β → Prop} {check : α → Except PyError β} {patch : Option α}
    {value : Option β} (hvalue : optional check patch = .ok value)
    (hcheck : ∀ a b, check a = .ok b → P b) (current : β) :
    P (value.getD current) ↔ (patch = none → P current) := by
  cases patch with
  | none =>
    cases hvalue
    exact ⟨fun h _ => h, fun h => h rfl⟩
  | some a =>
    cases hb : check a with
    | error e =>
      rw [optional, hb] at hvalue
      cases hvalue
    | ok b =>
      rw [optional, hb] at hvalue
      cases hvalue
      exact ⟨fun _ h => (by cases h), fun _ => hcheck a b hb⟩

theorem patched_map_iff {α β : Type} {P : β → Prop} {f : α → β} (hf : ∀ a, P (f a))
    (patch : Option α) (current : β) :
    P ((patch.map f).getD current) ↔ (patch = none → P current) := by
  cases patch with
  | none => exact ⟨fun h _ => h, fun h => h rfl⟩
  | some a => exact ⟨fun _ h => (by cases h), fun _ => hf a⟩

/-- What `updateCommand` makes of a request. -/
structure UpdateOf (request : UpdateRequest R) (command : UpdateMemoryCommand R) : Prop where
  ownerId : command.ownerId = request.ownerId.val
  idempotencyKey : command.idempotencyKey = some request.idempotencyKey.val
  relation : requestedRelation command = none
  type : optional (fun t : WireType => enumOf MemoryType.ofValue t.value) request.patch.type
    = .ok command.memoryType
  state : optional (fun st : WireState => enumOf MemoryState.ofValue st.value) request.patch.state
    = .ok command.state
  origin : optional (provenance R) (request.patch.provenance.or request.provenance)
    = .ok command.provenance
  content : command.content = request.patch.content.map fun text => text.val.val
  space : command.space = request.patch.space.map Text.val

theorem updateCommand_ok {request : UpdateRequest R} {command : UpdateMemoryCommand R}
    (h : updateCommand request = .ok command) : UpdateOf request command := by
  unfold updateCommand at h
  cases hid : Python.parseUuid R request.id.val with
  | none =>
    rw [hid] at h
    cases h
  | some id =>
    rw [hid] at h
    obtain ⟨_, -, h⟩ := except_bind_ok.mp h
    obtain ⟨type, htype, h⟩ := except_bind_ok.mp h
    obtain ⟨state, hstate, h⟩ := except_bind_ok.mp h
    obtain ⟨origin, horigin, h⟩ := except_bind_ok.mp h
    cases h
    rw [optional_map] at htype hstate
    exact ⟨rfl, rfl, rfl, htype, hstate, horigin, rfl, rfl⟩

/-- A text of the schemas that has to be there is not the empty one. -/
theorem truthyKey_text {hi : Nat} (text : Text 1 hi) : truthyKey (some text.val) = some text.val := by
  have hne : text.val ≠ "" := by
    intro hempty
    have hlen := text.bounded.1
    rw [hempty] at hlen
    exact absurd hlen (by decide)
  rw [truthyKey, Option.filter_some, if_pos (by simpa using hne)]

theorem UpdateOf.truthyKey {request : UpdateRequest R} {command : UpdateMemoryCommand R}
    (h : UpdateOf request command) :
    truthyKey command.idempotencyKey = some request.idempotencyKey.val := by
  rw [h.idempotencyKey]
  exact truthyKey_text request.idempotencyKey

/-- The new version is representable exactly when the patch covers what was not. -/
theorem representable_iff_covers {request : UpdateRequest R} {command : UpdateMemoryCommand R}
    {at_ : DateTime} {descriptor : EmbeddingDescriptor} {current m : Memory R}
    (hcommand : UpdateOf request command)
    (hm : Memory.Evolved current (updateArgs command at_ descriptor) m) :
    V0Representable m ↔ Covers request current := by
  have htype : m.memoryType ≠ .mentalNote ↔
      (request.patch.type = none → current.memoryType ≠ .mentalNote) := by
    rw [hm.memoryType]
    exact patched_iff (P := fun t => t ≠ .mentalNote) hcommand.type
      (fun t _ h => enumOf_type_ok h) current.memoryType
  have hstate : m.state ∈ v0States ↔
      (request.patch.state = none → current.state ∈ v0States) := by
    have hrequested : requestedState command = command.state := by
      unfold requestedState
      rw [hcommand.relation]
    rw [hm.state]
    show (requestedState command).getD _ ∈ _ ↔ _
    rw [hrequested]
    exact patched_iff (P := fun st => st ∈ v0States) hcommand.state
      (fun st _ h => enumOf_state_ok h) current.state
  have hcontent : m.content.length ≤ maxContentLength ↔
      (request.patch.content = none → current.content.length ≤ maxContentLength) := by
    rw [hm.content]
    show (collapse (command.content.getD current.content)).length ≤ _ ↔ _
    rw [hcommand.content]
    exact (patched_map_iff (P := fun text => (collapse text).length ≤ maxContentLength)
      (fun text => (length_collapse_le _).trans text.val.bounded.2) _ _).trans
      (by rw [current.collapse_content])
  have hspace : (∀ t ∈ m.space, (trimBoth isTrimmed t).length ≤ 128) ↔
      (request.patch.space = none →
        ∀ t ∈ current.space, (trimBoth isTrimmed t).length ≤ 128) := by
    rw [hm.space]
    show (∀ t ∈ (command.space.map some).getD current.space, _) ↔ _
    rw [hcommand.space, Option.map_map]
    refine patched_map_iff (P := fun space => ∀ t ∈ space, (trimBoth isTrimmed t).length ≤ 128)
      (fun text => ?_) _ _
    rintro t ⟨⟩
    rw [text.trimmed]
    exact text.bounded.2
  have horigin : V0Origin m.provenance ↔
      (request.patch.provenance.or request.provenance = none →
        V0Origin current.provenance) := by
    rw [hm.provenance]
    exact patched_iff hcommand.origin (fun _ _ h => provenance_ok h) current.provenance
  constructor
  · rintro ⟨h₁, h₂, h₃, h₄, h₅⟩
    exact ⟨htype.mp h₁, hstate.mp h₂, hcontent.mp h₃, hspace.mp h₄, horigin.mp h₅⟩
  · rintro ⟨h₁, h₂, h₃, h₄, h₅⟩
    exact ⟨htype.mpr h₁, hstate.mpr h₂, hcontent.mpr h₃, hspace.mpr h₄, horigin.mpr h₅⟩

/-! ## Dispatch -/

theorem gatewayWrite_ok {svc : MemoryApplicationService R} {request : WriteRequest R}
    {memory : MemoryDict R} {status : WriteStatus} {s s' : InMemoryStore R}
    (h : (gatewayWrite svc (inMemoryUnitOfWork R) request).run s = .ok ((memory, status), s')) :
    s' = s ∨ ∃ r, MemoryRecord.modelValidate memory = .ok r := by
  simp only [gatewayWrite, Txn.bind_ok, Txn.ofExcept_ok, Txn.pure_ok] at h
  obtain ⟨command, _, ⟨hcommand, rfl⟩, result, _, hwrite, hmemory, rfl⟩ := h
  obtain ⟨rfl, -⟩ := Prod.mk.inj hmemory
  refine (write_created hwrite).imp_right ?_
  rintro ⟨at_, descriptor, hm⟩
  obtain ⟨hrep, howner⟩ := representable_of_write hcommand hm
  exact (validate_memoryDict_iff howner).mpr hrep

theorem readOnly_gatewaySearch (svc : MemoryApplicationService R) (request : SearchRequest R) :
    Txn.ReadOnly (gatewaySearch svc (inMemoryUnitOfWork R) request) :=
  .bind (.ofExcept _) fun command => .bind (readOnly_search svc command) fun _ => .pure _

theorem gatewayUpdate_ok {svc : MemoryApplicationService R} {request : UpdateRequest R}
    {memory : MemoryDict R} {s s' : InMemoryStore R} :
    (gatewayUpdate svc (inMemoryUnitOfWork R) request).run s = .ok (memory, s') ↔
      ∃ command m, updateCommand request = .ok command ∧
        (svc.update (inMemoryUnitOfWork R) command).run s = .ok (m, s') ∧
        memory = memoryDict m := by
  simp only [gatewayUpdate, Txn.bind_ok, Txn.ofExcept_ok, Txn.pure_ok]
  constructor
  · rintro ⟨command, _, ⟨hcommand, rfl⟩, m, _, hrun, rfl, rfl⟩
    exact ⟨command, m, hcommand, hrun, rfl⟩
  · rintro ⟨command, m, hcommand, hrun, rfl⟩
    exact ⟨command, s, ⟨hcommand, rfl⟩, m, s', hrun, rfl, rfl⟩

/-- A dispatch that fails has changed nothing, or committed an update whose result v0 cannot
represent. -/
theorem dispatch_error {adapter : MCPAdapter R Arguments} {request : ToolRequest R} {e : PyError}
    {s s' : InMemoryStore R} (h : adapter.dispatch request s = (.error e, s')) :
    s' = s ∨ ∃ update command m, request = .update update ∧ updateCommand update = .ok command ∧
      (adapter.service.update (inMemoryUnitOfWork R) command).run s = .ok (m, s') ∧
      ¬∃ r, MemoryRecord.modelValidate (memoryDict m) = .ok r := by
  cases request with
  | write request =>
    refine (MCPAdapter.respond_error h).elim .inl ?_
    rintro ⟨⟨memory, status⟩, hrun, hresponse⟩
    refine (gatewayWrite_ok hrun).imp_right ?_
    rintro ⟨r, hr⟩
    dsimp only [bind, Except.bind] at hresponse
    rw [hr] at hresponse
    cases hresponse
  | search request =>
    refine (MCPAdapter.respond_error h).elim .inl ?_
    rintro ⟨items, hrun, -⟩
    exact .inl (readOnly_gatewaySearch adapter.service request _ _ _ hrun)
  | update request =>
    refine (MCPAdapter.respond_error h).imp_right ?_
    rintro ⟨memory, hrun, hresponse⟩
    obtain ⟨command, m, hcommand, hupdate, rfl⟩ := gatewayUpdate_ok.mp hrun
    refine ⟨request, command, m, rfl, hcommand, hupdate, ?_⟩
    rintro ⟨r, hr⟩
    dsimp only [bind, Except.bind] at hresponse
    rw [hr] at hresponse
    cases hresponse
  | forget request =>
    refine (MCPAdapter.respond_error h).elim .inl ?_
    rintro ⟨status, -, hresponse⟩
    cases hresponse

/-- An update that is carried out changes the store: its key is new to the ledger. -/
theorem ne_of_executed {s s₁ : InMemoryStore R} {key : OperationKey}
    {entry : StoredIdempotencyOperation} (hnew : s.idempotencyOperations.get? key = none) :
    s₁.record key entry ≠ s := by
  intro heq
  have hentry : (s₁.record key entry).idempotencyOperations.get? key = some entry :=
    Dict.get?_set_self _ _ _
  rw [heq, hnew] at hentry
  cases hentry

/-- The key of an update in the ledger. -/
def ledgerKey (request : UpdateRequest R) : OperationKey :=
  (request.ownerId.val, .update, request.idempotencyKey.val)

/-- An update repeats an answer, or commits a new version of the live memory; the record of
that one is valid when the patch covers what it must. -/
theorem update_cases {svc : MemoryApplicationService R} {request : UpdateRequest R}
    {command : UpdateMemoryCommand R} {m : Memory R} {s s' : InMemoryStore R}
    (hcommand : UpdateOf request command)
    (h : (svc.update (inMemoryUnitOfWork R) command).run s = .ok (m, s')) :
    (s' = s ∧ s.idempotencyOperations.get? (ledgerKey request) ≠ none) ∨
    (s' ≠ s ∧ s.idempotencyOperations.get? (ledgerKey request) = none ∧
      ∃ current, s.lookup command.ownerId command.memoryId none = some current ∧
        ((∃ r, MemoryRecord.modelValidate (memoryDict m) = .ok r) ↔ Covers request current)) := by
  rcases update_ok h with ⟨hnone, -⟩ | ⟨k, hk, hmutated⟩
  · rw [hcommand.truthyKey] at hnone
    cases hnone
  obtain rfl : request.idempotencyKey.val = k := by
    rw [hcommand.truthyKey] at hk
    exact Option.some.inj hk
  have hkey : ledgerKey request = (command.ownerId, .update, request.idempotencyKey.val) := by
    rw [hcommand.ownerId]
    rfl
  rw [hkey]
  cases hmutated with
  | replayed hprior =>
    refine .inl ⟨rfl, ?_⟩
    rw [hprior.entry]
    nofun
  | executed hnew hran =>
    obtain ⟨⟨current, at_, descriptor, _, -, hversion, -⟩, -, -⟩ := hran
    refine .inr ⟨ne_of_executed hnew, hnew, current, hversion.live, ?_⟩
    have hevolved := Memory.evolve_ok hversion.evolved
    have howner : (trimBoth isTrimmed m.ownerId).length ≤ 128 := by
      obtain ⟨-, howner, -⟩ := InMemoryStore.lookup_eq_some.mp hversion.live
      rw [hevolved.identity.ownerId, howner, hcommand.ownerId, request.ownerId.trimmed]
      exact request.ownerId.bounded.2
    exact (validate_memoryDict_iff howner).trans (representable_iff_covers hcommand hevolved)

/-! ## Calls -/

/-- Only `memory.update` parses to an update. -/
theorem name_of_parse {adapter : MCPAdapter R Arguments} {name : String} {arguments : Arguments}
    {request : UpdateRequest R} (h : adapter.parse name arguments = .ok (.update request)) :
    name = "memory.update" := by
  unfold MCPAdapter.parse at h
  have hmap : ∀ {α : Type} {x : Except PyError α} {f : α → ToolRequest R},
      (∀ a, f a ≠ .update request) → x.map f ≠ .ok (.update request) := by
    intro α x f hf hx
    cases x with
    | error e => cases hx
    | ok a => exact hf a (Except.ok.inj hx)
  split at h
  · exact absurd h (hmap fun _ => nofun)
  split at h
  · exact absurd h (hmap fun _ => nofun)
  split at h
  · assumption
  · exact absurd h (hmap fun _ => nofun)

/-- An error envelope is one of a call that changed nothing, or of a failed dispatch. -/
theorem callTool_failure {adapter : MCPAdapter R Arguments} {name : String}
    {arguments : Arguments} {requestId : Option String} {envelope : Envelope R}
    {s s' : InMemoryStore R}
    (h : adapter.callTool name arguments requestId s = (.ok envelope, s'))
    (hfailure : envelope.isFailure = true) :
    s' = s ∨ ∃ request e, adapter.Admits requestId ∧
      adapter.parse name arguments = .ok request ∧ adapter.dispatch request s = (.error e, s') := by
  by_cases hname : name ∈ tools
  case neg =>
    rw [MCPAdapter.callTool, if_pos hname] at h
    exact .inl (Prod.mk.inj h).2.symm
  by_cases hallow : adapter.allow = false
  · rw [MCPAdapter.callTool, if_neg (not_not.mpr hname), if_pos hallow] at h
    exact .inl (Prod.mk.inj h).2.symm
  cases hparse : adapter.parse name arguments with
  | error e =>
    rw [MCPAdapter.callTool, if_neg (not_not.mpr hname), if_neg hallow, hparse] at h
    exact .inl (Prod.mk.inj h).2.symm
  | ok request =>
    by_cases hlocal : adapter.localMode = false
    · rw [MCPAdapter.callTool, if_neg (not_not.mpr hname), if_neg hallow, hparse] at h
      dsimp only at h
      rw [if_pos hlocal] at h
      exact .inl (Prod.mk.inj h).2.symm
    rw [Bool.not_eq_false] at hallow hlocal
    cases hrid : Text.modelValidate 1 128 (adapter.answerId requestId) with
    | error e =>
      -- an unusable id leaves no envelope at all
      rw [MCPAdapter.callTool_unusable hname hallow hlocal hrid hparse] at h
      cases (Prod.mk.inj h).1
    | ok rid =>
      rw [MCPAdapter.callTool_parsed hname hallow hlocal hrid hparse] at h
      obtain ⟨henvelope, rfl⟩ := Prod.mk.inj h
      cases hdata : (adapter.dispatch request s).1 with
      | ok data =>
        rw [hdata] at henvelope
        cases henvelope
        cases hfailure
      | error e =>
        exact .inr ⟨request, e, ⟨hallow, hlocal, rid, hrid⟩, rfl, Prod.ext hdata rfl⟩

end OpenMemory.Mcp
