import OpenMemory.Lib.Runs
import OpenMemory.Mcp.Tenants

/-!
# Spaces of the connections of M1

A connection has `allowed_spaces`, and a client cannot broaden that by putting a space in its
request. Three tools take a space that they write: `memory.capture`, the edit of
`memory.inbox.confirm` and the patch of `memory.update`. `_invoke` compares the space of a capture
with the allowed ones before it calls the service. It passes the other two on as they are, and the
service knows nothing of the connection.

- `SpacesFrom`: what a step may do to the spaces of the stored memories.
- `spacesFrom_invoke`: a tool call writes no space but the one it names, whatever its outcome, so
  also when it replays an earlier call.
- `spaces_contained_iff`: the runs that stay within the policy are those in which no live connection
  patches a memory with a space outside.
- `patched_out`: a desk moves its note to a space that it may not use.
-/

namespace OpenMemory.Mcp

open Lib MemoryApplicationService InMemoryStore

variable {R : Type} [Python R]

/-! ## What a step does to spaces -/

/-- Under every id the memory keeps the space it had, or has the space `v`. -/
def SpacesFrom (v : Option String) (s s' : InMemoryStore R) : Prop :=
  ∀ i m', s'.memories.get? i = some m' →
    (∃ m, s.memories.get? i = some m ∧ m.space = m'.space) ∨ m'.space = v

section Store

variable {s s' : InMemoryStore R} {v : Option String}

theorem spacesFrom_of_memories_eq (h : s'.memories = s.memories) : SpacesFrom v s s' := by
  intro i m' hm'
  rw [h] at hm'
  exact .inl ⟨m', hm', rfl⟩

theorem spacesFrom_set {m : Memory R} (h : s'.memories = s.memories.set m.id m)
    (hm : (∃ m₀, s.memories.get? m.id = some m₀ ∧ m₀.space = m.space) ∨ m.space = v) :
    SpacesFrom v s s' := by
  intro i m' hm'
  rw [h] at hm'
  by_cases hi : i = m.id
  · rw [hi, Dict.get?_set_self] at hm'
    cases hm'
    rw [hi]
    exact hm
  · rw [Dict.get?_set_of_ne _ _ hi] at hm'
    exact .inl ⟨m', hm', rfl⟩

theorem spacesFrom_pop {i : UUID} (h : s'.memories = s.memories.pop i) : SpacesFrom v s s' := by
  intro j m' hm'
  rw [h] at hm'
  by_cases hj : j = i
  · rw [hj, Dict.get?_pop_self] at hm'
    cases hm'
  · rw [Dict.get?_pop_of_ne _ hj] at hm'
    exact .inl ⟨m', hm', rfl⟩

theorem keyed_set {m : Memory R} (hk : s.Keyed) (h : s'.memories = s.memories.set m.id m) :
    s'.Keyed := by
  intro i m' hm'
  rw [h] at hm'
  by_cases hi : i = m.id
  · rw [hi, Dict.get?_set_self] at hm'
    cases hm'
    exact hi.symm
  · rw [Dict.get?_set_of_ne _ _ hi] at hm'
    exact hk i m' hm'

theorem keyed_pop {i : UUID} (hk : s.Keyed) (h : s'.memories = s.memories.pop i) : s'.Keyed := by
  intro j m' hm'
  rw [h] at hm'
  by_cases hj : j = i
  · rw [hj, Dict.get?_pop_self] at hm'
    cases hm'
  · rw [Dict.get?_pop_of_ne _ hj] at hm'
    exact hk j m' hm'

end Store

/-! ## Requests -/

/-- The space that a request of the tools asks the service to write. -/
def writtenSpace : Request R → Option String
  | .capture c => c.space
  | .confirmCandidate c => c.space
  | .update c => c.space
  | _ => none

section Requests

variable {svc : MemoryApplicationService R} {s s' : InMemoryStore R}

/-- A capture stores what it was asked for, or nothing. No id has to be new for that. -/
theorem capture_stored {c : CaptureMemoryCommand R} {r : WriteMemoryResult R}
    (h : (svc.capture (inMemoryUnitOfWork R) c).run s = .ok (r, s')) :
    s' = s ∨ ∃ m fp vector, s' = s.putNew m fp vector ∧ m.space = c.space := by
  obtain ⟨_, s₀, hval, hbody⟩ := Txn.bind_ok.mp h
  obtain rfl := validateCapture_ok hval
  obtain ⟨prior, s₁, hfind, hrest⟩ := Txn.bind_ok.mp hbody
  obtain ⟨rfl, ⟨rfl, -⟩ | ⟨l, rfl, -, -⟩⟩ :=
    InMemoryMemoryRepository.findByIdempotencyKey_ok hfind
  · dsimp only at hrest
    simp only [Txn.bind_ok, Txn.ofExcept_ok, inMemoryUnitOfWork] at hrest
    obtain ⟨vector, _, hvec, descriptor, _, ⟨-, rfl⟩, timestamp, _, hat, m, _, ⟨hm, rfl⟩,
      hcreate⟩ := hrest
    obtain ⟨-, rfl⟩ := now_ok hat
    obtain ⟨-, -, rfl⟩ := embedChecked_ok hvec
    have hspace : m.space = c.space := (Memory.create_holds hm).2.2.1
    rcases InMemoryMemoryRepository.create_ok hcreate with ⟨-, rfl, -⟩ | ⟨_, -, -, -, rfl⟩
    · exact .inr ⟨_, _, _, rfl, hspace⟩
    · exact .inl rfl
  · simp only [Txn.bind_ok, raiseIf_ok, Txn.pure_ok] at hrest
    obtain ⟨_, _, ⟨-, rfl⟩, -, rfl⟩ := hrest
    exact .inl rfl

/-- The next version of a memory has its space, or the one that the request writes. -/
theorem space_of_revision {req : Request R} {m m' : Memory R}
    (h : (⟨svc, req⟩ : Call R).Revision m m') :
    m.space = m'.space ∨ m'.space = writtenSpace req := by
  have hgetD : ∀ v : Option String, (v.map some).getD m.space = m.space ∨
      (v.map some).getD m.space = v := by
    intro v
    cases v with
    | none => exact .inl rfl
    | some v => exact .inr rfl
  cases h with
  | @confirmed c _ _ asked _ _ _ _ evolved =>
    cases asked
    rw [(Memory.evolve_ok evolved).space]
    exact (hgetD c.space).imp_left Eq.symm
  | pinned asked _ _ _ _ evolved =>
    exact .inl (Memory.evolve_ok evolved).space.symm
  | @updated c _ _ asked _ _ _ evolved =>
    cases asked
    rw [(Memory.evolve_ok evolved).space]
    exact (hgetD c.space).imp_left Eq.symm

/-- A request that creates nothing leaves every space, or writes its own. -/
theorem spacesFrom_effect {req : Request R} (hk : s.Keyed) (hdraw : req.drawsUuid = false)
    (h : (⟨svc, req⟩ : Call R).Effect s s') :
    SpacesFrom (writtenSpace req) s s' ∧ s'.Keyed := by
  cases h with
  | kept same =>
    refine ⟨spacesFrom_of_memories_eq same.memories, ?_⟩
    show ∀ i m, s'.memories.get? i = some m → m.id = i
    rw [same.memories]
    exact hk
  | created creation =>
    cases creation with
    | written asked =>
      cases asked
      cases hdraw
    | captured asked =>
      cases asked
      cases hdraw
  | @versioned m m' _ _ _ revision live _ _ _ same =>
    obtain ⟨args, hevolve⟩ := revision.evolve
    have hid : m'.id = m.id := (Memory.evolve_ok hevolve).identity.id
    refine ⟨spacesFrom_set same.memories ?_, keyed_set hk same.memories⟩
    rw [hid]
    exact (space_of_revision revision).imp_left fun hspace =>
      ⟨m, (lookup_eq_some.mp live).1, hspace⟩
  | removed _ same =>
    exact ⟨spacesFrom_pop same.memories, keyed_pop hk same.memories⟩

theorem spacesFrom_exec {t : String} {req : Request R} {response : Response R} (hk : s.Keyed)
    (hreq : ForTenant t req) (h : (req.exec svc).run s = .ok (response, s')) :
    SpacesFrom (writtenSpace req) s s' ∧ s'.Keyed := by
  by_cases hdraw : req.drawsUuid = true
  · -- the tools draw an id for captures only
    cases hreq with
    | @capture c _ =>
      obtain ⟨r, hr, -⟩ := Txn.map_ok.mp h
      rcases capture_stored hr with rfl | ⟨m, fp, vector, rfl, hspace⟩
      · exact ⟨spacesFrom_of_memories_eq rfl, hk⟩
      · exact ⟨spacesFrom_set rfl (.inr hspace), keyed_set hk rfl⟩
    | listInbox => cases hdraw
    | confirmCandidate => cases hdraw
    | discardCandidate => cases hdraw
    | pin => cases hdraw
    | «recall» => cases hdraw
    | update => cases hdraw
    | forget => cases hdraw
  · refine spacesFrom_effect hk (Bool.eq_false_iff.mpr hdraw)
      (Call.exec_effect hk (fun hdraw' => absurd hdraw' hdraw) ?_ h)
    rintro o records rfl
    cases hreq

end Requests

/-! ## Tool calls -/

/-- The space that a tool is told to write. -/
def M1Tool.space : M1Tool R → Option String
  | capture _ _ space _ _ _ => space
  | inboxConfirm _ _ _ patch => patch.bind M1Patch.space
  | update _ _ patch _ => patch.space
  | _ => none

/-- The command of a tool has its space. -/
theorem writtenSpace_of_toolRequest {p : M1Principal} {tool : M1Tool R} {req : Request R}
    (h : toolRequest p tool = .ok req) : writtenSpace req = tool.space := by
  cases tool with
  | capture content type space provenance consent key =>
    cases hc : captureRequest (R := R) p content type space provenance consent key with
    | error e =>
      rw [toolRequest, hc] at h
      cases h
    | ok c =>
      rw [toolRequest, hc] at h
      cases h
      unfold captureRequest at hc
      split_ifs at hc
      simp only [except_bind_ok, except_pure_ok] at hc
      obtain ⟨_, -, _, -, _, -, rfl⟩ := hc
      rfl
  | inboxList space limit cursor =>
    cases h
    rfl
  | inboxConfirm id expectedVersion key patch =>
    simp only [toolRequest, except_bind_ok, except_pure_ok] at h
    obtain ⟨_, -, _, -, rfl⟩ := h
    rfl
  | inboxDiscard id expectedVersion key reasonCode =>
    simp only [toolRequest, except_bind_ok, except_pure_ok] at h
    obtain ⟨_, -, rfl⟩ := h
    rfl
  | pin id expectedVersion pinned key =>
    simp only [toolRequest, except_bind_ok, except_pure_ok] at h
    obtain ⟨_, -, rfl⟩ := h
    rfl
  | «recall» query contextSpace includeSpaces types states allowMentalNotes limit threshold =>
    simp only [toolRequest, except_bind_ok, except_pure_ok] at h
    obtain ⟨_, -, rfl⟩ := h
    rfl
  | update id expectedVersion patch key =>
    simp only [toolRequest, updateRequest, except_bind_ok, except_pure_ok, mapError_ok] at h
    obtain ⟨_, ⟨_, -, _, -, _, -, _, -, rfl⟩, rfl⟩ := h
    rfl
  | forget id key reasonCode =>
    simp only [toolRequest, except_bind_ok, except_pure_ok] at h
    obtain ⟨_, -, rfl⟩ := h
    rfl

/-- A tool call leaves every space, or writes the one it names. -/
theorem spacesFrom_invoke (svc : MemoryApplicationService R) (p : M1Principal) (tool : M1Tool R)
    {control : M1LocalControl R} (hk : control.store.Keyed) :
    SpacesFrom tool.space control.store (invoke svc p tool control).2.store ∧
      (invoke svc p tool control).2.store.Keyed := by
  unfold invoke
  cases hreq : request p tool with
  | error e => exact ⟨spacesFrom_of_memories_eq rfl, hk⟩
  | ok req =>
    dsimp only
    cases hattempt : (⟨svc, req⟩ : Call R).attempt control.store with
    | mk outcome store =>
      cases outcome with
      | error e =>
        obtain ⟨-, rfl⟩ := Txn.attempt_error.mp hattempt
        exact ⟨spacesFrom_of_memories_eq rfl, hk⟩
      | ok response =>
        have htool : toolRequest p tool = .ok req := by
          unfold request at hreq
          split_ifs at hreq
          exact hreq
        rw [← writtenSpace_of_toolRequest htool]
        exact spacesFrom_exec hk (forTenant_of_request hreq) (Txn.attempt_ok.mp hattempt)

/-! ## The policy -/

/-- The provenance is in the name of the connection. -/
structure M1Provenance.OwnOf (provenance : M1Provenance) (p : M1Principal) : Prop where
  client : provenance.sourceClient = p.clientId
  connection : provenance.sourceConnectionId.isSome →
    provenance.sourceConnectionId = some p.connectionId

/-- What the tool captures, it captures in the name of the connection. -/
def M1Tool.OwnOf (p : M1Principal) : M1Tool R → Prop
  | capture _ _ _ provenance _ _ => provenance.OwnOf p
  | _ => True

section Captures

variable {p : M1Principal} {content type key : String} {provenance : M1Provenance}
  {consent : M1Consent}

theorem captureRequest_of_not_ownOf {space : Option String} (h : ¬provenance.OwnOf p) :
    captureRequest (R := R) p content type space provenance consent key =
      .error (.boundary "validation_error") := by
  unfold captureRequest
  by_cases hclient : provenance.sourceClient = p.clientId
  · rw [if_neg (not_not.mpr hclient), if_pos]
    constructor
    · by_contra hnone
      exact h ⟨hclient, fun hsome => absurd hsome hnone⟩
    · exact fun hconnection => h ⟨hclient, fun _ => hconnection⟩
  · exact if_pos hclient

theorem captureRequest_of_outside {v : String} (hown : provenance.OwnOf p)
    (h : v ∉ p.allowedSpaces) :
    captureRequest (R := R) p content type (some v) provenance consent key =
      .error (.boundary "space_forbidden") := by
  have hmust : someAnd (fun name => decide (name ∉ p.allowedSpaces)) (some v) = true :=
    decide_eq_true h
  unfold captureRequest
  rw [if_neg (not_not.mpr hown.client), if_neg fun h => h.2 (hown.connection h.1), if_pos hmust]

end Captures

/-- What fails under `mapError .raised` is no error of the boundary. -/
theorem raised_of_bind {α β : Type} {x : Except PyError α} {f : α → Except M1Error β} {e : M1Error}
    (hf : ∀ a e, f a = .error e → ∃ e', e = .raised e') (h : (x.mapError .raised >>= f) = .error e) :
    ∃ e', e = .raised e' := by
  cases x with
  | error e' =>
    cases h
    exact ⟨e', rfl⟩
  | ok a => exact hf a e h

/-- A tool call: the service it reaches, the principal of its token, and the tool. -/
structure M1Call (R : Type) [Python R] where
  service : MemoryApplicationService R
  principal : M1Principal
  tool : M1Tool R

namespace M1Call

/-- What the client is told, and the control afterwards. -/
def outcome (call : M1Call R) (control : M1LocalControl R) :
    Except M1Error (M1Data R) × M1LocalControl R :=
  invoke call.service call.principal call.tool control

/-- The control after the call. -/
def next (control : M1LocalControl R) (call : M1Call R) : M1LocalControl R :=
  (call.outcome control).2

/-- The connection may make the call: it is live, has the scope of the tool, and captures in its
own name. -/
structure Admitted (call : M1Call R) : Prop where
  live : call.principal.revoked = false
  scope : call.tool.requiredScope ∈ call.principal.scopes
  own : call.tool.OwnOf call.principal

/-- The call names a space to write that the connection is not allowed. -/
def NamesOutside (call : M1Call R) : Prop :=
  ∃ v, call.tool.space = some v ∧ v ∉ call.principal.allowedSpaces

/-- The space of the call comes in a patch. -/
def isPatch (call : M1Call R) : Bool :=
  match call.tool with
  | .inboxConfirm _ _ _ _ => true
  | .update _ _ _ _ => true
  | _ => false

/-- The call stays within the policy of its connection: it leaves no memory in a space outside that
was not there before, and is refused if it asks for one. -/
structure SpaceContained (control : M1LocalControl R) (call : M1Call R) : Prop where
  stored : ∀ i m' v, (next control call).store.memories.get? i = some m' → m'.space = some v →
    v ∉ call.principal.allowedSpaces →
    ∃ m, control.store.memories.get? i = some m ∧ m.space = some v
  refused : call.Admitted → call.NamesOutside →
    call.outcome control = (.error (.boundary "space_forbidden"), control)

/-- The call takes the way on which nothing looks at the policy. -/
structure PatchesOutside (call : M1Call R) : Prop where
  admitted : call.Admitted
  outside : call.NamesOutside
  patch : call.isPatch = true

variable {control : M1LocalControl R} {call : M1Call R}

theorem keyed_next (hk : control.store.Keyed) : (next control call).store.Keyed :=
  (spacesFrom_invoke call.service call.principal call.tool hk).2

/-- A request that fails has no effect. -/
theorem outcome_of_request_error {e : M1Error}
    (h : request call.principal call.tool = .error e) :
    call.outcome control = (.error e, control) := by
  unfold outcome invoke
  rw [h]

theorem request_of_admitted (h : call.Admitted) :
    request call.principal call.tool = toolRequest call.principal call.tool := by
  unfold request
  rw [if_neg (by rw [h.live]; exact Bool.false_ne_true), if_neg (not_not.mpr h.scope)]

theorem request_of_not_admitted (h : ¬call.Admitted) :
    ∃ e, request call.principal call.tool = .error e := by
  unfold request
  by_cases hrevoked : call.principal.revoked = true
  · exact ⟨_, if_pos hrevoked⟩
  rw [if_neg hrevoked]
  by_cases hscope : call.tool.requiredScope ∉ call.principal.scopes
  · exact ⟨_, if_pos hscope⟩
  rw [if_neg hscope]
  -- what is left to object to is the name under which it captures
  have hown : ¬call.tool.OwnOf call.principal := fun hown =>
    h ⟨Bool.eq_false_iff.mpr hrevoked, not_not.mp hscope, hown⟩
  cases htool : call.tool with
  | capture content type space provenance consent key =>
    rw [htool] at hown
    refine ⟨.boundary "validation_error", ?_⟩
    show (captureRequest _ content type space provenance consent key).map _ = _
    rw [captureRequest_of_not_ownOf hown]
    rfl
  | _ =>
    rw [htool] at hown
    exact absurd trivial hown

/-- `_invoke` checks the space of a capture before it calls the service. -/
theorem request_of_outside (hadmitted : call.Admitted) (hout : call.NamesOutside)
    (hpatch : call.isPatch = false) :
    request call.principal call.tool = .error (.boundary "space_forbidden") := by
  obtain ⟨v, hv, houtside⟩ := hout
  have hown := hadmitted.own
  rw [request_of_admitted hadmitted]
  cases htool : call.tool with
  | capture content type space provenance consent key =>
    rw [htool] at hv hown
    obtain rfl : space = some v := hv
    show (captureRequest _ content type (some v) provenance consent key).map _ = _
    rw [captureRequest_of_outside hown houtside]
    rfl
  | inboxConfirm =>
    rw [isPatch, htool] at hpatch
    cases hpatch
  | update =>
    rw [isPatch, htool] at hpatch
    cases hpatch
  | _ =>
    rw [htool] at hv
    cases hv

/-- A patch is not checked: whatever fails, it is not the boundary that objects. -/
theorem raised_of_isPatch (hadmitted : call.Admitted) (hpatch : call.isPatch = true) {e : M1Error}
    (h : (call.outcome control).1 = .error e) : ∃ e', e = .raised e' := by
  have hreq : ∀ e, request call.principal call.tool = .error e → ∃ e', e = .raised e' := by
    intro e he
    rw [request_of_admitted hadmitted] at he
    cases htool : call.tool with
    | inboxConfirm id expectedVersion key patch =>
      rw [htool] at he
      exact raised_of_bind (fun _ _ => raised_of_bind fun _ _ hpure => by cases hpure) he
    | update id expectedVersion patch key =>
      rw [htool] at he
      exact raised_of_bind (fun _ _ hpure => by cases hpure) he
    | _ =>
      rw [isPatch, htool] at hpatch
      cases hpatch
  unfold outcome invoke at h
  cases hrequest : request call.principal call.tool with
  | error e₁ =>
    rw [hrequest] at h
    cases h
    exact hreq e hrequest
  | ok req =>
    rw [hrequest] at h
    dsimp only at h
    cases hattempt : (⟨call.service, req⟩ : Call R).attempt control.store with
    | mk outcome store =>
      rw [hattempt] at h
      cases outcome with
      | error e₁ =>
        cases h
        exact ⟨e₁, rfl⟩
      | ok response =>
        dsimp only at h
        cases hanswer : answer call.tool response with
        | error e₁ =>
          rw [hanswer] at h
          cases h
          exact ⟨e₁, rfl⟩
        | ok data =>
          rw [hanswer] at h
          cases h

/-- A call that names a space outside and is no admitted patch fails before the service. -/
theorem request_error_of_outside (hout : call.NamesOutside) (hno : ¬call.PatchesOutside) :
    ∃ e, request call.principal call.tool = .error e := by
  by_cases hadmitted : call.Admitted
  · exact ⟨_, request_of_outside hadmitted hout
      (Bool.eq_false_iff.mpr fun hpatch => hno ⟨hadmitted, hout, hpatch⟩)⟩
  · exact request_of_not_admitted hadmitted

/-- One call stays within the policy unless it patches a memory with a space outside. -/
theorem spaceContained_iff (hk : control.store.Keyed) :
    SpaceContained control call ↔ ¬call.PatchesOutside := by
  constructor
  · rintro h ⟨hadmitted, hout, hpatch⟩
    obtain ⟨e', he'⟩ := raised_of_isPatch hadmitted hpatch
      (congrArg Prod.fst (h.refused hadmitted hout))
    cases he'
  · intro hno
    constructor
    · intro i m' v hm' hspace houtside
      rcases (spacesFrom_invoke call.service call.principal call.tool hk).1 i m' hm' with
        ⟨m, hm, hsame⟩ | hnamed
      · exact ⟨m, hm, hsame.trans hspace⟩
      · -- the call named this space, so it has failed and the memory was there before
        obtain ⟨e, he⟩ := request_error_of_outside ⟨v, hnamed.symm.trans hspace, houtside⟩ hno
        have hnext : next control call = control :=
          congrArg Prod.snd (show call.outcome control = _ from outcome_of_request_error he)
        rw [hnext] at hm'
        exact ⟨m', hm', hspace⟩
    · intro hadmitted hout
      exact outcome_of_request_error (request_of_outside hadmitted hout
        (Bool.eq_false_iff.mpr fun hpatch => hno ⟨hadmitted, hout, hpatch⟩))

end M1Call

/-- A run of tool calls stays within the policies of its connections if and only if none of the
calls patches a memory with a space outside: `memory.inbox.confirm` and `memory.update` do not look
at `allowed_spaces`. -/
theorem spaces_contained_iff (calls : List (M1Call R)) :
    Along M1Call.next M1Call.SpaceContained {} calls ↔ ∀ call ∈ calls, ¬call.PatchesOutside := by
  have hstep : Along M1Call.next M1Call.SpaceContained {} calls ↔
      Along M1Call.next (fun _ call => ¬call.PatchesOutside) {} calls :=
    along_congr (I := fun control : M1LocalControl R => control.store.Keyed) inv_empty.keyed
      (fun _ _ hk => M1Call.spaceContained_iff hk) fun _ _ hk _ => M1Call.keyed_next hk
  exact hstep.trans along_const

/-! ### A note leaves its space -/

/-- The desk captures a note in `Work`. -/
def deskCaptures : M1Call ℚ :=
  ⟨serviceOn 1 8, deskOf "acme", captureTool "likes tea" "k1"⟩

/-- The desk moves it to a space that is not one of its own. -/
def deskMoves : M1Call ℚ :=
  ⟨serviceOn 2 9, deskOf "acme",
    .update ((serviceOn 1 8).uuid4.str) 1 { space := some "Private" } "k2"⟩

/-- The desk may use `MBA` and `Work`; its note is in `Private` after the update. -/
theorem patched_out :
    (((play M1Call.next {} [deskCaptures, deskMoves]).store.memories.get?
        (serviceOn 1 8).uuid4).map fun m => m.space) = some (some "Private") ∧
      ¬Along M1Call.next M1Call.SpaceContained {} [deskCaptures, deskMoves] := by
  have hbefore : ((M1Call.next {} deskCaptures).store.memories.get? (serviceOn 1 8).uuid4).map
      (fun m => m.space) = some (some "Work") := by decide +kernel
  have hafter : ((M1Call.next (M1Call.next {} deskCaptures) deskMoves).store.memories.get?
      (serviceOn 1 8).uuid4).map (fun m => m.space) = some (some "Private") := by decide +kernel
  refine ⟨hafter, fun h => ?_⟩
  obtain ⟨m', hm', hspace'⟩ := Option.map_eq_some_iff.mp hafter
  obtain ⟨m, hm, hspace⟩ := h.2.1.stored _ m' "Private" hm' hspace' (by decide)
  rw [hm] at hbefore
  have hwork : m.space = some "Work" := Option.some.inj hbefore
  rw [hspace] at hwork
  exact absurd hwork (by decide)

end OpenMemory.Mcp
