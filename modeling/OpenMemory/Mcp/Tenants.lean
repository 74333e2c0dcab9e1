import OpenMemory.Mcp.M1
import OpenMemory.Store.Recall

/-!
# Tenants behind the tools of M1

Several tenants may share an owner. Most tools look a memory up by tenant and owner, two do not:
`memory.capture` finds the memory of its idempotency key by owner alone, and `memory.update` has no
tenant in its command at all. `unscoped` is the memory that such a lookup finds. When it is of the
caller's tenant, the call is confined: it shows and touches nothing of another tenant
(`tool_calls_confined`). Otherwise an update of one tenant rewrites and returns what another one
captured (`update_crosses_tenants`).
-/

namespace OpenMemory.Mcp

open Lib MemoryApplicationService InMemoryStore

variable {R : Type} [Python R]

/-! ## Confinement -/

/-- Nothing about the memory `i` differs. -/
structure Untouched (i : UUID) (s s' : InMemoryStore R) : Prop where
  memory : s'.memories.get? i = s.memories.get? i
  vector : s'.vectors.get? i = s.vectors.get? i
  history : s'.historyByMemory.get? i = s.historyByMemory.get? i

theorem Untouched.refl (i : UUID) (s : InMemoryStore R) : Untouched i s s := ⟨rfl, rfl, rfl⟩

/-- A version of a memory that the store holds for the tenant. -/
def Held (t : String) (s : InMemoryStore R) (m : Memory R) : Prop :=
  m.tenantId = some t ∧ ∃ live, s.memories.get? m.id = some live ∧ live.tenantId = some t

/-- A step from `s` to `s'` that returns these memories stays within the tenant. -/
structure Confined (t : String) (s s' : InMemoryStore R) (returned : List (Memory R)) : Prop where
  returned : ∀ m ∈ returned, Held t s' m
  others : ∀ i m, s.memories.get? i = some m → m.tenantId ≠ some t → Untouched i s s'

section Rules

variable {t : String} {s s' s₁ : InMemoryStore R} {returned : List (Memory R)}

/-- Reading memories of a tenant is confined to it. -/
theorem confined_read (h : ∀ m ∈ returned, Held t s m) : Confined t s s returned :=
  ⟨h, fun i _ _ _ => .refl i s⟩

/-- An entry in the ledger is outside of what is confined. -/
theorem Confined.record (h : Confined t s s₁ returned) (key : OperationKey)
    (entry : StoredIdempotencyOperation) : Confined t s (s₁.record key entry) returned where
  returned := h.returned
  others i m hm hne := ⟨(h.others i m hm hne).memory, (h.others i m hm hne).vector,
    (h.others i m hm hne).history⟩

theorem held_of_get? {m : Memory R} {i : UUID} (hk : s.Keyed) (hm : s.memories.get? i = some m)
    (ht : m.tenantId = some t) : Held t s m :=
  ⟨ht, m, hk i m hm ▸ hm, ht⟩

/-- A memory that is looked up in a tenant is the tenant's. -/
theorem held_of_lookup {m : Memory R} {o : String} {i : UUID} (hk : s.Keyed)
    (h : s.lookup o i (some t) = some m) : Held t s m := by
  obtain ⟨hm, -, ht⟩ := lookup_eq_some.mp h
  exact held_of_get? hk hm (ht.resolve_left (by simp))

/-- A version of a live memory is held for the tenant of that memory. -/
theorem held_of_versionAt {m : Memory R} {o : String} {i : UUID} {v : Int} {scope : Option String}
    (hk : s.Keyed) (h : s.versionAt o i v scope = .ok (some m))
    (hown : ∀ live, s.lookup o i scope = some live → live.tenantId = some t) : Held t s m := by
  obtain ⟨live, hlive, hcases⟩ := versionAt_eq_some h
  obtain ⟨hget, -, -⟩ := lookup_eq_some.mp hlive
  have hheld := held_of_get? hk hget (hown live hlive)
  rcases hcases with ⟨-, rfl⟩ | ⟨-, snapshot, -, hrebuilt⟩
  · exact hheld
  · obtain ⟨hid, -, htenant, -⟩ := Memory.rebuild_ok hrebuilt
    obtain ⟨ht, hrest⟩ := hheld
    exact ⟨htenant.trans ht, hid ▸ hrest⟩

theorem tenantId_of_lookup {m : Memory R} {o : String} {i : UUID}
    (h : s.lookup o i (some t) = some m) : m.tenantId = some t :=
  (lookup_eq_some.mp h).2.2.resolve_left (by simp)

/-- A new version of a memory of the tenant is the tenant's. -/
theorem confined_newVersion {o : String} {i : UUID} {scope : Option String} {v : Int}
    {args : Memory.EvolveArgs R} {m m' : Memory R} (hk : s.Keyed)
    (h : NewVersion s o i scope v args m m' s') (ht : m.tenantId = some t) :
    Confined t s s' [m'] := by
  have hsame := (Memory.evolve_ok h.evolved).identity
  have htenant : m'.tenantId = some t := hsame.tenantId.trans ht
  obtain ⟨history, reason, vector, -, rfl⟩ := h.stored
  obtain ⟨hget, -, -⟩ := lookup_eq_some.mp h.live
  constructor
  · intro r hr
    obtain rfl := List.mem_singleton.mp hr
    exact ⟨htenant, r, Dict.get?_set_self _ _ _, htenant⟩
  · intro j mj hj hne
    -- the memory that gets the version is of the tenant, the one at `j` is not
    have hji : j ≠ m'.id := by
      rintro rfl
      rw [hsame.id, hk i m hget, hget] at hj
      cases hj
      exact hne ht
    exact ⟨Dict.get?_set_of_ne _ _ hji, Dict.get?_set_of_ne _ _ hji, Dict.get?_set_of_ne _ _ hji⟩

/-- A memory that is removed by its tenant was the tenant's. -/
theorem confined_forgot {o : String} {i : UUID} {forgotten : Bool}
    (h : Forgot s o i (some t) forgotten s') : Confined t s s' [] := by
  rcases h with ⟨-, -, rfl⟩ | ⟨m, -, hm, rfl⟩
  · exact confined_read fun m hm => absurd hm List.not_mem_nil
  · constructor
    · exact fun m hm => absurd hm List.not_mem_nil
    · intro j mj hj hne
      obtain ⟨hget, -, -⟩ := lookup_eq_some.mp hm
      have hji : j ≠ i := by
        rintro rfl
        rw [hget] at hj
        cases hj
        exact hne (tenantId_of_lookup hm)
      exact ⟨Dict.get?_pop_of_ne _ hji, Dict.get?_pop_of_ne _ hji, Dict.get?_pop_of_ne _ hji⟩

end Rules

/-! ## The requests of a tenant -/

/-- The memory an update addresses: the one it names, or the one its key was completed for. -/
def updateTarget (s : InMemoryStore R) (c : UpdateMemoryCommand R) : Option UUID :=
  match truthyKey c.idempotencyKey with
  | none => some c.memoryId
  | some key =>
    match s.idempotencyOperations.get? (c.ownerId, .update, key) with
    | none => some c.memoryId
    | some prior =>
      if prior.fingerprint = fingerprintUpdateCommand c ∧ prior.status = .completed then
        some (prior.memoryId.getD c.memoryId)
      else none

/-- The memory that a request finds without looking at tenants. -/
def unscoped (s : InMemoryStore R) : Request R → Option (Memory R)
  | .capture c =>
    if s.fingerprints.get? (c.ownerId, c.idempotencyKey) = some (fingerprintCaptureCommand c) then
      s.firstWithKey c.ownerId c.idempotencyKey
    else none
  | .update c => (updateTarget s c).bind fun i => s.lookup c.ownerId i none
  | _ => none

/-- The requests that the tools make for a tenant. -/
inductive ForTenant (t : String) : Request R → Prop
  | capture {c : CaptureMemoryCommand R} (tenant : c.tenantId = t) : ForTenant t (.capture c)
  | listInbox {c : ListInboxCommand} (tenant : c.tenantId = t) : ForTenant t (.listInbox c)
  | confirmCandidate {c : ConfirmCandidateCommand} (tenant : c.tenantId = t) :
      ForTenant t (.confirmCandidate c)
  | discardCandidate {c : DiscardCandidateCommand} (tenant : c.tenantId = t) :
      ForTenant t (.discardCandidate c)
  | pin {c : PinMemoryCommand} (tenant : c.tenantId = t) : ForTenant t (.pin c)
  | «recall» {c : RecallMemoryCommand R} (tenant : c.tenantId = t) : ForTenant t (.recall c)
  | update {c : UpdateMemoryCommand R} : ForTenant t (.update c)
  | forget {c : ForgetMemoryCommand} (tenant : c.tenantId = some t) : ForTenant t (.forget c)

/-- The memories in a result of the service. -/
def returnedBy : Response R → List (Memory R)
  | .written result => [result.memory]
  | .inbox result => result.candidates
  | .memory m => [m]
  | .recalled result => result.items.map SearchMemoryItem.memory
  | _ => []

section Requests

variable {t : String} {svc : MemoryApplicationService R} {s s' : InMemoryStore R}

/-- `capture` is confined to its tenant, if the memory under its key is. -/
theorem confined_capture {c : CaptureMemoryCommand R} {r : WriteMemoryResult R} (hk : s.Keyed)
    (ht : c.tenantId = t) (hfresh : s.Fresh svc.uuid4)
    (hown : ∀ m, unscoped s (.capture c) = some m → m.tenantId = some t)
    (h : (svc.capture (inMemoryUnitOfWork R) c).run s = .ok (r, s')) :
    Confined t s s' [r.memory] := by
  cases capture_ok h with
  | reread isKey same first =>
    cases isKey
    obtain ⟨⟨i, hget⟩, -, -⟩ := firstWithKey_eq_some first
    refine confined_read fun m hm => ?_
    obtain rfl := List.mem_singleton.mp hm
    exact held_of_get? hk hget (hown _ ((if_pos same).trans first))
  | @wrote args vector drawn owner tenant isKey created unused =>
    obtain ⟨hid, -, htenant, -, -, -⟩ := Memory.create_ok created
    have htenant : r.memory.tenantId = some t := by rw [htenant, tenant, ht]
    constructor
    · intro m hm
      obtain rfl := List.mem_singleton.mp hm
      exact ⟨htenant, _, Dict.get?_set_self _ _ _, htenant⟩
    · intro j mj hj hne
      have hji : j ≠ r.memory.id := by
        rintro rfl
        rw [hid, drawn, hfresh.1] at hj
        cases hj
      exact ⟨Dict.get?_set_of_ne _ _ hji, Dict.get?_set_of_ne _ _ hji,
        Dict.get?_set_of_ne _ _ hji⟩

/-- `list_inbox` is. -/
theorem confined_listInbox {c : ListInboxCommand} {r : InboxResult R} (hk : s.Keyed)
    (ht : c.tenantId = t) (h : (listInbox (inMemoryUnitOfWork R) c).run s = .ok (r, s')) :
    Confined t s s' r.candidates := by
  obtain rfl := readOnly_listInbox c _ _ _ h
  refine confined_read fun m hm => ?_
  simp only [listInbox, validateScope, validateScopeValue, validateConnection, Txn.bind_ok,
    Txn.ofExcept_ok, raiseIf_ok, Txn.pure_ok] at h
  obtain ⟨_, _, ⟨-, rfl⟩, _, _, ⟨-, rfl⟩, _, _, ⟨-, rfl⟩, _, _, ⟨-, rfl⟩, _, _, ⟨-, rfl⟩,
    candidates, _, hlist, rfl, -⟩ := h
  cases hlist
  have hmem := (List.mem_insertionSort _).mp (List.mem_of_mem_take (List.mem_of_mem_take hm))
  obtain ⟨hvalue, hpass⟩ := List.mem_filter.mp hmem
  obtain ⟨i, hget⟩ := (Dict.mem_values_iff _ _).mp hvalue
  have htenant : m.tenantId = some c.tenantId := by
    simp only [addressable, Option.isNone_some, Bool.false_or, Bool.and_eq_true,
      decide_eq_true_eq] at hpass
    exact hpass.1.1.2
  exact held_of_get? hk hget (ht ▸ htenant)

/-- `confirm_candidate` is. -/
theorem confined_confirmCandidate {c : ConfirmCandidateCommand} {r : Memory R} (hk : s.Keyed)
    (ht : c.tenantId = t) (h : (svc.confirmCandidate (inMemoryUnitOfWork R) c).run s = .ok (r, s')) :
    Confined t s s' [r] := by
  subst ht
  cases confirmCandidate_ok h with
  | replayed completed answer =>
    refine confined_read fun m hm => ?_
    obtain rfl := List.mem_singleton.mp hm
    exact held_of_versionAt hk answer fun live hlive => tenantId_of_lookup hlive
  | executed new ran recorded status =>
    obtain ⟨⟨m, at_, descriptor, -, hver⟩, -, -⟩ := ran
    exact (confined_newVersion hk hver (tenantId_of_lookup hver.live)).record _ _

/-- `pin` is. -/
theorem confined_pin {c : PinMemoryCommand} {r : Memory R} (hk : s.Keyed) (ht : c.tenantId = t)
    (h : (svc.pin (inMemoryUnitOfWork R) c).run s = .ok (r, s')) : Confined t s s' [r] := by
  subst ht
  cases pin_ok h with
  | replayed completed answer =>
    refine confined_read fun m hm => ?_
    obtain rfl := List.mem_singleton.mp hm
    exact held_of_versionAt hk answer fun live hlive => tenantId_of_lookup hlive
  | executed new ran recorded status =>
    refine Confined.record ?_ _ _
    rcases ran with ⟨⟨hlive, rfl⟩ | ⟨m, args, -, hver⟩, -, -⟩
    · refine confined_read fun m hm => ?_
      obtain rfl := List.mem_singleton.mp hm
      exact held_of_lookup hk hlive
    · exact confined_newVersion hk hver (tenantId_of_lookup hver.live)

/-- `discard_candidate` is. -/
theorem confined_discardCandidate {c : DiscardCandidateCommand} {r : ForgetMemoryResult}
    (ht : c.tenantId = t) (h : (discardCandidate (inMemoryUnitOfWork R) c).run s = .ok (r, s')) :
    Confined t s s' [] := by
  subst ht
  cases discardCandidate_ok h with
  | replayed completed answer => exact confined_read fun m hm => absurd hm List.not_mem_nil
  | executed new ran recorded status => exact (confined_forgot ran.2).record _ _

/-- `forget` is. -/
theorem confined_forget {c : ForgetMemoryCommand} {r : ForgetMemoryResult}
    (ht : c.tenantId = some t) (h : (forget (inMemoryUnitOfWork R) c).run s = .ok (r, s')) :
    Confined t s s' [] := by
  rcases forget_ok h with ⟨-, hforgot⟩ | ⟨k, -, hledger⟩
  · exact confined_forgot (ht ▸ hforgot)
  · cases hledger with
    | replayed completed answer => exact confined_read fun m hm => absurd hm List.not_mem_nil
    | executed new ran recorded status => exact (confined_forgot (ht ▸ ran)).record _ _

/-- `recall` is. -/
theorem confined_recall {c : RecallMemoryCommand R} {r : RecallResult R} (hk : s.Keyed)
    (ht : c.tenantId = t) (h : (svc.recall (inMemoryUnitOfWork R) c).run s = .ok (r, s')) :
    Confined t s s' (r.items.map SearchMemoryItem.memory) := by
  obtain rfl := readOnly_recall svc c _ _ _ h
  refine confined_read fun m hm => ?_
  obtain ⟨item, hitem, rfl⟩ := List.mem_map.mp hm
  obtain ⟨q, cs, -, hcs, hitems⟩ := recall_ok h
  rw [hitems] at hitem
  obtain ⟨candidate, hcand, hmem, -⟩ := rankRecall_mem (mem_topRanked hitem)
  obtain ⟨space, -, i, m, vector, hget, hmatch, rfl⟩ := recallCandidates_mem hcs hcand
  rw [hmem]
  exact held_of_get? hk hget (ht ▸ hmatch.tenant rfl)

/-- What an update does when the memory it addresses is of the tenant. -/
theorem confined_updated {c : UpdateMemoryCommand R} {r : Memory R} (hk : s.Keyed)
    (hown : ∀ m, s.lookup c.ownerId c.memoryId none = some m → m.tenantId = some t)
    (h : Updated svc c s r s') : Confined t s s' [r] := by
  obtain ⟨m, at_, descriptor, s₁, -, hver, hrel⟩ := h
  have hconfined := confined_newVersion hk hver (hown m hver.live)
  have halike := alike_relationStored hrel
  constructor
  · intro m' hm'
    obtain ⟨htenant, live, hlive, hrest⟩ := hconfined.returned m' hm'
    exact ⟨htenant, live, halike.memories ▸ hlive, hrest⟩
  · intro i mi hi hne
    obtain ⟨hmemory, hvector, hhistory⟩ := hconfined.others i mi hi hne
    exact ⟨halike.memories ▸ hmemory, halike.vectors ▸ hvector, halike.histories ▸ hhistory⟩

/-- `update` is, if the memory that it finds by owner alone is the tenant's. -/
theorem confined_update {c : UpdateMemoryCommand R} {r : Memory R} (hk : s.Keyed)
    (hown : ∀ m, unscoped s (.update c) = some m → m.tenantId = some t)
    (h : (svc.update (inMemoryUnitOfWork R) c).run s = .ok (r, s')) : Confined t s s' [r] := by
  have htarget : ∀ i, updateTarget s c = some i → ∀ m, s.lookup c.ownerId i none = some m →
      m.tenantId = some t := by
    intro i hi m hm
    refine hown m ?_
    rw [unscoped, hi]
    exact hm
  rcases update_ok h with ⟨hkey, hupdated⟩ | ⟨k, hkey, hledger⟩
  · refine confined_updated hk (htarget _ ?_) hupdated
    rw [updateTarget, hkey]
  · cases hledger with
    | @replayed prior completed answer =>
      refine confined_read fun m hm => ?_
      obtain rfl := List.mem_singleton.mp hm
      refine held_of_versionAt hk answer (htarget _ ?_)
      rw [updateTarget, hkey]
      dsimp only
      rw [completed.entry]
      exact if_pos ⟨completed.fingerprint, completed.status⟩
    | executed new ran recorded status =>
      refine (confined_updated hk (htarget _ ?_) ran.1).record _ _
      rw [updateTarget, hkey]
      dsimp only
      rw [new]

/-- A request of a tenant is confined if what it finds without looking at tenants is its own. -/
theorem confined_exec {req : Request R} {response : Response R} (hk : s.Keyed)
    (hreq : ForTenant t req) (hfresh : req.drawsUuid = true → s.Fresh svc.uuid4)
    (hown : ∀ m, unscoped s req = some m → m.tenantId = some t)
    (h : (req.exec svc).run s = .ok (response, s')) : Confined t s s' (returnedBy response) := by
  cases hreq with
  | capture ht =>
    obtain ⟨r, hr, rfl⟩ := Txn.map_ok.mp h
    exact confined_capture hk ht (hfresh rfl) hown hr
  | listInbox ht =>
    obtain ⟨r, hr, rfl⟩ := Txn.map_ok.mp h
    exact confined_listInbox hk ht hr
  | confirmCandidate ht =>
    obtain ⟨r, hr, rfl⟩ := Txn.map_ok.mp h
    exact confined_confirmCandidate hk ht hr
  | discardCandidate ht =>
    obtain ⟨r, hr, rfl⟩ := Txn.map_ok.mp h
    exact confined_discardCandidate ht hr
  | pin ht =>
    obtain ⟨r, hr, rfl⟩ := Txn.map_ok.mp h
    exact confined_pin hk ht hr
  | «recall» ht =>
    obtain ⟨r, hr, rfl⟩ := Txn.map_ok.mp h
    exact confined_recall hk ht hr
  | update =>
    obtain ⟨r, hr, rfl⟩ := Txn.map_ok.mp h
    exact confined_update hk hown hr
  | forget ht =>
    obtain ⟨r, hr, rfl⟩ := Txn.map_ok.mp h
    exact confined_forget ht hr

end Requests

/-! ## Tool calls -/

theorem mapError_ok {ε ε' α : Type} {f : ε → ε'} {x : Except ε α} {a : α} :
    x.mapError f = .ok a ↔ x = .ok a := by
  cases x with
  | error e => simp [Except.mapError]
  | ok b => simp [Except.mapError]

/-- A tool makes a request for the tenant of its principal. -/
theorem forTenant_of_toolRequest {p : M1Principal} {tool : M1Tool R} {req : Request R}
    (h : toolRequest p tool = .ok req) : ForTenant p.tenantId req := by
  cases tool with
  | capture content type space provenance consent key =>
    cases hc : captureRequest (R := R) p content type space provenance consent key with
    | error e =>
      rw [toolRequest, hc] at h
      cases h
    | ok c =>
      rw [toolRequest, hc] at h
      cases h
      refine .capture ?_
      unfold captureRequest at hc
      split_ifs at hc
      simp only [except_bind_ok, except_pure_ok] at hc
      obtain ⟨_, -, _, -, _, -, rfl⟩ := hc
      rfl
  | inboxList space limit cursor =>
    cases h
    exact .listInbox rfl
  | inboxConfirm id expectedVersion key patch =>
    simp only [toolRequest, except_bind_ok, except_pure_ok] at h
    obtain ⟨_, -, _, -, rfl⟩ := h
    exact .confirmCandidate rfl
  | inboxDiscard id expectedVersion key reasonCode =>
    simp only [toolRequest, except_bind_ok, except_pure_ok] at h
    obtain ⟨_, -, rfl⟩ := h
    exact .discardCandidate rfl
  | pin id expectedVersion pinned key =>
    simp only [toolRequest, except_bind_ok, except_pure_ok] at h
    obtain ⟨_, -, rfl⟩ := h
    exact .pin rfl
  | «recall» query contextSpace includeSpaces types states allowMentalNotes limit threshold =>
    simp only [toolRequest, except_bind_ok, except_pure_ok, mapError_ok] at h
    obtain ⟨c, hc, rfl⟩ := h
    refine .recall ?_
    simp only [recallRequest, except_bind_ok, except_pure_ok] at hc
    obtain ⟨_, -, _, -, rfl⟩ := hc
    rfl
  | update id expectedVersion patch key =>
    simp only [toolRequest, except_bind_ok, except_pure_ok] at h
    obtain ⟨_, -, rfl⟩ := h
    exact .update
  | forget id key reasonCode =>
    simp only [toolRequest, except_bind_ok, except_pure_ok] at h
    obtain ⟨_, -, rfl⟩ := h
    exact .forget rfl

/-- A tool asks for nothing but requests of the tenant of the principal. -/
theorem forTenant_of_request {p : M1Principal} {tool : M1Tool R} {req : Request R}
    (h : request p tool = .ok req) : ForTenant p.tenantId req := by
  unfold request at h
  split_ifs at h
  exact forTenant_of_toolRequest h

/-- A recalled item is shown with its memory. -/
theorem m1Recalled_ok {item : SearchMemoryItem R} {shown : M1Recalled R}
    (h : m1Recalled item = .ok shown) : m1Memory item.memory = .ok shown.memory := by
  simp only [m1Recalled, except_bind_ok, except_pure_ok] at h
  obtain ⟨memory, hmemory, rfl⟩ := h
  exact hmemory

/-- An answer shows memories that the service returned. -/
theorem returned_of_shown {tool : M1Tool R} {response : Response R} {data : M1Data R}
    (h : answer tool response = .ok data) {shown : M1Memory R} (hs : shown ∈ data.shown) :
    ∃ m ∈ returnedBy response, m1Memory m = .ok shown := by
  cases response with
  | written result =>
    simp only [answer, except_bind_ok, except_pure_ok] at h
    obtain ⟨memory, hmemory, rfl⟩ := h
    obtain rfl := List.mem_singleton.mp hs
    exact ⟨_, List.mem_singleton_self _, hmemory⟩
  | inbox result =>
    simp only [answer, except_bind_ok, except_pure_ok] at h
    obtain ⟨candidates, hcandidates, rfl⟩ := h
    exact mem_of_mapM_ok hcandidates hs
  | memory m =>
    simp only [answer, except_bind_ok, except_pure_ok] at h
    obtain ⟨memory, hmemory, rfl⟩ := h
    obtain rfl := List.mem_singleton.mp hs
    exact ⟨_, List.mem_singleton_self _, hmemory⟩
  | forgotten result =>
    cases h
    cases hs
  | recalled result =>
    simp only [answer, except_bind_ok, except_pure_ok] at h
    obtain ⟨memories, hmemories, rfl⟩ := h
    obtain ⟨recalled, hmem, rfl⟩ := List.mem_map.mp hs
    obtain ⟨item, hitem, hshown⟩ := mem_of_mapM_ok hmemories hmem
    exact ⟨item.memory, List.mem_map_of_mem hitem, m1Recalled_ok hshown⟩
  | found result => cases h
  | related relation => cases h
  | exported records => cases h
  | imported result => cases h

/-- The call draws an id that is new to the store, if it draws one. -/
def DrawsFresh (svc : MemoryApplicationService R) (p : M1Principal) (tool : M1Tool R)
    (control : M1LocalControl R) : Prop :=
  ∀ req, request p tool = .ok req → (⟨svc, req⟩ : Call R).DrawsFresh control.store

/-- One tool call of some principal, successful or not. -/
def ToolCall (control control' : M1LocalControl R) : Prop :=
  ∃ svc p tool, DrawsFresh svc p tool control ∧ control' = (invoke svc p tool control).2

/-- What the call finds without looking at tenants is of the principal's tenant. -/
def FindsOwn (control : M1LocalControl R) (p : M1Principal) (tool : M1Tool R) : Prop :=
  ∀ req, request p tool = .ok req → ∀ m, unscoped control.store req = some m →
    m.tenantId = some p.tenantId

/-- The outcome of a tool call stays within the tenant: every memory it shows is one that the
store holds for the tenant, and no memory of another tenant has changed. -/
structure TenantIsolated (t : String) (control : M1LocalControl R)
    (outcome : Except M1Error (M1Data R) × M1LocalControl R) : Prop where
  shown : ∀ data, outcome.1 = .ok data → ∀ shown ∈ data.shown,
    ∃ m, m1Memory m = .ok shown ∧ Held t outcome.2.store m
  others : ∀ i m, control.store.memories.get? i = some m → m.tenantId ≠ some t →
    Untouched i control.store outcome.2.store

/-- A call whose request failed, or that asked for nothing, leaves the tenants alone. -/
theorem isolated_of_error {t : String} {control control' : M1LocalControl R} {e : M1Error}
    (h : control'.store = control.store) : TenantIsolated t control (.error e, control') where
  shown _ hdata := by cases hdata
  others i _ _ _ := by
    show Untouched i control.store control'.store
    rw [h]
    exact .refl i _

/-- The invariant of the store holds after any tool calls. -/
theorem inv_of_toolCalls {control : M1LocalControl R} (h : Reaches ToolCall {} control) :
    Inv control.store := by
  refine Reaches.kept (I := fun c : M1LocalControl R => Inv c.store) h ?_ inv_empty
  rintro c c' ⟨svc, p, tool, hfresh, rfl⟩ hinv
  unfold invoke
  cases hreq : request p tool with
  | error e => exact hinv
  | ok req =>
    dsimp only
    have hnext := hinv.attempt (hfresh req hreq)
    cases hrun : (⟨svc, req⟩ : Call R).attempt c.store with
    | mk outcome store =>
      rw [hrun] at hnext
      cases outcome with
      | error e => exact hnext
      | ok response => exact hnext

/-- Tenants are isolated: after any tool calls of any principals, a call that finds its own
memories where it does not look at tenants shows, changes and removes nothing of another one. -/
theorem tool_calls_confined {control : M1LocalControl R} {svc : MemoryApplicationService R}
    {p : M1Principal} {tool : M1Tool R} (hrun : Reaches ToolCall {} control)
    (hfresh : DrawsFresh svc p tool control) (hown : FindsOwn control p tool) :
    TenantIsolated p.tenantId control (invoke svc p tool control) := by
  have hk := (inv_of_toolCalls hrun).keyed
  unfold invoke
  cases hreq : request p tool with
  | error e => exact isolated_of_error rfl
  | ok req =>
    dsimp only
    cases hattempt : (⟨svc, req⟩ : Call R).attempt control.store with
    | mk outcome store =>
      cases outcome with
      | error e =>
        obtain ⟨-, rfl⟩ := Txn.attempt_error.mp hattempt
        exact isolated_of_error rfl
      | ok response =>
        have hconfined := confined_exec hk (forTenant_of_request hreq) (hfresh req hreq)
          (hown req hreq) (Txn.attempt_ok.mp hattempt)
        constructor
        · intro data hdata shown hshown
          obtain ⟨m, hm, hview⟩ := returned_of_shown (mapError_ok.mp hdata) hshown
          exact ⟨m, hview, hconfined.returned m hm⟩
        · exact hconfined.others

/-! ### Two tenants of one owner -/

/-- A desk client of `alice` in the tenant. -/
def deskOf (tenantId : String) : M1Principal where
  tenantId := tenantId
  ownerId := "alice"
  connectionId := tenantId ++ "-desk"
  clientId := "desk"
  scopes := {"memory:read", "memory:write", "memory:delete"}

/-- `memory.capture` of a note. -/
def captureTool (content key : String) : M1Tool ℚ :=
  .capture content "fact" (some "Work")
    { sourceType := "user", sourceClient := "desk", capturedAt := "2026-01-01T00:00:00Z" }
    { mode := "manual", consentId := "consent-1", reasonCode := "user_requested_memory"
      policyVersion := "v1", grantedAt := "2026-01-01T00:00:00Z" } key

/-- `memory.update` of the memory that was drawn first. -/
def updateTool (content key : String) : M1Tool ℚ :=
  .update ((serviceOn 1 8).uuid4.str) 1 { content := some content } key

/-- After `acme` has captured a note. -/
def acmeCaptured : M1LocalControl ℚ :=
  (invoke (serviceOn 1 8) (deskOf "acme") (captureTool "likes tea" "k1") {}).2

theorem reaches_acmeCaptured : Reaches ToolCall {} acmeCaptured :=
  .single ⟨serviceOn 1 8, deskOf "acme", captureTool "likes tea" "k1",
    fun _ _ _ => fresh_of_no_tombstone rfl rfl, rfl⟩

/-- The tenant updates its own note. -/
theorem tool_calls_confined_own :
    ((invoke (serviceOn 2 9) (deskOf "acme") (updateTool "likes coffee" "k2")
        acmeCaptured).1.toOption.map fun data => data.shown.map M1Memory.content)
        = some ["likes coffee"] ∧
      TenantIsolated "acme" acmeCaptured
        (invoke (serviceOn 2 9) (deskOf "acme") (updateTool "likes coffee" "k2") acmeCaptured) := by
  have hfresh : DrawsFresh (serviceOn 2 9) (deskOf "acme") (updateTool "likes coffee" "k2")
      acmeCaptured := by
    intro req hreq
    cases hreq
    exact fun h => absurd h (by decide)
  have hown : FindsOwn acmeCaptured (deskOf "acme") (updateTool "likes coffee" "k2") := by
    intro req hreq m hm
    cases hreq
    have htenant := congrArg (Option.map fun m : Memory ℚ => m.tenantId) hm
    exact Option.some.inj (htenant.symm.trans (by decide +kernel))
  exact ⟨by decide +kernel, tool_calls_confined reaches_acmeCaptured hfresh hown⟩

/-- A memory of `acme` is rewritten and returned by an update that `beta` makes for the same
owner. -/
theorem update_crosses_tenants :
    Reaches ToolCall {} acmeCaptured ∧
      ¬TenantIsolated "beta" acmeCaptured
        (invoke (serviceOn 2 9) (deskOf "beta") (updateTool "likes coffee" "k2") acmeCaptured) := by
  refine ⟨reaches_acmeCaptured, fun h => ?_⟩
  have hran : (acmeCaptured.store.memories.get? (serviceOn 1 8).uuid4).map
        (fun m => (m.tenantId, m.content)) = some (some "acme", "likes tea") ∧
      ((invoke (serviceOn 2 9) (deskOf "beta") (updateTool "likes coffee" "k2")
        acmeCaptured).2.store.memories.get? (serviceOn 1 8).uuid4).map
        (fun m => (m.tenantId, m.content)) = some (some "acme", "likes coffee") := by
    decide +kernel
  obtain ⟨hlive, hlater⟩ := hran
  obtain ⟨m, hm, hfields⟩ := Option.map_eq_some_iff.mp hlive
  obtain ⟨htenant, -⟩ := Prod.mk.inj hfields
  have hsame := (h.others _ m hm (by rw [htenant]; decide)).memory
  rw [hsame, hlive] at hlater
  exact absurd hlater (by decide)

end OpenMemory.Mcp
