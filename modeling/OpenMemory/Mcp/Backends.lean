import OpenMemory.Cloud.Search
import OpenMemory.Mcp.Fakes
import OpenMemory.Mcp.Search

/-!
# The services behind `memory.search`

`MCPAdapter` serves a search from any object that has the method, and adds no check of its own: it
validates what comes back and counts it. `Honoured` is what the wire schema offers: owner, space,
type, state and limit. Three services implement it, over records of three shapes (`SearchService`).

The gateway and the fake filter by all of them, on every store. The Cloud service filters by owner
and state only, so it keeps the contract for the requests that ask for no more, and for those that it
answers with nothing (`filters_honoured_iff`).
-/

namespace OpenMemory.Mcp

open Lib
open Cloud (TenantEnvelopeEncryptor EncryptedCloudMemoryService CloudMemory PyDict tenantOf)

variable {R : Type} [Python R]

/-! ## The contract -/

/-- What the filters see of a returned memory: texts, `none` for a missing one. -/
structure Returned where
  ownerId : Option String
  space : Option String
  type : Option String
  state : Option String
  deriving DecidableEq

/-- The v0 state that a stored state counts as. -/
def countsAs (state : String) : String :=
  if state = "confirmed" ∨ state = "pinned" then "active" else state

/-- A returned memory is one that was asked for. -/
structure Meets (request : SearchRequest R) (m : Returned) : Prop where
  ownerId : m.ownerId = some request.ownerId.val
  space : ∀ space, request.space = some space → m.space = some space.val
  type : ∀ type, request.type = some type → m.type = some type.value
  state : m.state.map countsAs = some request.wantedState

/-- The contract of `memory.search`. -/
structure Honoured (request : SearchRequest R) (results : List Returned) : Prop where
  limit : (results.length : Int) ≤ request.limit.val
  filters : ∀ m ∈ results, Meets request m

theorem countsAs_wantedState (request : SearchRequest R) :
    countsAs request.wantedState = request.wantedState := by
  unfold SearchRequest.wantedState
  cases request.state with
  | none => decide
  | some state => cases state <;> decide

/-! ## The services -/

/-- A service that the adapter can be given. -/
inductive SearchService (R : Type) [Python R]
  | gateway (service : MemoryApplicationService R)
  | cloud (encryptor : TenantEnvelopeEncryptor)
  | fake

/-- An item of the gateway. -/
def Returned.ofItem (item : SearchItemDict R) : Returned where
  ownerId := some item.memory.ownerId
  space := item.memory.space
  type := some item.memory.type
  state := some item.memory.state

/-- A memory of the Cloud service. -/
def Returned.ofCloud (memory : CloudMemory R) : Returned where
  ownerId := some memory.ownerId
  space := memory.fields.getText "space"
  type := memory.fields.getText "type"
  state := memory.fields.getText "state"

/-- A record of the fake. -/
def Returned.ofDict (memory : PyDict R) : Returned where
  ownerId := memory.getText "owner_id"
  space := memory.getText "space"
  type := memory.getText "type"
  state := memory.getText "state"

namespace SearchService

def Store : SearchService R → Type
  | gateway _ => InMemoryStore R
  | cloud _ => EncryptedCloudMemoryService R
  | fake => InMemoryMemoryService R

/-- The stores that are searched: those that runs of the Cloud service reach, and any store of the
other two. -/
def Reachable : (b : SearchService R) → b.Store → Prop
  | gateway _ => fun _ => True
  | cloud encryptor => fun s => Cloud.Reachable encryptor s
  | fake => fun _ => True

/-- The memories that a search can return from a store. -/
def Returns (unicode : UnicodeDatabase) (request : SearchRequest R) :
    (b : SearchService R) → b.Store → List Returned → Prop
  | gateway service => fun s results =>
    ∃ items s', (gatewaySearch service (inMemoryUnitOfWork R) request).run s = .ok (items, s') ∧
      results = items.map Returned.ofItem
  | cloud encryptor => fun s results =>
    ∃ env hits, Cloud.search encryptor env unicode request s = .ok hits ∧
      results = hits.map fun hit => .ofCloud hit.memory
  | fake => fun s results =>
    ∃ hits, InMemoryMemoryService.search unicode request s = .ok hits ∧
      results = hits.map fun hit => .ofDict hit.memory

/-- Whatever a search of the request returns, from whatever store, is what was asked for. -/
def Honours (b : SearchService R) (unicode : UnicodeDatabase) (request : SearchRequest R) : Prop :=
  ∀ s, b.Reachable s → ∀ results, b.Returns unicode request s results → Honoured request results

end SearchService

/-! ## The gateway -/

theorem value_of_enumOf_type {t : WireType} {type : MemoryType}
    (h : enumOf MemoryType.ofValue t.value = .ok type) : type.value = t.value := by
  cases t <;> cases h <;> rfl

theorem value_of_enumOf_state {st : WireState} {state : MemoryState}
    (h : enumOf MemoryState.ofValue st.value = .ok state) : state.value = st.value := by
  cases st <;> cases h <;> rfl

/-- The filters that a command takes over from its request. -/
structure FiltersOf (request : SearchRequest R) (filters : SearchFilters R) : Prop where
  space : filters.space = request.space.map Text.val
  type : ∀ type, request.type = some type → ∃ memoryType : MemoryType,
    filters.memoryTypes = some {memoryType} ∧ memoryType.value = type.value
  state : ∃ state ∈ v0States, filters.states = {state} ∧ state.value = request.wantedState

theorem searchCommand_filters {request : SearchRequest R} {command : SearchMemoryCommand R}
    (h : searchCommand request = .ok command) : FiltersOf request command.filters := by
  have hstate : ∀ {filters : SearchFilters R} {state : MemoryState} (st : WireState),
      request.state = some st → enumOf MemoryState.ofValue st.value = .ok state →
      filters.states = {state} →
      ∃ state ∈ v0States, filters.states = {state} ∧ state.value = request.wantedState := by
    intro filters state st hgiven hof hfilter
    refine ⟨state, enumOf_state_ok hof, hfilter, ?_⟩
    rw [value_of_enumOf_state hof, SearchRequest.wantedState, hgiven]
    rfl
  have hactive : ∀ {filters : SearchFilters R}, request.state = none → filters.states = {.active} →
      ∃ state ∈ v0States, filters.states = {state} ∧ state.value = request.wantedState := by
    intro filters hnone hfilter
    refine ⟨.active, by decide, hfilter, ?_⟩
    rw [SearchRequest.wantedState, hnone]
    rfl
  unfold searchCommand at h
  cases hst : request.state with
  | none =>
    rw [hst] at h
    cases ht : request.type with
    | none =>
      rw [ht] at h
      cases h
      exact ⟨rfl, fun type hgiven => absurd (ht.symm.trans hgiven) nofun, hactive hst rfl⟩
    | some type =>
      obtain ⟨memoryType, hof⟩ := exists_enumOf_type type
      rw [ht] at h
      dsimp only at h
      rw [hof] at h
      cases h
      refine ⟨rfl, fun type' hgiven => ⟨memoryType, rfl, ?_⟩, hactive hst rfl⟩
      rw [value_of_enumOf_type hof, Option.some.inj (ht.symm.trans hgiven)]
  | some st =>
    obtain ⟨state, hofState⟩ := exists_enumOf_state st
    rw [hst] at h
    cases ht : request.type with
    | none =>
      rw [ht] at h
      dsimp only at h
      rw [hofState] at h
      cases h
      exact ⟨rfl, fun type hgiven => absurd (ht.symm.trans hgiven) nofun, hstate st hst hofState rfl⟩
    | some type =>
      obtain ⟨memoryType, hof⟩ := exists_enumOf_type type
      rw [ht] at h
      dsimp only at h
      rw [hofState, hof] at h
      cases h
      refine ⟨rfl, fun type' hgiven => ⟨memoryType, rfl, ?_⟩, hstate st hst hofState rfl⟩
      rw [value_of_enumOf_type hof, Option.some.inj (ht.symm.trans hgiven)]

/-- A search for a v0 state reads the states that count as it. -/
theorem countsAs_of_mem {wanted state : MemoryState} (hwanted : wanted ∈ v0States)
    (h : state ∈ MemoryApplicationService.searchStates {wanted}) :
    countsAs state.value = wanted.value := by
  revert h
  revert hwanted
  cases wanted <;> cases state <;> decide

theorem gateway_honours (service : MemoryApplicationService R) (unicode : UnicodeDatabase)
    (request : SearchRequest R) : (SearchService.gateway service).Honours unicode request := by
  rintro s - results ⟨items, s', hrun, rfl⟩
  unfold gatewaySearch at hrun
  obtain ⟨command, _, hof, h₁⟩ := Txn.bind_ok.mp hrun
  obtain ⟨hcommand, rfl⟩ := Txn.ofExcept_ok.mp hof
  obtain ⟨r, _, hsearch, h₂⟩ := Txn.bind_ok.mp h₁
  obtain ⟨rfl, rfl⟩ := Txn.pure_ok.mp h₂
  obtain ⟨command', hcommand', hcopied⟩ := exists_searchCommand request
  obtain rfl : command = command' := Except.ok.inj (hcommand.symm.trans hcommand')
  obtain ⟨hspace, htype, wanted, hwanted, hstates, hvalue⟩ := searchCommand_filters hcommand
  obtain ⟨hlimit, hitems⟩ := search_ok hsearch
  refine ⟨?_, ?_⟩
  · rw [List.length_map, List.length_map, ← hcopied.limit]
    exact hlimit
  · rw [List.map_map, List.forall_mem_map]
    intro item hitem
    obtain ⟨i, vector, -, hmatch⟩ := hitems item hitem
    refine ⟨?_, ?_, ?_, ?_⟩
    · show some item.memory.ownerId = _
      rw [hmatch.owner, hcopied.ownerId]
    · intro space hgiven
      have hfilter : command.filters.space = some space.val := by rw [hspace, hgiven]; rfl
      exact (hmatch.space (by rw [hfilter]; rfl)).trans hfilter
    · intro type hgiven
      obtain ⟨memoryType, hfilter, htext⟩ := htype type hgiven
      have hsame := hmatch.memoryType _ hfilter (Finset.singleton_ne_empty _)
      rw [Finset.mem_singleton] at hsame
      show some item.memory.memoryType.value = _
      rw [hsame, htext]
    · have hstate := hmatch.state
      rw [hstates] at hstate
      show some (countsAs item.memory.state.value) = _
      rw [countsAs_of_mem hwanted hstate, hvalue]

/-! ## The fake -/

theorem fake_honours (unicode : UnicodeDatabase) (request : SearchRequest R) :
    (SearchService.fake : SearchService R).Honours unicode request := by
  rintro s - results ⟨hits, hsearch, rfl⟩
  obtain ⟨hlimit, hhits⟩ := InMemoryMemoryService.search_ok hsearch
  refine ⟨?_, ?_⟩
  · rw [List.length_map]
    exact hlimit
  · rw [List.forall_mem_map]
    intro hit hhit
    have hselects := (hhits hit hhit).2
    refine ⟨hselects.owner, hselects.space, hselects.type, ?_⟩
    show (hit.memory.getText "state").map countsAs = _
    rw [hselects.state]
    exact congrArg some (countsAs_wantedState request)

/-! ## The Cloud service -/

/-- What the Cloud service does filter by. -/
theorem cloud_keeps {encryptor : TenantEnvelopeEncryptor} {env : Cloud.Environment}
    {unicode : UnicodeDatabase} {request : SearchRequest R} {s : EncryptedCloudMemoryService R}
    {hits : List (Cloud.CloudHit R)} (h : Cloud.search encryptor env unicode request s = .ok hits)
    {hit : Cloud.CloudHit R} (hhit : hit ∈ hits) :
    hit.memory.ownerId = request.ownerId.val ∧
      (Returned.ofCloud hit.memory).state.map countsAs = some request.wantedState := by
  obtain ⟨-, -, hfound⟩ := Cloud.search_ok h
  obtain ⟨r, -, hr⟩ := hfound hit hhit
  obtain ⟨-, howner, hfields⟩ := hr.reads.plain
  constructor
  · exact howner.trans hr.owner
  · show (hit.memory.fields.getText "state").map countsAs = _
    rw [hfields, hr.state]
    exact congrArg some (countsAs_wantedState request)

/-- Another type than the one asked for. -/
def otherType : Option WireType → WireType
  | some .fact => .decision
  | _ => .fact

theorem otherType_ne (type : WireType) : (otherType (some type)).value ≠ type.value := by
  cases type <;> decide

/-- Typed in by the user on the first day. -/
def typedIn : JsonValue :=
  .obj [("captured_at", .str "2026-01-01T00:00:00Z"), ("source_type", .str "user")]

theorem exists_typedIn : ∃ provenance, Cloud.loadsProvenance typedIn.dumps = .ok provenance := by
  have hsome : (JsonValue.loads typedIn.dumps).isSome = true := by decide +kernel
  obtain ⟨value, hvalue⟩ := Option.isSome_iff_exists.mp hsome
  refine ⟨value, ?_⟩
  unfold Cloud.loadsProvenance
  rw [hvalue]

/-- A memory of the owner that says what the query says, in no space and of another type. -/
def decoy (request : SearchRequest R) : Cloud.WritePayload R where
  ownerId := request.ownerId.val
  idempotencyKey := "decoy"
  type := .str (otherType request.type).value
  content := request.query.val
  provenance := typedIn

/-- Some store of the Cloud service returns the decoy. -/
theorem returns_decoy {encryptor : TenantEnvelopeEncryptor} (hserves : encryptor.Serves R)
    {unicode : UnicodeDatabase} {request : SearchRequest R} {tenant : UUID}
    (htenant : tenantOf R request.ownerId.val = .ok tenant)
    (hwords : (Cloud.wordSet unicode request.query.val).Nonempty) :
    ∃ s, Cloud.Reachable encryptor s ∧ ∃ m : Returned, m.space = none ∧
      m.type = some (otherType request.type).value ∧
      (SearchService.cloud encryptor).Returns unicode request s [m] := by
  obtain ⟨provenance, hloads⟩ := exists_typedIn
  obtain ⟨s, r, m, hreach, hrecords, hreads, howner, hcontent, hstate, htype, hspace⟩ :=
    Cloud.exists_found hserves (decoy request) htenant hloads request.wantedState
  have hfound : Cloud.Found encryptor unicode request.ownerId.val request.wantedState
      (Cloud.wordSet unicode request.query.val) r m := by
    refine ⟨howner, ?_, hreads, ?_⟩
    · unfold PyDict.getText
      rw [hstate]
    · rw [hcontent]
      show (_ ∩ Cloud.wordSet unicode request.query.val).Nonempty
      rw [Finset.inter_self]
      exact hwords
  obtain ⟨-, -, hfields⟩ := hreads.plain
  refine ⟨s, hreach, .ofCloud m, ?_, ?_, Cloud.deskEnv 7, _,
    Cloud.search_single htenant hrecords (fun _ => rfl) hfound, rfl⟩
  · show m.fields.getText "space" = none
    unfold PyDict.getText
    rw [hfields, hspace]
    rfl
  · show m.fields.getText "type" = _
    unfold PyDict.getText
    rw [hfields, htype]
    rfl

/-! ## All three -/

namespace SearchService

/-- The service can store at all; only the Cloud service depends on code of others for that. -/
def Works : SearchService R → Prop
  | cloud encryptor => encryptor.Serves R
  | _ => True

/-- The service applies every filter of the request: it is not the Cloud service, or the request
names neither a space nor a type, or it has no word or no Cloud owner. -/
def Applies (unicode : UnicodeDatabase) (request : SearchRequest R) : SearchService R → Prop
  | cloud _ =>
    (request.space = none ∧ request.type = none) ∨ Cloud.wordSet unicode request.query.val = ∅ ∨
      ∀ tenant, tenantOf R request.ownerId.val ≠ .ok tenant
  | _ => True

end SearchService

/-- The search of a service honours a request over all its stores if and only if the service applies
every filter that the request has. -/
theorem filters_honoured_iff {b : SearchService R} (hworks : b.Works) (unicode : UnicodeDatabase)
    (request : SearchRequest R) : b.Honours unicode request ↔ b.Applies unicode request := by
  cases b with
  | gateway service => exact iff_of_true (gateway_honours service unicode request) trivial
  | fake => exact iff_of_true (fake_honours unicode request) trivial
  | cloud encryptor =>
    constructor
    · intro hhonours
      by_contra hnot
      have hmore : ¬(request.space = none ∧ request.type = none) := fun h => hnot (.inl h)
      have hwords : (Cloud.wordSet unicode request.query.val).Nonempty :=
        Finset.nonempty_iff_ne_empty.mpr fun h => hnot (.inr (.inl h))
      obtain ⟨tenant, htenant⟩ : ∃ tenant, tenantOf R request.ownerId.val = .ok tenant := by
        by_contra hnone
        exact hnot (.inr (.inr fun tenant h => hnone ⟨tenant, h⟩))
      -- the decoy is in no space, and of another type
      obtain ⟨s, hreach, m, hspace, htype, hreturns⟩ := returns_decoy hworks htenant hwords
      have hmeets := (hhonours s hreach [m] hreturns).filters m List.mem_cons_self
      refine hmore ⟨?_, ?_⟩
      · cases hgiven : request.space with
        | none => rfl
        | some space =>
          have hasked := hmeets.space space hgiven
          rw [hspace] at hasked
          cases hasked
      · cases hgiven : request.type with
        | none => rfl
        | some type =>
          have hasked := hmeets.type type hgiven
          rw [htype, hgiven] at hasked
          exact absurd (Option.some.inj hasked) (otherType_ne type)
    · rintro happlies s - results ⟨env, hits, hsearch, rfl⟩
      obtain ⟨⟨tenant, htenant⟩, hlimit, hfound⟩ := Cloud.search_ok hsearch
      refine ⟨by rw [List.length_map]; exact hlimit, ?_⟩
      rw [List.forall_mem_map]
      intro hit hhit
      obtain ⟨howner, hstate⟩ := cloud_keeps hsearch hhit
      rcases happlies with ⟨hspace, htype⟩ | hwords | hforeign
      · refine ⟨congrArg some howner, ?_, ?_, hstate⟩
        · intro space hgiven
          rw [hspace] at hgiven
          cases hgiven
        · intro type hgiven
          rw [htype] at hgiven
          cases hgiven
      · obtain ⟨r, -, hr⟩ := hfound hit hhit
        have hshares := hr.shares
        rw [hwords, Finset.empty_inter] at hshares
        exact absurd hshares Finset.not_nonempty_empty
      · exact absurd htenant (hforeign tenant)

/-! ### A desk -/

/-- What the database says of ASCII. -/
def asciiDatabase : UnicodeDatabase where
  casefold text := String.ofList (text.toList.map Char.toLower)
  isWord c := c.isAlphanum || decide (c = '_')

theorem deskEncryptor_serves : Cloud.deskEncryptor.Serves ℚ where
  lawful := Cloud.deskEncryptor_lawful
  wraps := by
    refine ⟨1, by decide, fun random tenant dek _ hdek => ⟨_, if_neg ?_⟩⟩
    rw [hdek]
    decide
  readsId := ⟨⟨7⟩, ⟨7⟩, by decide +kernel⟩

/-- The owner of the desk looks for a word. -/
def deskRequest : SearchRequest ℚ :=
  { teaRequest with
    query := ⟨"A", by decide, by decide⟩
    query_not_blank := by decide
    ownerId := ⟨Cloud.deskOwner, by decide +kernel, by decide⟩ }

/-- The owner of the desk looks for a word in the space `work`. -/
def workRequest : SearchRequest ℚ := { deskRequest with space := some ⟨"work", by decide, by decide⟩ }

/-- The desk is searched for a word in all spaces. -/
theorem filters_honoured_iff_desk :
    (SearchService.cloud Cloud.deskEncryptor).Honours asciiDatabase deskRequest :=
  (filters_honoured_iff (b := .cloud Cloud.deskEncryptor) deskEncryptor_serves asciiDatabase
    deskRequest).mpr (.inl ⟨rfl, rfl⟩)

/-- The fact at the desk is in no space, and a search of the space `work` returns it. -/
theorem other_space_returned :
    ¬∀ (b : SearchService ℚ) (unicode : UnicodeDatabase) (request : SearchRequest ℚ),
      b.Honours unicode request := by
  intro hclaim
  have hsearch : (Cloud.search Cloud.deskEncryptor (Cloud.deskEnv 7) asciiDatabase workRequest
      Cloud.deskWritten).toOption.map (List.map fun hit => Returned.ofCloud hit.memory) =
      some [⟨some Cloud.deskOwner, none, some "fact", some "active"⟩] := by
    decide +kernel
  cases hrun : Cloud.search Cloud.deskEncryptor (Cloud.deskEnv 7) asciiDatabase workRequest
      Cloud.deskWritten with
  | error e =>
    rw [hrun] at hsearch
    cases hsearch
  | ok hits =>
    rw [hrun] at hsearch
    have hresults := Option.some.inj hsearch
    have hmeets := (hclaim (.cloud Cloud.deskEncryptor) asciiDatabase workRequest Cloud.deskWritten
      ⟨1, Cloud.reaches_deskWritten⟩ _ ⟨_, hits, hrun, rfl⟩).filters _
        (hresults ▸ List.mem_cons_self)
    have hspace := hmeets.space _ rfl
    cases hspace

end OpenMemory.Mcp
