import OpenMemory.Admin.Guards
import OpenMemory.Cloud.Search

/-!
# The owner of a memory in the responses of the API

`_redact_owner` takes the key `owner_id` out of a value at every depth (`hasKey_redactOwner`). What
the adapter returns goes through it, and so does a single memory of the Cloud service. The list
without a query does not: it takes the records of `list_records` as they are, and every record
has an owner.

`owner_redacted_iff` is for every adapter, every state and every request on the memory endpoints: a
successful response names no owner if and only if it is not a page of such records.
-/

namespace OpenMemory.Admin

open Lib Handler JsonValue
open Cloud (CloudError EncryptedCloudMemoryService TenantEnvelopeEncryptor CloudMemory PyKey PyObj
  isListed)

/-! ## Redacted values -/

mutual

theorem hasKey_redactOwner : ∀ value : JsonValue, hasKey "owner_id" (redactOwner value) = false
  | .null | .bool _ | .int _ | .float _ | .str _ => rfl
  | .arr items => itemsHaveKey_redactItems items
  | .obj members => membersHaveKey_redactMembers members

theorem itemsHaveKey_redactItems :
    ∀ items : List JsonValue, itemsHaveKey "owner_id" (redactItems items) = false
  | [] => rfl
  | item :: items => by
    rw [redactItems, itemsHaveKey, hasKey_redactOwner item, itemsHaveKey_redactItems items]
    rfl

theorem membersHaveKey_redactMembers : ∀ members : List (String × JsonValue),
    membersHaveKey "owner_id" (redactMembers members) = false
  | [] => rfl
  | (key, value) :: members => by
    rw [redactMembers]
    by_cases hkey : key = "owner_id"
    · rw [if_pos hkey]
      exact membersHaveKey_redactMembers members
    · rw [if_neg hkey, membersHaveKey, decide_eq_false hkey, hasKey_redactOwner value,
        membersHaveKey_redactMembers members]
      rfl

end

/-! ## The Cloud runtime -/

variable {R : Type} [Python R] {α σ : Type}

/-- The service behind the API, and whatever else its runtime keeps. -/
structure CloudBackend (R α : Type) where
  service : EncryptedCloudMemoryService R
  other : α

/-- A memory of the service as a JSON object; `encode` is what the response makes of a field. -/
def memoryMembers (encode : PyKey × PyObj R → String × JsonValue) (memory : CloudMemory R) :
    List (String × JsonValue) :=
  ("id", .str memory.id) :: ("owner_id", .str memory.ownerId) :: memory.fields.map encode ++
    [("content", .str memory.content), ("provenance", memory.provenance)]

/-- The API over a Cloud runtime: `list_records` and `get` are those of the encrypted service, the
adapter is any. -/
def AdminApp.onCloud (app : AdminApp (CloudBackend R α)) (encryptor : TenantEnvelopeEncryptor)
    (env : Cloud.Environment) (encode : PyKey × PyObj R → String × JsonValue) :
    AdminApp (CloudBackend R α) :=
  { app with
    runtime := { app.runtime with
      listRecords := some fun ownerId s =>
        ((Cloud.listRecords encryptor env ownerId s.service).map
          (List.map fun memory => .obj (memoryMembers encode memory)), s)
      get := some fun ownerId memoryId s =>
        ((Cloud.get encryptor env ownerId memoryId s.service).map
          fun memory => (memory.map fun memory => .obj (memoryMembers encode memory)).getD .null,
          s) } }

/-- The endpoints of the memories. -/
def Endpoint.onMemories : Endpoint → Bool
  | .listMemories _ _ _ => true
  | .createMemory _ => true
  | .getMemory _ => true
  | .updateMemory _ _ => true
  | .forgetMemory _ _ => true
  | _ => false

/-- The records that `list_records` lists for the owner. -/
def recordsOf (value : Principal) (s : Server (CloudBackend R α)) : List (Cloud.StoredRecord R) :=
  s.backend.service.records.values.filter (isListed (owner value))

/-- The request asks for a list without a query, and the page it asks for is not empty. -/
def AsksForRecords (s : Server (CloudBackend R α)) (request : AdminRequest) : Prop :=
  ∃ limit cursor value, request.endpoint = .listMemories "" limit cursor ∧
    s.auth.session request.cookie = some value ∧ cursor < (recordsOf value s).length

/-! ## What the adapter returns -/

section Adapter

variable {app : AdminApp σ} {request : AdminRequest} {value : Principal} {s s' : Server σ}

theorem membersHaveKey_call {name : String} {payload data : List (String × JsonValue)}
    (h : (call app value name payload).exec s = (.ok data, s')) :
    membersHaveKey "owner_id" data = false := by
  unfold call at h
  cases htool : app.runtime.callTool with
  | none =>
    rw [htool] at h
    cases h
  | some callTool =>
    rw [htool] at h
    obtain ⟨result, s₁, -, hdone⟩ := exec_bind_ok.mp h
    cases result with
    | error code => cases hdone
    | ok data' =>
      cases hdone
      exact membersHaveKey_redactMembers data'

/-- An endpoint that answers with the data of a tool. -/
theorem hasKey_of_call {name : String} {payload : List (String × JsonValue)} {body : JsonValue}
    (h : (call app value name payload >>= fun data => pure (.obj data)).exec s = (.ok body, s')) :
    hasKey "owner_id" body = false := by
  obtain ⟨data, s₁, hcall, hdone⟩ := exec_bind_ok.mp h
  cases hdone
  exact membersHaveKey_call hcall

/-- The memories that a search found. -/
theorem hasKey_of_memoriesOf {name : String} {payload : List (String × JsonValue)}
    {memories : List JsonValue}
    (h : (call app value name payload >>= memoriesOf).exec s = (.ok memories, s')) :
    ∀ memory ∈ memories, hasKey "owner_id" memory = false := by
  obtain ⟨data, s₁, hcall, hdone⟩ := exec_bind_ok.mp h
  unfold memoriesOf at hdone
  split at hdone
  · rename_i found hmember
    cases hdone
    obtain ⟨-, hfound⟩ := membersHaveKey_eq_false.mp (membersHaveKey_call hcall) _
      (mem_of_member hmember)
    exact itemsHaveKey_eq_false.mp hfound
  · cases hdone

end Adapter

/-! ## The endpoints -/

section Endpoints

variable {app : AdminApp (CloudBackend R α)} {encryptor : TenantEnvelopeEncryptor}
  {env : Cloud.Environment} {encode : PyKey × PyObj R → String × JsonValue}
  {request : AdminRequest} {s s' : Server (CloudBackend R α)}

omit [Python R] in
theorem hasKey_memoryMembers (memory : CloudMemory R) :
    membersHaveKey "owner_id" (memoryMembers encode memory) = true := by
  rw [memoryMembers, List.cons_append, membersHaveKey, List.cons_append, membersHaveKey,
    decide_eq_true rfl, Bool.true_or, Bool.true_or, Bool.or_true]

/-- Where the memories of a list come from: the records of the service, if there is no query, and
otherwise a search, whose memories name no owner. -/
theorem findMemories_ok {value : Principal} {query : String} {memories : List JsonValue}
    (h : (findMemories (app.onCloud encryptor env encode) value query).exec s =
      (.ok memories, s')) :
    (query = "" ∧ memories.length = (recordsOf value s).length ∧
      ∀ memory ∈ memories, hasKey "owner_id" memory = true) ∨
    (query ≠ "" ∧ ∀ memory ∈ memories, hasKey "owner_id" memory = false) := by
  unfold findMemories AdminApp.onCloud at h
  dsimp only at h
  split_ifs at h with hquery
  · obtain ⟨records, s₁, hlist, hdone⟩ := exec_bind_ok.mp h
    cases hdone
    obtain ⟨hrun, -⟩ := callBackend_ok.mp hlist
    cases hfound : Cloud.listRecords encryptor env (owner value) s.backend.service with
    | error e =>
      rw [hfound] at hrun
      cases hrun
    | ok found =>
      rw [hfound] at hrun
      cases hrun
      rw [List.length_map, List.length_map]
      refine .inl ⟨hquery, Cloud.length_listRecords hfound, ?_⟩
      rw [List.forall_mem_map, List.forall_mem_map]
      intro memory _
      rw [hasKey, membersHaveKey, hasKey, hasKey_memoryMembers, Bool.or_true, Bool.true_or]
  · exact .inr ⟨hquery, hasKey_of_memoriesOf h⟩

/-- The body of a list: its memories are a page of those that were found. -/
theorem listMemories_ok {query : String} {limit cursor : Int} {body : JsonValue}
    (h : (listMemories (app.onCloud encryptor env encode) request query limit cursor).exec s =
      (.ok body, s')) :
    ∃ value memories s₁ page next, s.auth.session request.cookie = some value ∧ 0 ≤ cursor ∧
      (findMemories (app.onCloud encryptor env encode) value query).exec s = (.ok memories, s₁) ∧
      page = (memories.drop cursor.toNat).take (min (max limit 1) 50).toNat ∧
      (next = .null ∨ ∃ n, next = .int n) ∧
      body = .obj [("memories", .arr page), ("count", .int page.length),
        ("next_cursor", next)] := by
  obtain ⟨⟨page, next⟩, s₁, hpage, hbody⟩ := exec_bind_ok.mp h
  cases hbody
  unfold memoryPage at hpage
  obtain ⟨value, s₂, hprincipal, hscoped⟩ := exec_bind_ok.mp hpage
  obtain ⟨hsession, rfl⟩ := principal_ok hprincipal
  obtain ⟨_, s₃, hrequires, hread⟩ := exec_bind_ok.mp hscoped
  obtain rfl := requires_ok hrequires
  split_ifs at hread with hcursor
  · cases hread
  · obtain ⟨memories, s₄, hfind, hdone⟩ := exec_bind_ok.mp hread
    cases hdone
    refine ⟨value, memories, _, _, _, hsession, by omega, hfind, rfl, ?_, rfl⟩
    split
    · exact .inl rfl
    · exact .inr ⟨_, rfl⟩

/-- Keys of such a body are those of the memories on the page. -/
theorem hasKey_page {page : List JsonValue} {next : JsonValue} {count : Int}
    (hnext : next = .null ∨ ∃ n, next = .int n) :
    hasKey "owner_id" (.obj [("memories", .arr page), ("count", .int count),
      ("next_cursor", next)]) = itemsHaveKey "owner_id" page := by
  have hlast : hasKey "owner_id" next = false := by
    rcases hnext with rfl | ⟨n, rfl⟩
    · rfl
    · rfl
  simp [hasKey, membersHaveKey, hlast]

/-- A list names an owner exactly if it is a page of records that is not empty. -/
theorem hasKey_listMemories {query : String} {limit cursor : Int} {body : JsonValue}
    (hendpoint : request.endpoint = .listMemories query limit cursor)
    (h : (listMemories (app.onCloud encryptor env encode) request query limit cursor).exec s =
      (.ok body, s')) :
    hasKey "owner_id" body = false ↔ ¬AsksForRecords s request := by
  obtain ⟨value, memories, s₁, page, next, hsession, hcursor, hfind, rfl, hnext, rfl⟩ :=
    listMemories_ok h
  rw [hasKey_page hnext, itemsHaveKey_eq_false]
  have hmem : ∀ memory ∈ (memories.drop cursor.toNat).take (min (max limit 1) 50).toNat,
      memory ∈ memories := fun _ hm => List.mem_of_mem_drop (List.mem_of_mem_take hm)
  have hasks : AsksForRecords s request ↔ query = "" ∧ cursor < (recordsOf value s).length := by
    constructor
    · rintro ⟨limit', cursor', value', hendpoint', hsession', hmore⟩
      cases hendpoint.symm.trans hendpoint'
      cases hsession.symm.trans hsession'
      exact ⟨rfl, hmore⟩
    · rintro ⟨rfl, hmore⟩
      exact ⟨limit, cursor, value, hendpoint, hsession, hmore⟩
  rw [hasks]
  rcases findMemories_ok hfind with ⟨rfl, hlength, howned⟩ | ⟨hquery, hfree⟩
  · -- a page of records is free of the key only if it is empty
    constructor
    · rintro hfree ⟨-, hmore⟩
      have hlt : cursor.toNat < memories.length := by omega
      have hfirst : memories[cursor.toNat] ∈
          (memories.drop cursor.toNat).take (min (max limit 1) 50).toNat := by
        rw [List.drop_eq_getElem_cons hlt]
        obtain ⟨n, hn⟩ := Nat.exists_eq_succ_of_ne_zero
          (show (min (max limit 1) 50).toNat ≠ 0 by omega)
        rw [hn, List.take_succ_cons]
        exact List.mem_cons_self
      have hkey := hfree _ hfirst
      rw [howned _ (List.getElem_mem hlt)] at hkey
      cases hkey
    · intro hnot memory hm
      have hend : memories.length ≤ cursor.toNat := by
        by_contra hlt
        exact hnot ⟨rfl, by omega⟩
      rw [List.drop_eq_nil_of_le hend, List.take_nil] at hm
      cases hm
  · exact iff_of_true (fun memory hm => hfree memory (hmem memory hm)) fun h => hquery h.1

/-- A memory of the service is redacted. -/
theorem hasKey_getMemory {memoryId : String} {body : JsonValue}
    (h : (getMemory (app.onCloud encryptor env encode) request memoryId).exec s = (.ok body, s')) :
    hasKey "owner_id" body = false := by
  obtain ⟨value, s₁, -, h⟩ := exec_bind_ok.mp h
  obtain ⟨_, s₂, -, h⟩ := exec_bind_ok.mp h
  obtain ⟨memory, s₃, -, hdone⟩ := exec_bind_ok.mp h
  cases memory with
  | obj members =>
    cases hdone
    exact membersHaveKey_redactMembers members
  | null | bool | int | float | str | arr => cases hdone

/-- An endpoint that checks header and scope and answers with the data of a tool. -/
theorem hasKey_of_guarded {scope : Scope} {name : String} {payload : List (String × JsonValue)}
    {body : JsonValue}
    (h : (requireCsrf request >>= fun value => requires value scope request.now >>= fun _ =>
      call (app.onCloud encryptor env encode) value name payload >>= fun data =>
        pure (.obj data)).exec s = (.ok body, s')) :
    hasKey "owner_id" body = false := by
  obtain ⟨value, s₁, -, h⟩ := exec_bind_ok.mp h
  obtain ⟨_, s₂, -, h⟩ := exec_bind_ok.mp h
  exact hasKey_of_call h

/-! ## All of them -/

/-- On the memory endpoints of a Cloud runtime a successful response is free of `owner_id` at every
depth if and only if the request does not ask for a page of records. -/
theorem owner_redacted_iff {reply : Reply} (hendpoint : request.endpoint.onMemories = true)
    (h : (app.onCloud encryptor env encode).handle request s = (.ok reply, s')) :
    hasKey "owner_id" reply.body = false ↔ ¬AsksForRecords s request := by
  have hother : ∀ {endpoint}, request.endpoint = endpoint →
      (∀ limit cursor, endpoint ≠ .listMemories "" limit cursor) → ¬AsksForRecords s request := by
    rintro _ rfl hne ⟨limit, cursor, -, hlist, -⟩
    exact hne limit cursor hlist
  unfold AdminApp.handle serve at h
  cases hcase : request.endpoint <;> rw [hcase] at h hendpoint <;> try cases hendpoint
  case listMemories query limit cursor =>
    obtain ⟨body, s₁, hbody, hreply⟩ := exec_bind_ok.mp h
    cases hreply
    exact hasKey_listMemories hcase hbody
  all_goals
    obtain ⟨body, s₁, hbody, hreply⟩ := exec_bind_ok.mp h
    cases hreply
    refine iff_of_true ?_ (hother hcase fun _ _ h => by cases h)
  case createMemory payload => exact hasKey_of_guarded hbody
  case getMemory memoryId => exact hasKey_getMemory hbody
  case updateMemory memoryId payload => exact hasKey_of_guarded hbody
  case forgetMemory memoryId idempotencyKey => exact hasKey_of_guarded hbody

end Endpoints

/-! ### One record -/

/-- A field of the records that the service writes. -/
def plainField : PyKey × PyObj ℚ → String × JsonValue
  | (.str key, .str s) => (key, .str s)
  | (.str key, .int n) => (key, .int n)
  | (.str key, .float x) => (key, .float (fixedDecimal 1 x))
  | (.str key, _) => (key, .null)
  | (.other _, _) => ("", .null)

/-- The user's owner in the service. -/
def adaOwner : String :=
  owner (LocalMailboxAuth.principalForDigest (sha256Hexdigest "ada@example.test") (atHour 1))

theorem magicLinkLimit_pos : 1 ≤ 5 := by decide

theorem magicLinkWindow_pos : 0 < 15 * minuteMicros := by decide

/-- The API over a service with one memory of the user. -/
def deskApp : AdminApp (CloudBackend ℚ Unit) :=
  (AdminApp.mk
    { casefold := id, limit_pos := magicLinkLimit_pos, window_pos := magicLinkWindow_pos }
    {}).onCloud Cloud.deskEncryptor (Cloud.deskEnv 7) plainField

def adaBackend : CloudBackend ℚ Unit where
  service := (Cloud.CloudCall.write (Cloud.deskEnv 7)
    { Cloud.deskNote "k" "A" with ownerId := adaOwner }).apply Cloud.deskEncryptor
      (Cloud.newService 1)
  other := ()

/-- The user has signed in. -/
def adaServer : Server (CloudBackend ℚ Unit) := signIn.foldl deskApp.next { backend := adaBackend }

/-- The memory itself is answered without its owner. -/
theorem owner_redacted_iff_get :
    ∃ reply, (deskApp.handle (signedInAt 0 (.getMemory Cloud.deskId)) adaServer).1 = .ok reply ∧
      hasKey "id" reply.body = true ∧ hasKey "owner_id" reply.body = false := by
  have hbody : ((deskApp.handle (signedInAt 0 (.getMemory Cloud.deskId)) adaServer).1.toOption.map
      fun reply => hasKey "id" reply.body) = some true := by decide +kernel
  cases hrun : deskApp.handle (signedInAt 0 (.getMemory Cloud.deskId)) adaServer with
  | mk outcome s' =>
    cases outcome with
    | error e =>
      rw [hrun] at hbody
      cases hbody
    | ok reply =>
      rw [hrun] at hbody
      refine ⟨reply, rfl, Option.some.inj hbody, (owner_redacted_iff rfl hrun).mpr ?_⟩
      rintro ⟨limit, cursor, value, hlist, -⟩
      cases hlist

/-- In the list the same memory comes with its owner. -/
theorem list_names_owner :
    ¬∀ (request : AdminRequest) (reply : Reply) (s s' : Server (CloudBackend ℚ Unit)),
      request.endpoint.onMemories = true → deskApp.handle request s = (.ok reply, s') →
      hasKey "owner_id" reply.body = false := by
  intro hclaim
  have hbody : ((deskApp.handle (signedInAt 0 (.listMemories "" 20 0)) adaServer).1.toOption.map
      fun reply => hasKey "owner_id" reply.body) = some true := by decide +kernel
  cases hrun : deskApp.handle (signedInAt 0 (.listMemories "" 20 0)) adaServer with
  | mk outcome s' =>
    cases outcome with
    | error e =>
      rw [hrun] at hbody
      cases hbody
    | ok reply =>
      rw [hrun] at hbody
      have hnamed : hasKey "owner_id" reply.body = true := Option.some.inj hbody
      have hfree := hclaim _ reply _ s' rfl hrun
      rw [hnamed] at hfree
      cases hfree

end OpenMemory.Admin
