import OpenMemory.Domain.Clock
import OpenMemory.Lib.Handler
import OpenMemory.Lib.Sha1
import OpenMemory.Worker.Library

/-!
# The administrative API (`cloud/admin.py`)

`LocalMailboxAuth` keeps magic links, sessions, connections, agent credentials and receipts. Of the
secrets that it hands out it keeps digests. An endpoint resolves the cookie of a request to a
principal, compares the CSRF header where it changes something, checks the scope of the principal,
and then works on these maps or calls the runtime behind the API. `LocalAgentCredentialVerifier`
reads the agent credentials.

Endpoints are handlers: an exception ends them, and what they have changed before stays. What an
endpoint draws at random is an argument of it. The runtime is a parameter (`Runtime`), and so is
`str.casefold`. What FastAPI and pydantic check of the shape of a request comes before an endpoint
and is not modelled.
-/

namespace OpenMemory.Admin

open Lib Worker
open Cloud (CloudError encodeText)

/-! ## Digests and ids -/

/-- `hashlib.sha256(text.encode()).hexdigest()`. -/
def sha256Hexdigest (text : String) : String :=
  String.ofList (Sha256.hexdigest hexDigit ((encodeText text).map UInt8.toNat))

/-- `uuid.bytes`. -/
def uuidBytes (u : UUID) : List Nat := (List.range 16).map fun i => u.int.val / 256 ^ (15 - i) % 256

/-- `uuid5`: the version is in the upper half of byte 6, the variant in the upper bits of byte 8. -/
def uuid5 (namespace_ : UUID) (name : String) : UUID :=
  let digest := Sha1.digest (uuidBytes namespace_ ++ (encodeText name).map UInt8.toNat)
  let bytes := (digest.take 16).mapIdx fun i b =>
    if i = 6 then b % 16 + 80 else if i = 8 then b % 64 + 128 else b
  ⟨Fin.ofNat _ (bytes.foldl (fun n b => n * 256 + b) 0)⟩

/-- `NAMESPACE_URL`. -/
def namespaceUrl : UUID := ⟨Fin.ofNat _ 0x6ba7b8119dad11d180b400c04fd430c8⟩

-- `uuid5(NAMESPACE_URL, "python.org")`
example : (uuid5 namespaceUrl "python.org").str = "7af94e2b-4dd9-50f0-9c9a-8a48519bdef0" := by
  decide +kernel

/-! ## Principals -/

/-- `Scope`. -/
inductive Scope
  | memoryRead | memoryWrite | memoryDelete | memoryExport | connectionsManage
  deriving DecidableEq, Repr

def Scope.value : Scope → String
  | .memoryRead => "memory:read"
  | .memoryWrite => "memory:write"
  | .memoryDelete => "memory:delete"
  | .memoryExport => "memory:export"
  | .connectionsManage => "connections:manage"

def Scope.all : List Scope :=
  [.memoryRead, .memoryWrite, .memoryDelete, .memoryExport, .connectionsManage]

/-- `Scope(text)`, `none` for `ValueError`. -/
def Scope.ofValue (text : String) : Option Scope := Scope.all.find? fun scope => scope.value = text

/-- `sorted(scope.value for scope in scopes)`. -/
def sortedScopes (scopes : Finset Scope) : List String :=
  ((Scope.all.filter (· ∈ scopes)).map Scope.value).insertionSort fun a b => a ≤ b

structure Principal where
  subjectId : UUID
  tenantId : UUID
  membershipId : UUID
  scopes : Finset Scope
  credentialId : UUID
  authMethod : String
  expiresAt : DateTime
  deriving DecidableEq

/-- `self.expires_at <= now`. -/
def Principal.isExpired (p : Principal) (now : DateTime) : Bool :=
  decide (p.expiresAt.instant ≤ now.instant)

/-! ## Errors -/

/-- What ends an endpoint: `HTTPException`, or another exception. -/
inductive AdminError
  | http (status : Nat) (detail : String)
  | cloud (error : CloudError)
  | overflowError
  deriving DecidableEq

/-- The status that the client sees; a `PermissionError` has a handler of its own. -/
def AdminError.status : AdminError → Nat
  | .http status _ => status
  | .cloud error => if error.isPermissionError then 403 else 500
  | .overflowError => 500

/-! ## The mailbox -/

/-- `_MagicLink`. -/
structure MagicLink where
  digest : String
  principal : Principal
  expiresAt : DateTime
  used : Bool := false

structure Connection where
  id : String
  name : String
  scopes : List String
  tenantId : String
  status : String
  deriving DecidableEq

structure AgentCredential where
  id : String
  name : String
  tenantId : String
  scopes : List String
  tokenDigest : String
  subjectId : String
  membershipId : String
  credentialId : String
  expiresAt : String
  revoked : Bool
  deriving DecidableEq

structure Receipt where
  id : String
  kind : String
  status : String
  tenantId : String
  createdAt : String
  deriving DecidableEq

def Connection.json (c : Connection) : JsonValue :=
  .obj [("id", .str c.id), ("name", .str c.name), ("scopes", .arr (c.scopes.map .str)),
    ("tenant_id", .str c.tenantId), ("status", .str c.status), ("last_used_at", .null)]

/-- The fields whose names do not start with an underscore. -/
def AgentCredential.json (c : AgentCredential) : JsonValue :=
  .obj [("id", .str c.id), ("name", .str c.name), ("tenant_id", .str c.tenantId),
    ("scopes", .arr (c.scopes.map .str)), ("expires_at", .str c.expiresAt),
    ("revoked", .bool c.revoked)]

def Receipt.json (r : Receipt) : JsonValue :=
  .obj [("id", .str r.id), ("kind", .str r.kind), ("status", .str r.status),
    ("tenant_id", .str r.tenantId), ("created_at", .str r.createdAt)]

/-- Microseconds of a minute. -/
def minuteMicros : Int := 60000000

/-- The arguments of `LocalMailboxAuth`, which raises unless the limits are positive. -/
structure MailboxSettings where
  secureCookies : Bool := false
  magicLinkLimit : Nat := 5
  magicLinkWindow : Int := 15 * minuteMicros
  casefold : String → String
  limit_pos : 1 ≤ magicLinkLimit := by decide
  window_pos : 0 < magicLinkWindow := by decide

/-- The maps of a mailbox. Every message of the outbox goes to `captured`. -/
structure LocalMailboxAuth where
  outbox : List String := []
  links : Dict String MagicLink := ∅
  sessions : Dict String Principal := ∅
  csrfTokens : Dict String String := ∅
  connections : Dict String Connection := ∅
  agentCredentials : Dict String AgentCredential := ∅
  agentTokenIndex : Dict String String := ∅
  operations : Dict String Receipt := ∅
  magicLinkAttempts : Dict String (List DateTime) := ∅
  deletedTenants : Finset String := ∅

namespace LocalMailboxAuth

/-- `_principal_for_digest`. -/
def principalForDigest (emailDigest : String) (expiresAt : DateTime) : Principal :=
  let identifier (kind : String) : UUID :=
    uuid5 namespaceUrl ("umcp.local.magic-link/" ++ kind ++ "/" ++ emailDigest)
  { subjectId := identifier "subject", tenantId := identifier "tenant"
    membershipId := identifier "membership", credentialId := identifier "credential"
    scopes := Scope.all.toFinset, authMethod := "local-magic-link", expiresAt := expiresAt }

/-- The attempts within the window, `none` for `OverflowError`. -/
def recentAttempts (window : Int) (now : DateTime) (previous : List DateTime) :
    Option (List DateTime) :=
  if previous = [] then some []
  else (now.plus (-window)).map fun since =>
    previous.filter fun item => decide (since.instant < item.instant)

/-- `request`; `raw` is the token that is drawn. -/
def request (settings : MailboxSettings) (now : DateTime) (email raw : String)
    (auth : LocalMailboxAuth) : Except AdminError Bool × LocalMailboxAuth :=
  let emailDigest := sha256Hexdigest (settings.casefold (strip email))
  let previous := (auth.magicLinkAttempts.get? emailDigest).getD []
  match recentAttempts settings.magicLinkWindow now previous with
  | none => (.error .overflowError, auth)
  | some allowed =>
    if settings.magicLinkLimit ≤ allowed.length then
      (.ok false,
        { auth with magicLinkAttempts := auth.magicLinkAttempts.set emailDigest allowed })
    else
      let auth := { auth with
        magicLinkAttempts := auth.magicLinkAttempts.set emailDigest (allowed ++ [now]) }
      match now.plus (60 * minuteMicros), now.plus (10 * minuteMicros) with
      | some expiresAt, some linkExpiresAt =>
        let digest := sha256Hexdigest raw
        (.ok true, { auth with
          links := auth.links.set digest
            { digest := digest, principal := principalForDigest emailDigest expiresAt
              expiresAt := linkExpiresAt }
          outbox := auth.outbox ++ [raw] })
      | _, _ => (.error .overflowError, auth)

/-- `consume`; the session token and the CSRF token are drawn. -/
def consume (now : DateTime) (raw session csrf : String) (auth : LocalMailboxAuth) :
    Option (String × String) × LocalMailboxAuth :=
  match auth.links.get? (sha256Hexdigest raw) with
  | none => (none, auth)
  | some link =>
    if link.used = true ∨ link.expiresAt.instant ≤ now.instant then (none, auth)
    else
      (some (session, csrf), { auth with
        links := auth.links.set (sha256Hexdigest raw) { link with used := true }
        sessions := auth.sessions.set (sha256Hexdigest session) link.principal
        csrfTokens := auth.csrfTokens.set (sha256Hexdigest session) csrf })

/-- The digest of a token, unless it is absent or empty. -/
def digestOf (raw : Option String) : Option String :=
  match raw with
  | none => none
  | some text => if text = "" then none else some (sha256Hexdigest text)

/-- The principal that a session token stands for, live or not. -/
def sessionRecord (auth : LocalMailboxAuth) (raw : Option String) : Option Principal :=
  (digestOf raw).bind auth.sessions.get?

/-- `session`. -/
def session (auth : LocalMailboxAuth) (raw : Option String) : Option Principal :=
  match auth.sessionRecord raw with
  | none => none
  | some value => if value.tenantId.str ∈ auth.deletedTenants then none else some value

/-- `csrf`. -/
def csrf (auth : LocalMailboxAuth) (raw : Option String) : Option String :=
  (digestOf raw).bind auth.csrfTokens.get?

/-- `logout`. -/
def logout (raw : Option String) (auth : LocalMailboxAuth) : LocalMailboxAuth :=
  match digestOf raw with
  | none => auth
  | some digest =>
    { auth with sessions := auth.sessions.pop digest, csrfTokens := auth.csrfTokens.pop digest }

/-- `delete_tenant`. -/
def deleteTenant (principal : Principal) (auth : LocalMailboxAuth) : LocalMailboxAuth :=
  let tenantId := principal.tenantId.str
  let tokenDigests := (auth.agentCredentials.values.filter fun c => c.tenantId = tenantId).map
    AgentCredential.tokenDigest
  let sessionDigests := (auth.sessions.filter fun _ p => p.tenantId.str = tenantId).keys
  { auth with
    deletedTenants := insert tenantId auth.deletedTenants
    connections := auth.connections.mapValues fun _ c =>
      if c.tenantId = tenantId then { c with status := "revoked" } else c
    agentCredentials := auth.agentCredentials.mapValues fun _ c =>
      if c.tenantId = tenantId then { c with revoked := true } else c
    agentTokenIndex := tokenDigests.foldl Dict.pop auth.agentTokenIndex
    sessions := sessionDigests.foldl Dict.pop auth.sessions
    csrfTokens := sessionDigests.foldl Dict.pop auth.csrfTokens }

/-- The receipt that `_receipt` makes; `operation` is the id that is drawn. -/
def receiptOf (kind : String) (principal : Principal) (status : String) (now : DateTime)
    (operation : String) : Receipt where
  id := "op_" ++ operation
  kind := kind
  status := status
  tenantId := principal.tenantId.str
  createdAt := now.zulu

/-- `receipt` keeps it. -/
def keepReceipt (receipt : Receipt) (auth : LocalMailboxAuth) : LocalMailboxAuth :=
  { auth with operations := auth.operations.set receipt.id receipt }

end LocalMailboxAuth

/-! ## Agent tokens -/

/-- `AccessToken`, with its claims. -/
structure AccessToken where
  token : String
  clientId : String
  scopes : List String
  expiresAt : Int
  resource : String
  subject : String
  iss : String
  tenantId : String
  membershipId : String
  credentialId : String
  deriving DecidableEq

/-- Microseconds from `0001-01-01` to the epoch. -/
def epochMicros : Int := 62135596800000000

/-- `LocalAgentCredentialVerifier`; the mailbox and the clock are arguments of its method. -/
structure LocalAgentCredentialVerifier where
  issuer : String
  audience : String

/-- `verify_token`. -/
def LocalAgentCredentialVerifier.verifyToken (verifier : LocalAgentCredentialVerifier)
    (now : DateTime) (auth : LocalMailboxAuth) (token : String) : Option AccessToken := do
  let digest := sha256Hexdigest token
  let credentialId ← auth.agentTokenIndex.get? digest
  let credential ← auth.agentCredentials.get? credentialId
  if credential.tokenDigest ≠ digest then none
  else
    let expiresAt ← readIsoformat (fromZ credential.expiresAt)
    let scopes ← credential.scopes.mapM fun item => (Scope.ofValue item).map Scope.value
    if credential.revoked = true ∨ expiresAt.instant ≤ now.instant then none
    else
      some
        { token := token, clientId := "local-agent:" ++ credentialId, scopes := scopes
          expiresAt := (expiresAt.instant - epochMicros).tdiv 1000000
          resource := verifier.audience, subject := credential.subjectId, iss := verifier.issuer
          tenantId := credential.tenantId, membershipId := credential.membershipId
          credentialId := credential.credentialId }

/-! ## The runtime -/

/-- What the adapter answers: the data, or the code of the error. -/
inductive ToolResult
  | ok (data : List (String × JsonValue))
  | error (code : String)

/-- The runtime as the endpoints use it: its adapter, called in the scope of a tenant, and the
methods of its service that are looked up by name and may be missing. `delete_owner` answers every
owner of a principal with a count. -/
structure Runtime (σ : Type) where
  callTool : Option (UUID → String → List (String × JsonValue) → σ →
    Except CloudError ToolResult × σ) := none
  listRecords : Option (String → σ → Except CloudError (List JsonValue) × σ) := none
  get : Option (String → String → σ → Except CloudError JsonValue × σ) := none
  deleteOwner : Option (String → σ → Int × σ) := none

/-- The state behind the API. -/
structure Server (σ : Type) where
  auth : LocalMailboxAuth := {}
  backend : σ

/-- The arguments of `create_admin_app`. -/
structure AdminApp (σ : Type) where
  settings : MailboxSettings
  runtime : Runtime σ

/-! ## Requests -/

/-- The payload of `memory.write`; the numbers are literals. -/
structure MemoryWriteRequest where
  content : String
  type : String
  provenance : List (String × JsonValue)
  idempotencyKey : String
  importance : String := "0.5"
  confidence : String := "0.5"

structure MemoryUpdateRequest where
  expectedVersion : Int
  patch : List (String × JsonValue)
  idempotencyKey : String

structure ConnectionRequest where
  name : String
  scopes : Finset Scope

structure AgentCredentialRequest where
  name : String
  scopes : Finset Scope
  expiresInSeconds : Int := 3600

/-- `model_dump`. -/
def MemoryWriteRequest.modelDump (payload : MemoryWriteRequest) : List (String × JsonValue) :=
  [("content", .str payload.content), ("type", .str payload.type),
    ("provenance", .obj payload.provenance), ("idempotency_key", .str payload.idempotencyKey),
    ("importance", .float payload.importance), ("confidence", .float payload.confidence)]

/-- `model_dump`. -/
def MemoryUpdateRequest.modelDump (payload : MemoryUpdateRequest) : List (String × JsonValue) :=
  [("expected_version", .int payload.expectedVersion), ("patch", .obj payload.patch),
    ("idempotency_key", .str payload.idempotencyKey)]

/-- An endpoint with its arguments and with what it draws. -/
inductive Endpoint
  | capabilities
  | magicLink (email redirect raw : String)
  | callback (token session csrf : String)
  | session
  | logout
  | listMemories (query : String) (limit cursor : Int)
  | createMemory (payload : MemoryWriteRequest)
  | getMemory (memoryId : String)
  | updateMemory (memoryId : String) (payload : MemoryUpdateRequest)
  | forgetMemory (memoryId idempotencyKey : String)
  | listConnections
  | createConnection (payload : ConnectionRequest) (connection operation : String)
  | revokeConnection (connectionId operation : String)
  | createAgentCredential (payload : AgentCredentialRequest) (raw credential : String)
      (internal : UUID)
  | listAgentCredentials
  | revokeAgentCredential (credentialId operation : String)
  | requestExport (operation : String)
  | operationStatus (operationId : String)
  | requestAccountDeletion (operation : String)

/-- A request: the cookie `umcp_session`, the header `x-umcp-csrf`, and the readings of the clock
of the system and of the clock of the mailbox while it is served. -/
structure AdminRequest where
  cookie : Option String := none
  csrf : String := ""
  now : DateTime
  clock : DateTime
  endpoint : Endpoint
  now_utc : now.offset = some 0 := by rfl

inductive CookieChange
  | set (value : String) (secure : Bool)
  | delete

structure Reply where
  body : JsonValue
  cookie : Option CookieChange := none

/-! ## What endpoints share -/

abbrev AdminM (σ : Type) : Type → Type := Handler (Server σ) AdminError

section Endpoints

variable {σ : Type}

/-- Change the mailbox. -/
def modifyAuth (f : LocalMailboxAuth → LocalMailboxAuth) : AdminM σ PUnit :=
  modify fun s => { s with auth := f s.auth }

/-- Call something behind the API. -/
def callBackend {α : Type} (f : σ → Except CloudError α × σ) : AdminM σ α := do
  let s ← get
  set { s with backend := (f s.backend).2 }
  match (f s.backend).1 with
  | .error e => throw (.cloud e)
  | .ok a => pure a

/-- `principal`. -/
def principal (request : AdminRequest) : AdminM σ Principal := do
  let s ← get
  match s.auth.session request.cookie with
  | none => throw (.http 401 "authentication required")
  | some value => pure value

/-- `require_csrf`. -/
def requireCsrf (request : AdminRequest) : AdminM σ Principal := do
  let value ← principal request
  let s ← get
  match compareDigest request.csrf ((s.auth.csrf request.cookie).getD "") with
  | none => throw (.cloud .typeError)
  | some false => throw (.http 403 "request rejected")
  | some true => pure value

/-- `Principal.requires`. -/
def requires (value : Principal) (scope : Scope) (now : DateTime) : AdminM σ PUnit :=
  if value.isExpired now = true ∨ scope ∉ value.scopes then
    throw (.cloud (.permissionError "authorization denied"))
  else pure ⟨⟩

/-- `owner`. -/
def owner (value : Principal) : String :=
  "cloud:" ++ value.tenantId.str ++ ":" ++ value.subjectId.str

mutual

/-- `_redact_owner`. -/
def redactOwner : JsonValue → JsonValue
  | .arr items => .arr (redactItems items)
  | .obj members => .obj (redactMembers members)
  | value => value

/-- `_redact_owner` of the items of a list. -/
def redactItems : List JsonValue → List JsonValue
  | [] => []
  | item :: items => redactOwner item :: redactItems items

/-- `_redact_owner` of a dict: without `owner_id`, and of the values that are left. -/
def redactMembers : List (String × JsonValue) → List (String × JsonValue)
  | [] => []
  | (key, value) :: members =>
    if key = "owner_id" then redactMembers members
    else (key, redactOwner value) :: redactMembers members

end

variable (app : AdminApp σ)

/-- `call`. -/
def call (value : Principal) (name : String) (payload : List (String × JsonValue)) :
    AdminM σ (List (String × JsonValue)) :=
  match app.runtime.callTool with
  | none => throw (.http 503 "service unavailable")
  | some callTool => do
    let result ← callBackend
      (callTool value.tenantId name (payload ++ [("owner_id", .str (owner value))]))
    match result with
    | .error code =>
      throw (.http (if code = "not_found" then 404 else if code = "version_conflict" then 409
        else 400) "request could not be completed")
    | .ok data => pure (redactMembers data)

/-- `auth.receipt`. -/
def receipt (request : AdminRequest) (kind : String) (value : Principal)
    (status operation : String) : AdminM σ Receipt := do
  let receipt := LocalMailboxAuth.receiptOf kind value status request.now operation
  modifyAuth (LocalMailboxAuth.keepReceipt receipt)
  pure receipt

/-! ## Signing in and out -/

def capabilities : JsonValue :=
  .obj [("version", .str "umcp.admin.v1"), ("auth", .str "local_magic_link"),
    ("email_delivery", .str "captured"), ("connections", .bool true),
    ("agent_credentials", .bool true), ("tenant_export", .bool true),
    ("account_deletion", .bool true)]

def magicLink (request : AdminRequest) (email redirect raw : String) : AdminM σ JsonValue :=
  if redirect ∉ ["/", "/dashboard", "/memories"] then throw (.http 400 "invalid request")
  else do
    let s ← get
    let (outcome, auth) := s.auth.request app.settings request.clock email raw
    set { s with auth := auth }
    match outcome with
    | .error e => throw e
    | .ok _ => pure (.obj [("status", .str "accepted")])

def callback (request : AdminRequest) (token session csrf : String) : AdminM σ Reply := do
  let s ← get
  let (issued, auth) := s.auth.consume request.clock token session csrf
  set { s with auth := auth }
  match issued with
  | none => throw (.http 400 "invalid or expired link")
  | some (session, csrf) =>
    pure
      { body := .obj [("status", .str "authenticated"), ("csrf", .str csrf)]
        cookie := some (.set session app.settings.secureCookies) }

def session (request : AdminRequest) : AdminM σ JsonValue := do
  let value ← principal request
  pure (.obj [("subject_id", .str value.subjectId.str), ("tenant_id", .str value.tenantId.str),
    ("scopes", .arr ((sortedScopes value.scopes).map .str))])

def logout (request : AdminRequest) : AdminM σ Reply := do
  let _ ← requireCsrf request
  modifyAuth (LocalMailboxAuth.logout request.cookie)
  pure { body := .obj [("status", .str "logged_out")], cookie := some .delete }

/-! ## Memories -/

/-- `result.get("memories")`, which has to be a list. -/
def memoriesOf (result : List (String × JsonValue)) : AdminM σ (List JsonValue) :=
  match JsonValue.member "memories" result with
  | some (.arr memories) => pure memories
  | _ => throw (.http 500 "service response invalid")

/-- What a listing without a query, or a search, finds. -/
def findMemories (value : Principal) (query : String) : AdminM σ (List JsonValue) :=
  match app.runtime.listRecords with
  | some lister =>
    if query = "" then do
      let records ← callBackend (lister (owner value))
      pure (records.map fun item => .obj [("memory", item)])
    else do
      let result ← call app value "memory.search" [("query", .str query), ("limit", .int 50)]
      memoriesOf result
  | none => do
    let result ← call app value "memory.search" [("query", .str query), ("limit", .int 50)]
    memoriesOf result

/-- The page of `list_memories`. -/
def memoryPage (request : AdminRequest) (query : String) (limit cursor : Int) :
    AdminM σ (List JsonValue × Option Int) := do
  let value ← principal request
  requires value .memoryRead request.now
  if cursor < 0 then throw (.http 400 "invalid request")
  else do
    let pageSize := min (max limit 1) 50
    let memories ← findMemories app value query
    let page := (memories.drop cursor.toNat).take pageSize.toNat
    let next := cursor + page.length
    pure (page, if next < memories.length then some next else none)

def listMemories (request : AdminRequest) (query : String) (limit cursor : Int) :
    AdminM σ JsonValue := do
  let (page, next) ← memoryPage app request query limit cursor
  pure (.obj [("memories", .arr page), ("count", .int page.length),
    ("next_cursor", match next with | none => .null | some n => .int n)])

def createMemory (request : AdminRequest) (payload : MemoryWriteRequest) : AdminM σ JsonValue := do
  let value ← requireCsrf request
  requires value .memoryWrite request.now
  let data ← call app value "memory.write" payload.modelDump
  pure (.obj data)

/-- The memory of an item of a page, if it has the id. -/
def memoryWithId (memoryId : String) : JsonValue → Option JsonValue
  | .obj item =>
    match JsonValue.member "memory" item with
    | some (.obj memory) =>
      match JsonValue.member "id" memory with
      | some (.str id) => if id = memoryId then some (.obj memory) else none
      | _ => none
    | _ => none
  | _ => none

def getMemory (request : AdminRequest) (memoryId : String) : AdminM σ JsonValue := do
  let value ← principal request
  requires value .memoryRead request.now
  match app.runtime.get with
  | some getter => do
    let memory ← callBackend (getter (owner value) memoryId)
    match memory with
    | .obj members => pure (.obj (redactMembers members))
    | _ => throw (.http 404 "not found")
  | none => do
    let (items, _) ← memoryPage app request "memory" 50 0
    match items.findSome? (memoryWithId memoryId) with
    | none => throw (.http 404 "not found")
    | some memory => pure memory

def updateMemory (request : AdminRequest) (memoryId : String) (payload : MemoryUpdateRequest) :
    AdminM σ JsonValue := do
  let value ← requireCsrf request
  requires value .memoryWrite request.now
  let data ← call app value "memory.update" (("id", .str memoryId) :: payload.modelDump)
  pure (.obj data)

def forgetMemory (request : AdminRequest) (memoryId idempotencyKey : String) :
    AdminM σ JsonValue := do
  let value ← requireCsrf request
  requires value .memoryDelete request.now
  let data ← call app value "memory.forget"
    [("id", .str memoryId), ("idempotency_key", .str idempotencyKey)]
  pure (.obj data)

/-! ## Connections -/

def listConnections (request : AdminRequest) : AdminM σ JsonValue := do
  let value ← principal request
  requires value .connectionsManage request.now
  let s ← get
  let items := s.auth.connections.values.filter fun c => c.tenantId = value.tenantId.str
  pure (.obj [("connections", .arr (items.map Connection.json)), ("count", .int items.length)])

def createConnection (request : AdminRequest) (payload : ConnectionRequest)
    (connection operation : String) : AdminM σ JsonValue := do
  let value ← requireCsrf request
  requires value .connectionsManage request.now
  let connection : Connection :=
    { id := "conn_" ++ connection, name := payload.name, scopes := sortedScopes payload.scopes
      tenantId := value.tenantId.str, status := "active" }
  modifyAuth fun auth => { auth with connections := auth.connections.set connection.id connection }
  let receipt ← receipt request "connection.created" value "done" operation
  pure (.obj [("connection", connection.json), ("receipt", receipt.json)])

def revokeConnection (request : AdminRequest) (connectionId operation : String) :
    AdminM σ JsonValue := do
  let value ← requireCsrf request
  requires value .connectionsManage request.now
  let s ← get
  match s.auth.connections.get? connectionId with
  | none => throw (.http 404 "not found")
  | some connection =>
    if connection.tenantId ≠ value.tenantId.str then throw (.http 404 "not found")
    else do
      let revoked := { connection with status := "revoked" }
      modifyAuth fun auth => { auth with connections := auth.connections.set connectionId revoked }
      let receipt ← receipt request "connection.revoked" value "done" operation
      pure (.obj [("connection", revoked.json), ("receipt", receipt.json)])

/-! ## Agent credentials -/

/-- The token that is returned once. -/
def agentToken (raw : String) : String := "umcp_pat_" ++ raw

/-- The credential that `create_agent_credential` stores. -/
def newCredential (value : Principal) (payload : AgentCredentialRequest)
    (raw credential : String) (internal : UUID) (expiresAt : DateTime) : AgentCredential where
  id := "cred_" ++ credential
  name := payload.name
  tenantId := value.tenantId.str
  scopes := sortedScopes payload.scopes
  tokenDigest := sha256Hexdigest (agentToken raw)
  subjectId := value.subjectId.str
  membershipId := value.membershipId.str
  credentialId := internal.str
  expiresAt := expiresAt.zulu
  revoked := false

/-- Store a credential and index its token. -/
def LocalMailboxAuth.keepCredential (credential : AgentCredential) (auth : LocalMailboxAuth) :
    LocalMailboxAuth :=
  { auth with
    agentCredentials := auth.agentCredentials.set credential.id credential
    agentTokenIndex := auth.agentTokenIndex.set credential.tokenDigest credential.id }

def createAgentCredential (request : AdminRequest) (payload : AgentCredentialRequest)
    (raw credential : String) (internal : UUID) : AdminM σ JsonValue := do
  let value ← requireCsrf request
  requires value .connectionsManage request.now
  match request.now.plus (payload.expiresInSeconds * 1000000) with
  | none => throw .overflowError
  | some expiresAt => do
    let credential := newCredential value payload raw credential internal expiresAt
    modifyAuth (LocalMailboxAuth.keepCredential credential)
    pure (.obj [("credential", credential.json), ("token", .str (agentToken raw))])

def listAgentCredentials (request : AdminRequest) : AdminM σ JsonValue := do
  let value ← principal request
  requires value .connectionsManage request.now
  let s ← get
  let items := s.auth.agentCredentials.values.filter fun c => c.tenantId = value.tenantId.str
  pure (.obj [("credentials", .arr (items.map AgentCredential.json)), ("count", .int items.length)])

def revokeAgentCredential (request : AdminRequest) (credentialId operation : String) :
    AdminM σ JsonValue := do
  let value ← requireCsrf request
  requires value .connectionsManage request.now
  let s ← get
  match s.auth.agentCredentials.get? credentialId with
  | none => throw (.http 404 "not found")
  | some credential =>
    if credential.tenantId ≠ value.tenantId.str then throw (.http 404 "not found")
    else do
      modifyAuth fun auth => { auth with
        agentCredentials := auth.agentCredentials.set credentialId { credential with revoked := true } }
      let receipt ← receipt request "agent_credential.revoked" value "done" operation
      pure (.obj [("receipt", receipt.json)])

/-! ## Exports, operations, account deletion -/

def requestExport (request : AdminRequest) (operation : String) : AdminM σ JsonValue := do
  let value ← requireCsrf request
  requires value .memoryExport request.now
  let receipt ← receipt request "tenant.export" value "accepted" operation
  pure (.obj [("receipt", receipt.json)])

/-- The scope and the expiry of the session are not looked at. -/
def operationStatus (request : AdminRequest) (operationId : String) : AdminM σ JsonValue := do
  let value ← principal request
  let s ← get
  match s.auth.operations.get? operationId with
  | none => throw (.http 404 "not found")
  | some operation =>
    if operation.tenantId ≠ value.tenantId.str then throw (.http 404 "not found")
    else pure (.obj [("receipt", operation.json)])

/-- The scope and the expiry of the session are not looked at. -/
def requestAccountDeletion (request : AdminRequest) (operation : String) : AdminM σ JsonValue := do
  let value ← requireCsrf request
  match app.runtime.deleteOwner with
  | none => do
    let receipt ← receipt request "account.deletion" value "accepted" operation
    pure (.obj [("receipt", receipt.json)])
  | some deleteOwner => do
    let deleted ← callBackend fun backend =>
      (.ok (deleteOwner (owner value) backend).1, (deleteOwner (owner value) backend).2)
    modifyAuth (LocalMailboxAuth.deleteTenant value)
    let receipt ← receipt request "account.deletion" value "done" operation
    pure (.obj [("receipt", receipt.json), ("deleted_memories", .int deleted)])

/-! ## Serving requests -/

/-- A reply without a cookie. -/
def withoutCookie (body : AdminM σ JsonValue) : AdminM σ Reply := do
  let body ← body
  pure { body := body }

def serve (request : AdminRequest) : AdminM σ Reply :=
  match request.endpoint with
  | .capabilities => pure { body := capabilities }
  | .magicLink email redirect raw => withoutCookie (magicLink app request email redirect raw)
  | .callback token session csrf => callback app request token session csrf
  | .session => withoutCookie (session request)
  | .logout => logout request
  | .listMemories query limit cursor => withoutCookie (listMemories app request query limit cursor)
  | .createMemory payload => withoutCookie (createMemory app request payload)
  | .getMemory memoryId => withoutCookie (getMemory app request memoryId)
  | .updateMemory memoryId payload => withoutCookie (updateMemory app request memoryId payload)
  | .forgetMemory memoryId idempotencyKey =>
    withoutCookie (forgetMemory app request memoryId idempotencyKey)
  | .listConnections => withoutCookie (listConnections request)
  | .createConnection payload connection operation =>
    withoutCookie (createConnection request payload connection operation)
  | .revokeConnection connectionId operation =>
    withoutCookie (revokeConnection request connectionId operation)
  | .createAgentCredential payload raw credential internal =>
    withoutCookie (createAgentCredential request payload raw credential internal)
  | .listAgentCredentials => withoutCookie (listAgentCredentials request)
  | .revokeAgentCredential credentialId operation =>
    withoutCookie (revokeAgentCredential request credentialId operation)
  | .requestExport operation => withoutCookie (requestExport request operation)
  | .operationStatus operationId => withoutCookie (operationStatus request operationId)
  | .requestAccountDeletion operation =>
    withoutCookie (requestAccountDeletion app request operation)

/-- The outcome of a request, and the server afterwards. -/
def AdminApp.handle (request : AdminRequest) (s : Server σ) : Except AdminError Reply × Server σ :=
  (serve app request).exec s

/-- The server after a request. -/
def AdminApp.next (s : Server σ) (request : AdminRequest) : Server σ := (app.handle request s).2

end Endpoints

/-! ### One user -/

instance neZeroHour : NeZero 24 := ⟨by decide⟩

/-- An hour of 2026-01-01, in UTC. -/
def atHour (hour : Fin 24) : DateTime where
  wall := 63902822400000000 + hour.val * 3600000000
  offset := some 0
  wall_nonneg := by omega
  wall_lt := by
    have hlt := hour.isLt
    unfold maxWall
    omega
  offset_lt := utc_offset_lt

/-- The API over a service that keeps a number of memories and no more. -/
def countingApp : AdminApp Nat where
  settings := { casefold := id }
  runtime := { deleteOwner := some fun _ memories => (memories, 0) }

/-- A request without a cookie. -/
def requestAt (hour : Fin 24) (endpoint : Endpoint) : AdminRequest where
  now := atHour hour
  clock := atHour hour
  endpoint := endpoint

/-- A request of a user who has signed in: the cookie and the CSRF token of the session. -/
def signedInAt (hour : Fin 24) (endpoint : Endpoint) : AdminRequest :=
  { requestAt hour endpoint with cookie := some "session-1", csrf := "csrf-1" }

/-- The user asks for a link at midnight and follows it. -/
def signIn : List AdminRequest :=
  [requestAt 0 (.magicLink "ada@example.test" "/" "link-1"),
    requestAt 0 (.callback "link-1" "session-1" "csrf-1")]

end OpenMemory.Admin
