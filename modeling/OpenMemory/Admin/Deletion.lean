import OpenMemory.Admin.Guards
import OpenMemory.Lib.Runs

/-!
# Deleted tenants

Deleting a tenant closes every way in: its sessions end, a session that is opened later for one of
its principals does not resolve, its agent credentials are revoked, and none is issued any more.

What bears on access is in three of the maps of the mailbox. `AccessStep` says what a request can do
to them, and two properties are kept by every such step: the credentials of deleted tenants are
revoked (`CredentialsClosed`), and a token that was issued for a tenant leads to a credential of that
tenant (`LeadsTo`). `deletion_ends_access` is what a whole run makes of them.

The digests of the agent tokens that are drawn in the run are assumed to be distinct. Nothing is
assumed of the other tokens.
-/

namespace OpenMemory.Admin

open Lib Worker Handler LocalMailboxAuth
open Cloud (CloudError)

variable {σ : Type}

/-! ## What bears on access -/

/-- Credentials, token index and deleted tenants are the same. -/
structure SameAccess (a a' : LocalMailboxAuth) : Prop where
  agentCredentials : a'.agentCredentials = a.agentCredentials
  agentTokenIndex : a'.agentTokenIndex = a.agentTokenIndex
  deletedTenants : a'.deletedTenants = a.deletedTenants

theorem SameAccess.refl (a : LocalMailboxAuth) : SameAccess a a := ⟨rfl, rfl, rfl⟩

theorem SameAccess.trans {a a₁ a₂ : LocalMailboxAuth} (h : SameAccess a a₁)
    (h' : SameAccess a₁ a₂) : SameAccess a a₂ :=
  ⟨h'.agentCredentials.trans h.agentCredentials, h'.agentTokenIndex.trans h.agentTokenIndex,
    h'.deletedTenants.trans h.deletedTenants⟩

/-- The request leaves access alone. -/
def Quiet (s s' : Server σ) : Prop := SameAccess s.auth s'.auth

instance : IsTrans (Server σ) Quiet := ⟨fun _ _ _ => SameAccess.trans⟩

/-! ### Quiet handlers -/

section Quiet

variable {α β : Type}

/-- Returning leaves access as it is. -/
theorem quiet_pure (a : α) : Follows Quiet (pure a : AdminM σ α) := fun s => .refl s.auth

/-- So does raising. -/
theorem quiet_throw (e : AdminError) : Follows Quiet (throw e : AdminM σ α) := fun s => .refl s.auth

theorem quiet_get : Follows Quiet (get : AdminM σ (Server σ)) := fun s => .refl s.auth

/-- A change that leaves credentials, token index and deletions alone is quiet. -/
theorem quiet_modifyAuth {f : LocalMailboxAuth → LocalMailboxAuth} (h : ∀ a, SameAccess a (f a)) :
    Follows Quiet (modifyAuth f : AdminM σ PUnit) := fun s => h s.auth

/-- Looking for the principal of a request is quiet. -/
theorem quiet_principal (request : AdminRequest) :
    Follows Quiet (principal request : AdminM σ Principal) := by
  refine quiet_get.bind fun s => ?_
  split
  · exact quiet_throw _
  · exact quiet_pure _

theorem quiet_requireCsrf (request : AdminRequest) :
    Follows Quiet (requireCsrf request : AdminM σ Principal) := by
  refine (quiet_principal request).bind fun value => quiet_get.bind fun s => ?_
  split
  · exact quiet_throw _
  · exact quiet_throw _
  · exact quiet_pure _

/-- So is checking its scope. -/
theorem quiet_requires (value : Principal) (scope : Scope) (now : DateTime) :
    Follows Quiet (requires value scope now : AdminM σ PUnit) := by
  unfold requires
  split
  · exact quiet_throw _
  · exact quiet_pure _

/-- The backend has no hold on access. -/
theorem quiet_callBackend (f : σ → Except CloudError α × σ) :
    Follows Quiet (callBackend f : AdminM σ α) := by
  intro s
  unfold callBackend
  rw [exec_bind_of_ok (exec_get s), exec_bind_of_ok (exec_set s _)]
  cases (f s.backend).1 with
  | error e => exact .refl s.auth
  | ok a => exact .refl s.auth

theorem quiet_withoutCookie {x : AdminM σ JsonValue} (hx : Follows Quiet x) :
    Follows Quiet (withoutCookie x) :=
  hx.bind fun _ => quiet_pure _

/-- A receipt is kept apart from access. -/
theorem quiet_receipt (request : AdminRequest) (kind : String) (value : Principal)
    (status operation : String) :
    Follows Quiet (receipt request kind value status operation : AdminM σ Receipt) := by
  refine (quiet_modifyAuth ?_).bind fun _ => quiet_pure _
  exact fun _ => ⟨rfl, rfl, rfl⟩

variable (app : AdminApp σ)

/-- A tool call is quiet. -/
theorem quiet_call (value : Principal) (name : String) (payload : List (String × JsonValue)) :
    Follows Quiet (call app value name payload) := by
  unfold call
  split
  · exact quiet_throw _
  · refine (quiet_callBackend _).bind fun result => ?_
    split
    · exact quiet_throw _
    · exact quiet_pure _

theorem quiet_memoriesOf (result : List (String × JsonValue)) :
    Follows Quiet (memoriesOf result : AdminM σ (List JsonValue)) := by
  unfold memoriesOf
  split
  · exact quiet_pure _
  · exact quiet_throw _

theorem quiet_findMemories (value : Principal) (query : String) :
    Follows Quiet (findMemories app value query) := by
  unfold findMemories
  split
  · split
    · exact (quiet_callBackend _).bind fun _ => quiet_pure _
    · exact (quiet_call app _ _ _).bind fun _ => quiet_memoriesOf _
  · exact (quiet_call app _ _ _).bind fun _ => quiet_memoriesOf _

theorem quiet_memoryPage (request : AdminRequest) (query : String) (limit cursor : Int) :
    Follows Quiet (memoryPage app request query limit cursor) := by
  refine (quiet_principal request).bind fun value => (quiet_requires _ _ _).bind fun _ => ?_
  split
  · exact quiet_throw _
  · exact (quiet_findMemories app _ _).bind fun _ => quiet_pure _

/-! ### Quiet endpoints -/

/-- A magic link is stored with the links. -/
theorem quiet_magicLink (request : AdminRequest) (email redirect raw : String) :
    Follows Quiet (magicLink app request email redirect raw) := by
  unfold magicLink
  split
  · exact quiet_throw _
  · intro s
    have hrequest : SameAccess s.auth
        (s.auth.request app.settings request.clock email raw).2 := by
      unfold LocalMailboxAuth.request
      dsimp only
      split
      · exact .refl _
      · split
        · exact ⟨rfl, rfl, rfl⟩
        · split
          · exact ⟨rfl, rfl, rfl⟩
          · exact ⟨rfl, rfl, rfl⟩
    rw [exec_bind_of_ok (exec_get s)]
    dsimp only
    rw [exec_bind_of_ok (exec_set s _)]
    split
    · exact hrequest
    · exact hrequest

/-- The callback opens a session, which is no credential. -/
theorem quiet_callback (request : AdminRequest) (token session csrf : String) :
    Follows Quiet (callback app request token session csrf) := by
  intro s
  have hconsume : SameAccess s.auth (s.auth.consume request.clock token session csrf).2 := by
    unfold LocalMailboxAuth.consume
    split
    · exact .refl _
    · split
      · exact .refl _
      · exact ⟨rfl, rfl, rfl⟩
  unfold callback
  rw [exec_bind_of_ok (exec_get s)]
  dsimp only
  rw [exec_bind_of_ok (exec_set s _)]
  split
  · exact hconsume
  · exact hconsume

/-- Signing out ends a session, which is none either. -/
theorem quiet_logout (request : AdminRequest) : Follows Quiet (logout request : AdminM σ Reply) := by
  refine (quiet_requireCsrf request).bind fun _ =>
    (quiet_modifyAuth fun a => ?_).bind fun _ => quiet_pure _
  unfold LocalMailboxAuth.logout
  split
  · exact .refl a
  · exact ⟨rfl, rfl, rfl⟩

theorem quiet_getMemory (request : AdminRequest) (memoryId : String) :
    Follows Quiet (getMemory app request memoryId) := by
  refine (quiet_principal request).bind fun value => (quiet_requires _ _ _).bind fun _ => ?_
  split
  · refine (quiet_callBackend _).bind fun memory => ?_
    split
    · exact quiet_pure _
    · exact quiet_throw _
  · refine (quiet_memoryPage app _ _ _ _).bind fun page => ?_
    split
    split
    · exact quiet_throw _
    · exact quiet_pure _

theorem quiet_revokeConnection (request : AdminRequest) (connectionId operation : String) :
    Follows Quiet (revokeConnection request connectionId operation : AdminM σ JsonValue) := by
  refine (quiet_requireCsrf request).bind fun value => (quiet_requires _ _ _).bind fun _ =>
    quiet_get.bind fun s => ?_
  split
  · exact quiet_throw _
  · split
    · exact quiet_throw _
    · dsimp only
      refine (quiet_modifyAuth ?_).bind fun _ =>
        (quiet_receipt _ _ _ _ _).bind fun _ => quiet_pure _
      exact fun _ => ⟨rfl, rfl, rfl⟩

theorem quiet_operationStatus (request : AdminRequest) (operationId : String) :
    Follows Quiet (operationStatus request operationId : AdminM σ JsonValue) := by
  refine (quiet_principal request).bind fun value => quiet_get.bind fun s => ?_
  split
  · exact quiet_throw _
  · split
    · exact quiet_throw _
    · exact quiet_pure _

/-- The endpoint issues or revokes agent tokens, or deletes a tenant. -/
def bearsOnAccess : Endpoint → Bool
  | .createAgentCredential _ _ _ _ => true
  | .revokeAgentCredential _ _ => true
  | .requestAccountDeletion _ => true
  | _ => false

/-- Only creating and revoking a credential and deleting an account bear on access. -/
theorem quiet_serve {request : AdminRequest} (h : bearsOnAccess request.endpoint = false) :
    Follows Quiet (serve app request) := by
  have hcalls : ∀ scope name payload, Follows Quiet (withoutCookie do
      let value ← requireCsrf request
      requires value scope request.now
      let data ← call app value name payload
      pure (.obj data)) := fun scope name payload =>
    quiet_withoutCookie ((quiet_requireCsrf request).bind fun _ =>
      (quiet_requires _ _ _).bind fun _ => (quiet_call app _ _ _).bind fun _ => quiet_pure _)
  unfold serve
  cases hendpoint : request.endpoint with
  | capabilities => exact quiet_pure _
  | magicLink email redirect raw => exact quiet_withoutCookie (quiet_magicLink app request _ _ _)
  | callback token session csrf => exact quiet_callback app request _ _ _
  | session => exact quiet_withoutCookie ((quiet_principal request).bind fun _ => quiet_pure _)
  | logout => exact quiet_logout request
  | listMemories query limit cursor =>
    exact quiet_withoutCookie ((quiet_memoryPage app request _ _ _).bind fun _ => quiet_pure _)
  | createMemory payload => exact hcalls _ _ _
  | getMemory memoryId => exact quiet_withoutCookie (quiet_getMemory app request memoryId)
  | updateMemory memoryId payload => exact hcalls _ _ _
  | forgetMemory memoryId idempotencyKey => exact hcalls _ _ _
  | listConnections =>
    exact quiet_withoutCookie ((quiet_principal request).bind fun _ =>
      (quiet_requires _ _ _).bind fun _ => quiet_get.bind fun _ => quiet_pure _)
  | createConnection payload connection operation =>
    refine quiet_withoutCookie ((quiet_requireCsrf request).bind fun _ =>
      (quiet_requires _ _ _).bind fun _ => ?_)
    dsimp only
    refine (quiet_modifyAuth ?_).bind fun _ => (quiet_receipt _ _ _ _ _).bind fun _ => quiet_pure _
    exact fun _ => ⟨rfl, rfl, rfl⟩
  | revokeConnection connectionId operation =>
    exact quiet_withoutCookie (quiet_revokeConnection request _ _)
  | listAgentCredentials =>
    exact quiet_withoutCookie ((quiet_principal request).bind fun _ =>
      (quiet_requires _ _ _).bind fun _ => quiet_get.bind fun _ => quiet_pure _)
  | requestExport operation =>
    exact quiet_withoutCookie ((quiet_requireCsrf request).bind fun _ =>
      (quiet_requires _ _ _).bind fun _ => (quiet_receipt _ _ _ _ _).bind fun _ => quiet_pure _)
  | operationStatus operationId =>
    exact quiet_withoutCookie (quiet_operationStatus request operationId)
  | createAgentCredential =>
    rw [hendpoint] at h
    cases h
  | revokeAgentCredential =>
    rw [hendpoint] at h
    cases h
  | requestAccountDeletion =>
    rw [hendpoint] at h
    cases h

end Quiet

/-! ## Steps -/

/-- What a request that draws the agent token with this digest, if it draws one, does to access. -/
inductive AccessStep (drawn : Option String) (a a' : LocalMailboxAuth) : Prop
  | kept (same : SameAccess a a')
  | issued {credential : AgentCredential} (digest : drawn = some credential.tokenDigest)
      (live : credential.tenantId ∉ a.deletedTenants)
      (same : SameAccess (a.keepCredential credential) a')
  | revoked {id : String} {credential : AgentCredential}
      (held : a.agentCredentials.get? id = some credential)
      (same : SameAccess { a with
        agentCredentials := a.agentCredentials.set id { credential with revoked := true } } a')
  | deleted {p : Principal} (same : SameAccess (a.deleteTenant p) a')

/-- The digest of the agent token that an endpoint draws. -/
def Endpoint.drawnDigest : Endpoint → Option String
  | .createAgentCredential _ raw _ _ => some (sha256Hexdigest (agentToken raw))
  | _ => none

/-- A cookie of a deleted tenant finds no session. -/
theorem session_live {auth : LocalMailboxAuth} {cookie : Option String} {p : Principal}
    (h : auth.session cookie = some p) : p.tenantId.str ∉ auth.deletedTenants := by
  unfold LocalMailboxAuth.session at h
  cases hrecord : auth.sessionRecord cookie with
  | none =>
    rw [hrecord] at h
    cases h
  | some value =>
    rw [hrecord] at h
    dsimp only at h
    split at h
    · cases h
    · next hlive =>
      cases h
      exact hlive

section Requests

variable {app : AdminApp σ} {request : AdminRequest} {s : Server σ}

/-- A new credential is of the tenant of a live session. -/
theorem exec_createAgentCredential (request : AdminRequest) (payload : AgentCredentialRequest)
    (raw credential : String) (internal : UUID) (s : Server σ) :
    (∃ e, (createAgentCredential request payload raw credential internal).exec s = (.error e, s)) ∨
      ∃ value expiresAt, s.auth.session request.cookie = some value ∧
        ∃ body, (createAgentCredential request payload raw credential internal).exec s =
          (.ok body, { s with auth :=
            s.auth.keepCredential (newCredential value payload raw credential internal expiresAt) }) := by
  unfold createAgentCredential
  rcases exec_requireCsrf_cases request s with ⟨e, he⟩ | ⟨value, hsession, -, hvalue⟩
  · exact .inl ⟨e, exec_bind_of_error he _⟩
  rw [exec_bind_of_ok hvalue]
  rcases exec_requires_cases value .connectionsManage request.now s with ⟨e, he⟩ | hok
  · exact .inl ⟨e, exec_bind_of_error he _⟩
  rw [exec_bind_of_ok hok]
  cases request.now.plus (payload.expiresInSeconds * 1000000) with
  | none => exact .inl ⟨_, rfl⟩
  | some expiresAt => exact .inr ⟨value, expiresAt, hsession, _, rfl⟩

/-- A credential is issued for a tenant that is not deleted. -/
theorem step_createAgentCredential {payload : AgentCredentialRequest} {raw credential : String}
    {internal : UUID}
    (hendpoint : request.endpoint = .createAgentCredential payload raw credential internal) :
    AccessStep request.endpoint.drawnDigest s.auth (app.next s request).auth := by
  unfold AdminApp.next AdminApp.handle serve withoutCookie
  rw [hendpoint]
  rcases exec_createAgentCredential request payload raw credential internal s with
    ⟨e, he⟩ | ⟨value, expiresAt, hsession, body, hbody⟩
  · rw [exec_bind_of_error he]
    exact .kept (.refl _)
  · rw [exec_bind_of_ok hbody]
    exact .issued rfl (session_live hsession) (.refl _)

/-- Revoking marks a credential that is held. -/
theorem step_revokeAgentCredential {credentialId operation : String}
    (hendpoint : request.endpoint = .revokeAgentCredential credentialId operation) :
    AccessStep request.endpoint.drawnDigest s.auth (app.next s request).auth := by
  unfold AdminApp.next AdminApp.handle serve withoutCookie revokeAgentCredential
  rw [hendpoint]
  rcases exec_requireCsrf_cases request s with ⟨e, he⟩ | ⟨value, -, -, hvalue⟩
  · rw [exec_bind_of_error (exec_bind_of_error he _)]
    exact .kept (.refl _)
  rw [exec_bind, exec_bind_of_ok hvalue]
  rcases exec_requires_cases value .connectionsManage request.now s with ⟨e, he⟩ | hok
  · rw [exec_bind_of_error he]
    exact .kept (.refl _)
  rw [exec_bind_of_ok hok, exec_bind_of_ok (exec_get s)]
  cases hheld : s.auth.agentCredentials.get? credentialId with
  | none => exact .kept (.refl _)
  | some credential =>
    dsimp only
    by_cases htenant : credential.tenantId ≠ value.tenantId.str
    · rw [if_pos htenant]
      exact .kept (.refl _)
    · rw [if_neg htenant]
      exact .revoked hheld ⟨rfl, rfl, rfl⟩

/-- Deleting an account deletes its tenant. -/
theorem step_requestAccountDeletion {operation : String}
    (hendpoint : request.endpoint = .requestAccountDeletion operation) :
    AccessStep request.endpoint.drawnDigest s.auth (app.next s request).auth := by
  unfold AdminApp.next AdminApp.handle serve withoutCookie requestAccountDeletion
  rw [hendpoint]
  rcases exec_requireCsrf_cases request s with ⟨e, he⟩ | ⟨value, -, -, hvalue⟩
  · rw [exec_bind_of_error (exec_bind_of_error he _)]
    exact .kept (.refl _)
  rw [exec_bind, exec_bind_of_ok hvalue]
  cases app.runtime.deleteOwner with
  | none => exact .kept ⟨rfl, rfl, rfl⟩
  | some deleteOwner => exact .deleted ⟨rfl, rfl, rfl⟩

/-- Every request makes one step. -/
theorem access_step (app : AdminApp σ) (s : Server σ) (request : AdminRequest) :
    AccessStep request.endpoint.drawnDigest s.auth (app.next s request).auth := by
  cases hbears : bearsOnAccess request.endpoint with
  | false => exact .kept (quiet_serve app hbears s)
  | true =>
    cases hendpoint : request.endpoint with
    | createAgentCredential payload raw credential internal =>
      rw [← hendpoint]
      exact step_createAgentCredential hendpoint
    | revokeAgentCredential credentialId operation =>
      rw [← hendpoint]
      exact step_revokeAgentCredential hendpoint
    | requestAccountDeletion operation =>
      rw [← hendpoint]
      exact step_requestAccountDeletion hendpoint
    | _ =>
      rw [hendpoint] at hbears
      cases hbears

end Requests

/-! ## What steps keep -/

/-- The credentials of deleted tenants are revoked. -/
def CredentialsClosed (a : LocalMailboxAuth) : Prop :=
  ∀ id c, a.agentCredentials.get? id = some c → c.tenantId ∈ a.deletedTenants → c.revoked = true

/-- If the digest of a token leads to a credential with that digest, it is one of the tenant. -/
def LeadsTo (digest tenantId : String) (a : LocalMailboxAuth) : Prop :=
  ∀ id c, a.agentTokenIndex.get? digest = some id → a.agentCredentials.get? id = some c →
    c.tokenDigest = digest → c.tenantId = tenantId

section Kept

variable {drawn : Option String} {a a' : LocalMailboxAuth}

/-- Whether credentials are closed depends on access alone. -/
theorem CredentialsClosed.same (h : CredentialsClosed a) (same : SameAccess a a') :
    CredentialsClosed a' := by
  intro id c hc hdeleted
  rw [same.agentCredentials] at hc
  rw [same.deletedTenants] at hdeleted
  exact h id c hc hdeleted

/-- So does where a digest leads. -/
theorem LeadsTo.same {digest tenantId : String} (h : LeadsTo digest tenantId a)
    (same : SameAccess a a') : LeadsTo digest tenantId a' := by
  intro id c hid hc
  rw [same.agentTokenIndex] at hid
  rw [same.agentCredentials] at hc
  exact h id c hid hc

/-- A step of access keeps credentials closed. -/
theorem CredentialsClosed.step (h : CredentialsClosed a) (hstep : AccessStep drawn a a') :
    CredentialsClosed a' := by
  cases hstep with
  | kept same => exact h.same same
  | @issued credential _ live same =>
    refine CredentialsClosed.same (fun id c hc hdeleted => ?_) same
    by_cases hid : id = credential.id
    · rw [hid] at hc
      cases (Dict.get?_set_self _ _ _).symm.trans hc
      exact absurd hdeleted live
    · exact h id c ((Dict.get?_set_of_ne _ _ hid).symm.trans hc) hdeleted
  | @revoked id₀ credential _ same =>
    refine CredentialsClosed.same (fun id c hc hdeleted => ?_) same
    by_cases hid : id = id₀
    · rw [hid] at hc
      cases (Dict.get?_set_self _ _ _).symm.trans hc
      rfl
    · exact h id c ((Dict.get?_set_of_ne _ _ hid).symm.trans hc) hdeleted
  | @deleted p same =>
    refine CredentialsClosed.same (fun id c hc hdeleted => ?_) same
    obtain ⟨c₀, hc₀, rfl⟩ := Dict.get?_mapValues_eq_some.mp hc
    by_cases htenant : c₀.tenantId = p.tenantId.str
    · rw [if_pos htenant]
    · rw [if_neg htenant] at hdeleted ⊢
      exact h id c₀ hc₀ ((Finset.mem_insert.mp hdeleted).resolve_left htenant)

/-- What is left after popping keys was there before. -/
theorem get?_of_get?_foldl_pop {κ ν : Type} [DecidableEq κ] {keys : List κ} {d : Dict κ ν} {k : κ}
    {v : ν} (h : (keys.foldl Dict.pop d).get? k = some v) : d.get? k = some v := by
  induction keys generalizing d with
  | nil => exact h
  | cons key keys ih =>
    have hpop : (d.pop key).get? k = some v := ih h
    by_cases hk : k = key
    · rw [hk, Dict.get?_pop_self] at hpop
      cases hpop
    · rwa [Dict.get?_pop_of_ne _ hk] at hpop

/-- Unless the same digest is drawn again. -/
theorem LeadsTo.step {digest tenantId : String} (h : LeadsTo digest tenantId a)
    (hstep : AccessStep drawn a a') (hdrawn : drawn ≠ some digest) : LeadsTo digest tenantId a' := by
  cases hstep with
  | kept same => exact h.same same
  | @issued credential hdigest _ same =>
    refine LeadsTo.same (fun id c hid hc hcdigest => ?_) same
    have hne : digest ≠ credential.tokenDigest := by
      rintro rfl
      exact hdrawn hdigest
    have hid : a.agentTokenIndex.get? digest = some id :=
      (Dict.get?_set_of_ne _ _ hne).symm.trans hid
    by_cases hcredential : id = credential.id
    · rw [hcredential] at hc
      cases (Dict.get?_set_self _ _ _).symm.trans hc
      exact absurd hcdigest.symm hne
    · exact h id c hid ((Dict.get?_set_of_ne _ _ hcredential).symm.trans hc) hcdigest
  | @revoked id₀ credential held same =>
    refine LeadsTo.same (fun id c hid hc hcdigest => ?_) same
    by_cases hcredential : id = id₀
    · rw [hcredential] at hc hid
      cases (Dict.get?_set_self _ _ _).symm.trans hc
      exact h id₀ credential hid held hcdigest
    · exact h id c hid ((Dict.get?_set_of_ne _ _ hcredential).symm.trans hc) hcdigest
  | @deleted p same =>
    refine LeadsTo.same (fun id c hid hc hcdigest => ?_) same
    obtain ⟨c₀, hc₀, rfl⟩ := Dict.get?_mapValues_eq_some.mp hc
    have hid : a.agentTokenIndex.get? digest = some id := get?_of_get?_foldl_pop hid
    -- revoking changes neither the digest nor the tenant
    have hfields : (if c₀.tenantId = p.tenantId.str then { c₀ with revoked := true } else c₀).tenantId
        = c₀.tenantId ∧
        (if c₀.tenantId = p.tenantId.str then { c₀ with revoked := true } else c₀).tokenDigest
          = c₀.tokenDigest := by
      split
      · exact ⟨rfl, rfl⟩
      · exact ⟨rfl, rfl⟩
    rw [hfields.1]
    exact h id c₀ hid hc₀ (hfields.2.symm.trans hcdigest)

/-- Deleted tenants stay deleted. -/
theorem deletedTenants_subset (hstep : AccessStep drawn a a') :
    a.deletedTenants ⊆ a'.deletedTenants := by
  cases hstep with
  | kept same => rw [same.deletedTenants]
  | issued _ _ same =>
    rw [same.deletedTenants]
    exact subset_rfl
  | revoked _ same =>
    rw [same.deletedTenants]
  | deleted same =>
    rw [same.deletedTenants]
    exact Finset.subset_insert _ _

end Kept

/-! ## Accepted tokens -/

/-- What `verify_token` accepts is the token of a credential that is not revoked. -/
theorem verifyToken_some {verifier : LocalAgentCredentialVerifier} {now : DateTime}
    {a : LocalMailboxAuth} {token : String} {access : AccessToken}
    (h : verifier.verifyToken now a token = some access) :
    ∃ id c, a.agentTokenIndex.get? (sha256Hexdigest token) = some id ∧
      a.agentCredentials.get? id = some c ∧ c.tokenDigest = sha256Hexdigest token ∧
      c.revoked = false ∧ access.tenantId = c.tenantId := by
  unfold LocalAgentCredentialVerifier.verifyToken at h
  obtain ⟨id, hid, h⟩ := Option.bind_eq_some_iff.mp h
  obtain ⟨c, hc, h⟩ := Option.bind_eq_some_iff.mp h
  by_cases hdigest : c.tokenDigest ≠ sha256Hexdigest token
  · rw [if_pos hdigest] at h
    cases h
  rw [if_neg hdigest] at h
  obtain ⟨expiresAt, -, h⟩ := Option.bind_eq_some_iff.mp h
  obtain ⟨scopes, -, h⟩ := Option.bind_eq_some_iff.mp h
  by_cases hclosed : c.revoked = true ∨ expiresAt.instant ≤ now.instant
  · rw [if_pos hclosed] at h
    cases h
  · rw [if_neg hclosed] at h
    cases h
    exact ⟨id, c, hid, hc, not_not.mp hdigest,
      Bool.eq_false_iff.mpr fun hrevoked => hclosed (.inl hrevoked), rfl⟩

/-! ## Runs -/

/-- A request, or a direct call of `delete_tenant`. -/
inductive AdminMove
  | request (request : AdminRequest)
  | deleteTenant (principal : Principal)

/-- The server after a move. -/
def AdminApp.step (app : AdminApp σ) (s : Server σ) : AdminMove → Server σ
  | .request request => app.next s request
  | .deleteTenant principal => { s with auth := s.auth.deleteTenant principal }

/-- The digest of the agent token that a move draws. -/
def AdminMove.drawnDigest : AdminMove → Option String
  | .request served => served.endpoint.drawnDigest
  | .deleteTenant _ => none

/-- The move runs `delete_tenant` for a principal of the tenant. -/
def Deletes (app : AdminApp σ) (tenantId : UUID) (s : Server σ) : AdminMove → Prop
  | .request request =>
    (∃ operation, request.endpoint = .requestAccountDeletion operation) ∧
      app.runtime.deleteOwner.isSome = true ∧ csrfMatches request s = some true ∧
      ∃ p, s.auth.session request.cookie = some p ∧ p.tenantId = tenantId
  | .deleteTenant p => p.tenantId = tenantId

/-- The move answers a principal of the tenant with the agent token. -/
def Issues (app : AdminApp σ) (tenantId : UUID) (token : String) (s : Server σ) : AdminMove → Prop
  | .request request =>
    (∃ payload raw credential internal, token = agentToken raw ∧
      request.endpoint = .createAgentCredential payload raw credential internal) ∧
      (∃ reply, (app.handle request s).1 = .ok reply) ∧
      ∃ p, s.auth.session request.cookie = some p ∧ p.tenantId = tenantId
  | .deleteTenant _ => False

section Moves

variable {app : AdminApp σ} {s : Server σ} {move : AdminMove} {tenantId : UUID} {token : String}

/-- Every move is a step of access. -/
theorem access_step_move (app : AdminApp σ) (s : Server σ) (move : AdminMove) :
    AccessStep move.drawnDigest s.auth (app.step s move).auth := by
  cases move with
  | request request => exact access_step app s request
  | deleteTenant p => exact .deleted (.refl _)

/-- A deletion marks the tenant. -/
theorem mem_deletedTenants_of_deletes (h : Deletes app tenantId s move) :
    tenantId.str ∈ (app.step s move).auth.deletedTenants := by
  cases move with
  | deleteTenant p =>
    obtain rfl : p.tenantId = tenantId := h
    exact Finset.mem_insert_self _ _
  | request request =>
    obtain ⟨⟨operation, hendpoint⟩, hsome, hcsrf, p, hsession, rfl⟩ := h
    obtain ⟨deleteOwner, hdelete⟩ := Option.isSome_iff_exists.mp hsome
    have hprincipal := exec_requireCsrf_of_some hsession
    rw [hcsrf] at hprincipal
    show p.tenantId.str ∈ (app.next s request).auth.deletedTenants
    unfold AdminApp.next AdminApp.handle serve withoutCookie requestAccountDeletion
    rw [hendpoint]
    dsimp only
    rw [exec_bind, exec_bind_of_ok hprincipal, hdelete]
    exact Finset.mem_insert_self _ _

/-- The token of a new credential leads to it. -/
theorem leadsTo_of_issues (h : Issues app tenantId token s move) :
    move.drawnDigest = some (sha256Hexdigest token) ∧
      LeadsTo (sha256Hexdigest token) tenantId.str (app.step s move).auth := by
  cases move with
  | deleteTenant p => exact h.elim
  | request request =>
    obtain ⟨⟨payload, raw, credential, internal, rfl, hendpoint⟩, ⟨reply, hreply⟩, p, hsession,
      rfl⟩ := h
    refine ⟨by rw [AdminMove.drawnDigest, hendpoint]; rfl, ?_⟩
    show LeadsTo _ _ (app.next s request).auth
    unfold AdminApp.handle serve withoutCookie at hreply
    unfold AdminApp.next AdminApp.handle serve withoutCookie
    rw [hendpoint] at hreply ⊢
    dsimp only at hreply ⊢
    rcases exec_createAgentCredential request payload raw credential internal s with
      ⟨e, he⟩ | ⟨value, expiresAt, hvalue, body, hbody⟩
    · rw [exec_bind_of_error he] at hreply
      cases hreply
    · cases hsession.symm.trans hvalue
      rw [exec_bind_of_ok hbody]
      intro id c hid hc _
      cases (Dict.get?_set_self _ _ _).symm.trans hid
      cases (Dict.get?_set_self _ _ _).symm.trans hc
      rfl

/-- A token leads to the tenant it was issued for, as long as no later move draws its digest. -/
theorem leadsTo_play {moves : List AdminMove}
    (hdistinct : (moves.filterMap AdminMove.drawnDigest).Nodup)
    (h : Occurs app.step (Issues app tenantId token) s moves) :
    LeadsTo (sha256Hexdigest token) tenantId.str (play app.step s moves).auth := by
  obtain ⟨before, move, after, rfl, hissues⟩ := h
  obtain ⟨hdrawn, hleads⟩ := leadsTo_of_issues hissues
  rw [List.filterMap_append, List.filterMap_cons, hdrawn] at hdistinct
  have hfresh := (List.nodup_cons.mp (List.nodup_append.mp hdistinct).2.1).1
  have hlater : ∀ m ∈ after, m.drawnDigest ≠ some (sha256Hexdigest token) :=
    fun m hm hsame => hfresh (List.mem_filterMap.mpr ⟨m, hm, hsame⟩)
  rw [play_append, play_cons]
  exact (along_const.mpr hlater).kept
    (I := fun s : Server σ => LeadsTo (sha256Hexdigest token) tenantId.str s.auth)
    (fun s m hleads hm => hleads.step (access_step_move app s m) hm) hleads

end Moves

/-- Nobody gets in for the tenant any more. -/
structure AccessEnded (app : AdminApp σ) (start : Server σ) (moves : List AdminMove)
    (tenantId : UUID) : Prop where
  sessions : ∀ cookie p, (play app.step start moves).auth.session cookie = some p →
    p.tenantId ≠ tenantId
  claims : ∀ (verifier : LocalAgentCredentialVerifier) now token access,
    verifier.verifyToken now (play app.step start moves).auth token = some access →
    access.tenantId ≠ tenantId.str
  tokens : ∀ (verifier : LocalAgentCredentialVerifier) now token,
    Occurs app.step (Issues app tenantId token) start moves →
    verifier.verifyToken now (play app.step start moves).auth token = none

/-- After a run in which a tenant was deleted at some point, no cookie resolves to a principal of
the tenant, no agent token speaks for it, and none that was issued for it at any point is accepted. -/
theorem deletion_ends_access (app : AdminApp σ) (backend : σ) {moves : List AdminMove}
    {tenantId : UUID} (hdistinct : (moves.filterMap AdminMove.drawnDigest).Nodup)
    (hdeleted : Occurs app.step (Deletes app tenantId) { backend := backend } moves) :
    AccessEnded app { backend := backend } moves tenantId := by
  have hclosed : CredentialsClosed (play app.step { backend := backend } moves).auth := by
    refine play_kept (I := fun s : Server σ => CredentialsClosed s.auth)
      (fun s m hs => hs.step (access_step_move app s m)) ?_
    intro id c hc
    cases hc
  have hgone : tenantId.str ∈ (play app.step { backend := backend } moves).auth.deletedTenants :=
    hdeleted.kept (I := fun s : Server σ => tenantId.str ∈ s.auth.deletedTenants)
      (fun _ _ => mem_deletedTenants_of_deletes)
      fun s m hs => deletedTenants_subset (access_step_move app s m) hs
  constructor
  · rintro cookie p hsession rfl
    exact session_live hsession hgone
  · intro verifier now token access haccess htenant
    obtain ⟨id, c, -, hc, -, hrevoked, hclaim⟩ := verifyToken_some haccess
    rw [hclosed id c hc (by rw [← hclaim, htenant]; exact hgone)] at hrevoked
    cases hrevoked
  · intro verifier now token hissued
    cases haccess : verifier.verifyToken now (play app.step { backend := backend } moves).auth token with
    | none => rfl
    | some access =>
      obtain ⟨id, c, hid, hc, hdigest, hrevoked, -⟩ := verifyToken_some haccess
      have htenant := leadsTo_play hdistinct hissued id c hid hc hdigest
      rw [hclosed id c hc (by rw [htenant]; exact hgone)] at hrevoked
      cases hrevoked

/-- A user with an agent credential deletes the account, and follows a new link afterwards. -/
def leaveAndReturn : List AdminMove :=
  (signIn ++
    [signedInAt 0 (.createAgentCredential { name := "laptop", scopes := {.memoryRead} } "pat-1" "1"
      ⟨Fin.ofNat _ 1⟩),
    signedInAt 0 (.requestAccountDeletion "1"),
    requestAt 0 (.magicLink "ada@example.test" "/" "link-2"),
    requestAt 0 (.callback "link-2" "session-2" "csrf-2")]).map .request

/-- The tenant of the user. -/
def adaTenant : UUID :=
  (principalForDigest (sha256Hexdigest "ada@example.test") (atHour 1)).tenantId

/-- Ada deletes her account: neither her cookie nor the token of her agent leads anywhere. -/
theorem deletion_ends_access_leaveAndReturn :
    ((play countingApp.step { backend := 7 } leaveAndReturn).auth.sessionRecord
        (some "session-2")).map Principal.tenantId = some adaTenant ∧
      AccessEnded countingApp { backend := 7 } leaveAndReturn adaTenant := by
  have htenant : ((play countingApp.step { backend := 7 } (leaveAndReturn.take 3)).auth.session
      (some "session-1")).map Principal.tenantId = some adaTenant := by decide +kernel
  obtain ⟨p, hp, hpt⟩ := Option.map_eq_some_iff.mp htenant
  refine ⟨by decide +kernel, deletion_ends_access countingApp 7 (by decide +kernel) ?_⟩
  exact ⟨leaveAndReturn.take 3, .request (signedInAt 0 (.requestAccountDeletion "1")),
    leaveAndReturn.drop 4, rfl, ⟨_, rfl⟩, rfl, by decide +kernel, p, hp, hpt⟩

end OpenMemory.Admin
