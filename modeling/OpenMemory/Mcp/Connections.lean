import OpenMemory.Lib.Runs
import OpenMemory.Mcp.Tenants

/-!
# Connections of M1 (`M1LocalAuth` in `adapters/mcp/http.py`)

A token leads to a principal, and so do a tenant and a connection id. Principals are objects that the
two maps share: `revoke` finds one through its connection and sets its flag, a tool call finds one
through its token and reads the flag. `M1LocalAuth.principals` is the heap they live in.

Under one connection the index holds the principal registered last. `revocation_complete_iff` says
what follows: a revocation reaches every token of the connection exactly when their principals are
that one or were revoked before.
-/

namespace OpenMemory.Mcp

open Lib

variable {R : Type} [Python R] {ρ : Type} [DecidableEq ρ]

/-! ## The registry of tokens -/

/-- `M1LocalAuth`, with the principals that references of type `ρ` lead to. -/
structure M1LocalAuth (ρ : Type) where
  principals : ρ → M1Principal
  tokens : Dict String ρ := ∅
  connections : Dict (String × String) ρ := ∅

namespace M1LocalAuth

/-- `register`. -/
def register (token : String) (principal : ρ) (auth : M1LocalAuth ρ) :
    Except PyError (M1LocalAuth ρ) :=
  if isBlank token then .error (.valueError "local token must be non-empty")
  else
    let p := auth.principals principal
    .ok
      { auth with
        tokens := auth.tokens.set token principal
        connections := auth.connections.set (p.tenantId, p.connectionId) principal }

/-- `revoke`. -/
def revoke (actor : M1Principal) (connectionId client : String) (auth : M1LocalAuth ρ) :
    Except PyError (M1LocalAuth ρ) :=
  match auth.connections.get? (actor.tenantId, connectionId) with
  | none => .error (.foreign "PermissionError" none)
  | some target =>
    if (auth.principals target).clientId ≠ client then .error (.foreign "PermissionError" none)
    else
      .ok
        { auth with
          principals := Function.update auth.principals target
            { auth.principals target with revoked := true } }

/-- The token leads to a principal with this tenant, connection id and client id. -/
def Serves (auth : M1LocalAuth ρ) (tenantId connectionId client token : String) (principal : ρ) :
    Prop :=
  auth.tokens.get? token = some principal ∧ (auth.principals principal).tenantId = tenantId ∧
    (auth.principals principal).connectionId = connectionId ∧
      (auth.principals principal).clientId = client

end M1LocalAuth

/-! ## Events -/

/-- The server: its tokens, and what its tools work on. -/
structure M1Server (ρ R : Type) [Python R] where
  auth : M1LocalAuth ρ
  control : M1LocalControl R := {}

/-- A tool call comes with the service as it is at that time: the clock and the ids it draws. -/
inductive M1Event (ρ R : Type) [Python R]
  | register (token : String) (principal : ρ)
  | revoke (actor : M1Principal) (connectionId client : String)
  | call (svc : MemoryApplicationService R) (token : String) (tool : M1Tool R)

namespace M1Server

/-- A tool call with a token. A token that leads to no principal is not authenticated. -/
def call (svc : MemoryApplicationService R) (token : String) (tool : M1Tool R) (s : M1Server ρ R) :
    Option (Except M1Error (M1Data R)) × M1LocalControl R :=
  match s.auth.tokens.get? token with
  | none => (none, s.control)
  | some principal =>
    let (answer, control) := invoke svc (s.auth.principals principal) tool s.control
    (some answer, control)

/-- The server after an event; what raises changes nothing. -/
def step (s : M1Server ρ R) : M1Event ρ R → M1Server ρ R
  | .register token principal =>
    { s with auth := (s.auth.register token principal).toOption.getD s.auth }
  | .revoke actor connectionId client =>
    { s with auth := (s.auth.revoke actor connectionId client).toOption.getD s.auth }
  | .call svc token tool => { s with control := (s.call svc token tool).2 }

/-- Every tool call with the token is answered with `connection_revoked` and has no effect. -/
def Refuses (s : M1Server ρ R) (token : String) : Prop :=
  ∀ svc tool,
    s.call svc token tool = (some (.error (.boundary "connection_revoked")), s.control)

end M1Server

/-- The event gives the token to a principal. -/
def M1Event.Registers (token : String) : M1Event ρ R → Prop
  | register token' _ => token' = token
  | _ => False

/-! ## Flags -/

section Flags

variable {auth auth' : M1LocalAuth ρ} {actor : M1Principal} {connectionId client : String}

/-- What a successful `revoke` does. -/
theorem M1LocalAuth.revoke_ok (h : auth.revoke actor connectionId client = .ok auth') :
    ∃ target, auth.connections.get? (actor.tenantId, connectionId) = some target ∧
      (auth.principals target).clientId = client ∧
      auth' = { auth with
        principals := Function.update auth.principals target
          { auth.principals target with revoked := true } } := by
  unfold revoke at h
  split at h
  · cases h
  · rename_i target htarget
    split at h
    · cases h
    · rename_i hclient
      cases h
      exact ⟨target, htarget, not_not.mp hclient, rfl⟩

omit [DecidableEq ρ] in
theorem M1LocalAuth.register_ok {token : String} {principal : ρ}
    (h : auth.register token principal = .ok auth') :
    auth'.principals = auth.principals ∧ auth'.tokens = auth.tokens.set token principal := by
  unfold register at h
  split at h
  · cases h
  · cases h
    exact ⟨rfl, rfl⟩

/-- After a successful `revoke`, the revoked principals are its target and those from before. -/
theorem M1LocalAuth.revoked_after (h : auth.revoke actor connectionId client = .ok auth')
    (principal : ρ) :
    (auth'.principals principal).revoked = true ↔
      (auth.principals principal).revoked = true ∨
        auth.connections.get? (actor.tenantId, connectionId) = some principal := by
  obtain ⟨target, htarget, -, rfl⟩ := revoke_ok h
  rw [htarget]
  by_cases hsame : principal = target
  · subst hsame
    simp
  · simp [Function.update_of_ne hsame, Ne.symm hsame]

/-- `revoke` changes nothing but the flag. -/
theorem M1LocalAuth.serves_after (h : auth.revoke actor connectionId client = .ok auth')
    {tenantId conn cl token : String} {principal : ρ} :
    auth'.Serves tenantId conn cl token principal ↔ auth.Serves tenantId conn cl token principal := by
  obtain ⟨target, -, -, rfl⟩ := revoke_ok h
  unfold Serves
  by_cases hsame : principal = target
  · subst hsame
    simp
  · simp [Function.update_of_ne hsame]

variable {s : M1Server ρ R} {token : String} {principal : ρ}

/-- The token leads to a revoked principal. -/
def M1LocalAuth.Revoked (auth : M1LocalAuth ρ) (token : String) (principal : ρ) : Prop :=
  auth.tokens.get? token = some principal ∧ (auth.principals principal).revoked = true

/-- Only a registration of the token ends its revocation. -/
theorem M1Server.revoked_step (h : s.auth.Revoked token principal) {e : M1Event ρ R}
    (he : ¬e.Registers token) : (s.step e).auth.Revoked token principal := by
  cases e with
  | register token' principal' =>
    unfold step
    dsimp only
    cases hregister : s.auth.register token' principal' with
    | error e => exact h
    | ok auth =>
      obtain ⟨hprincipals, htokens⟩ := M1LocalAuth.register_ok hregister
      refine ⟨?_, ?_⟩
      · show auth.tokens.get? token = some principal
        rw [htokens, Dict.get?_set_of_ne _ _ fun hsame => he hsame.symm]
        exact h.1
      · show (auth.principals principal).revoked = true
        rw [hprincipals]
        exact h.2
  | revoke actor connectionId client =>
    unfold step
    dsimp only
    cases hrevoke : s.auth.revoke actor connectionId client with
    | error e => exact h
    | ok auth =>
      refine ⟨?_, (M1LocalAuth.revoked_after hrevoke principal).mpr (.inl h.2)⟩
      obtain ⟨target, -, -, rfl⟩ := M1LocalAuth.revoke_ok hrevoke
      exact h.1
  | call svc token' tool => exact h

theorem M1Server.revoked_play (h : s.auth.Revoked token principal) {later : List (M1Event ρ R)}
    (hlater : ∀ e ∈ later, ¬e.Registers token) :
    (play M1Server.step s later).auth.Revoked token principal := by
  induction later generalizing s with
  | nil => exact h
  | cons e later ih =>
    obtain ⟨he, hrest⟩ := List.forall_mem_cons.mp hlater
    exact ih (revoked_step h he) hrest

omit [DecidableEq ρ] in
theorem M1Server.refuses_of_revoked (h : s.auth.Revoked token principal) : s.Refuses token := by
  intro svc tool
  unfold call
  rw [h.1]
  dsimp only
  unfold invoke request
  rw [if_pos h.2]

/-- A capture that names another client than the principal's. -/
def foreignCapture (p : M1Principal) : M1Tool R :=
  .capture "a note" "fact" none
    { sourceType := "user", sourceClient := if p.clientId = "desk" then "phone" else "desk"
      capturedAt := "2026-01-01T00:00:00Z" }
    { mode := "manual", consentId := "consent-1", reasonCode := "user_requested_memory"
      policyVersion := "v1", grantedAt := "2026-01-01T00:00:00Z" } "key"

theorem foreignCapture_of_live {svc : MemoryApplicationService R} {p : M1Principal}
    {control : M1LocalControl R} (h : p.revoked = false) :
    (invoke svc p (foreignCapture p) control).1 ≠ .error (.boundary "connection_revoked") := by
  have hclient : (if p.clientId = "desk" then "phone" else "desk") ≠ p.clientId := by
    split
    · rename_i hdesk
      rw [hdesk]
      decide
    · rename_i hdesk
      exact fun hsame => hdesk hsame.symm
  unfold invoke request
  rw [if_neg (by rw [h]; decide)]
  by_cases hscope : (foreignCapture (R := R) p).requiredScope ∉ p.scopes
  · rw [if_pos hscope]
    intro hcon
    exact absurd (M1Error.boundary.inj (Except.error.inj hcon)) (by decide)
  · rw [if_neg hscope]
    unfold foreignCapture toolRequest captureRequest
    dsimp only
    rw [if_pos hclient]
    intro hcon
    exact absurd (M1Error.boundary.inj (Except.error.inj hcon)) (by decide)

omit [DecidableEq ρ] in
theorem M1Server.not_refuses_of_live (svc : MemoryApplicationService R)
    (htoken : s.auth.tokens.get? token = some principal)
    (hlive : (s.auth.principals principal).revoked = false) : ¬s.Refuses token := by
  intro hrefused
  have hcall := hrefused svc (foreignCapture (s.auth.principals principal))
  unfold call at hcall
  rw [htoken] at hcall
  exact foreignCapture_of_live hlive (Option.some.inj (congrArg Prod.fst hcall))

end Flags

/-- A successful revocation is complete if and only if every token of the connection and the client
leads to the principal that the connection index holds, or to one that was revoked before. -/
theorem revocation_complete_iff (svc : MemoryApplicationService R) (s : M1Server ρ R)
    {actor : M1Principal} {connectionId client : String} {auth : M1LocalAuth ρ}
    (hrevoke : s.auth.revoke actor connectionId client = .ok auth) :
    (∀ token principal, auth.Serves actor.tenantId connectionId client token principal →
      ∀ later : List (M1Event ρ R), (∀ e ∈ later, ¬e.Registers token) →
        (play M1Server.step { s with auth := auth } later).Refuses token) ↔
      ∀ token principal, s.auth.Serves actor.tenantId connectionId client token principal →
        (s.auth.principals principal).revoked = true ∨
          s.auth.connections.get? (actor.tenantId, connectionId) = some principal := by
  constructor
  · intro hcomplete token principal hserves
    have hserves' := (M1LocalAuth.serves_after hrevoke).mpr hserves
    by_contra hlive
    rw [← M1LocalAuth.revoked_after hrevoke, Bool.not_eq_true] at hlive
    -- a call with the token right after the revocation
    have hrefused := hcomplete token principal hserves' [] fun _ h => by cases h
    exact M1Server.not_refuses_of_live (s := { s with auth := auth }) svc hserves'.1 hlive hrefused
  · intro hshared token principal hserves later hlater
    have hrevoked : auth.Revoked token principal :=
      ⟨hserves.1, (M1LocalAuth.revoked_after hrevoke principal).mpr
        (hshared token principal ((M1LocalAuth.serves_after hrevoke).mp hserves))⟩
    have hlast := M1Server.revoked_play (s := { s with auth := auth }) hrevoked hlater
    exact M1Server.refuses_of_revoked hlast

/-! ### Two tokens of one connection -/

/-- Both clients of the connection are desk clients of `acme`, each with a principal of its own. -/
def twoDesks : M1Server Bool ℚ :=
  play M1Server.step { auth := { principals := fun _ => deskOf "acme" } }
    [.register "first" false, .register "second" true]

/-- The connection when its desk client has been revoked. -/
def revokedDesks : M1LocalAuth Bool :=
  { twoDesks.auth with
    principals := Function.update (fun _ => deskOf "acme") true
      { deskOf "acme" with revoked := true } }

theorem revoke_twoDesks :
    twoDesks.auth.revoke (deskOf "acme") "acme-desk" "desk" = .ok revokedDesks := rfl

theorem revocation_complete_iff_twoDesks :
    (∀ token principal, revokedDesks.Serves "acme" "acme-desk" "desk" token principal →
        ∀ later : List (M1Event Bool ℚ), (∀ e ∈ later, ¬e.Registers token) →
          (play M1Server.step { twoDesks with auth := revokedDesks } later).Refuses token) ↔
      ∀ token principal, twoDesks.auth.Serves "acme" "acme-desk" "desk" token principal →
        (twoDesks.auth.principals principal).revoked = true ∨
          twoDesks.auth.connections.get? ("acme", "acme-desk") = some principal :=
  revocation_complete_iff (serviceOn 1 8) twoDesks revoke_twoDesks

/-- The first token still works. -/
theorem first_token_survives :
    ¬∀ (principals : Bool → M1Principal) (events : List (M1Event Bool ℚ)) (s : M1Server Bool ℚ)
        (actor : M1Principal) (connectionId client : String) (auth : M1LocalAuth Bool),
      s = play M1Server.step { auth := { principals := principals } } events →
      s.auth.revoke actor connectionId client = .ok auth →
      ∀ token principal, auth.Serves actor.tenantId connectionId client token principal →
        ∀ later : List (M1Event Bool ℚ), (∀ e ∈ later, ¬e.Registers token) →
          (play M1Server.step { s with auth := auth } later).Refuses token := by
  intro hclaim
  have hrefused := hclaim _ _ twoDesks _ _ _ _ rfl revoke_twoDesks "first" false
    ⟨rfl, rfl, rfl, rfl⟩ [] fun _ h => by cases h
  exact M1Server.not_refuses_of_live (s := { twoDesks with auth := revokedDesks }) (serviceOn 1 8)
    (show _ = some false from rfl) rfl hrefused

end OpenMemory.Mcp
