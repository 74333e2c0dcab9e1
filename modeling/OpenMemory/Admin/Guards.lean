import OpenMemory.Admin.Model

/-!
# What stands before an endpoint

Most endpoints start in the same way: resolve the session, compare the CSRF header if they change
something, and check a scope. `Guard` says which of these an endpoint makes
(`exec_serve_of_guard_error`), and the rules here run them: none of them changes the server.
-/

namespace OpenMemory.Admin

open Lib Worker Handler
open Cloud (CloudError)

section Guards

variable {σ : Type} {request : AdminRequest} {s : Server σ}

/-- The session of the request is missing, or of a deleted tenant. -/
theorem exec_principal_of_none (h : s.auth.session request.cookie = none) :
    (principal request).exec s = (.error (.http 401 "authentication required"), s) := by
  unfold principal
  rw [exec_bind_of_ok (exec_get s), h]
  rfl

theorem exec_principal_of_some {value : Principal} (h : s.auth.session request.cookie = some value) :
    (principal request).exec s = (.ok value, s) := by
  unfold principal
  rw [exec_bind_of_ok (exec_get s), h]
  rfl

/-- Is the header the CSRF token of the session? `none` for `TypeError`. -/
def csrfMatches (request : AdminRequest) (s : Server σ) : Option Bool :=
  compareDigest request.csrf ((s.auth.csrf request.cookie).getD "")

theorem exec_requireCsrf_of_none (h : s.auth.session request.cookie = none) :
    (requireCsrf request).exec s = (.error (.http 401 "authentication required"), s) := by
  unfold requireCsrf
  rw [exec_bind_of_error (exec_principal_of_none h)]

theorem exec_requireCsrf_of_some {value : Principal}
    (h : s.auth.session request.cookie = some value) :
    (requireCsrf request).exec s =
      match csrfMatches request s with
      | none => (.error (.cloud .typeError), s)
      | some false => (.error (.http 403 "request rejected"), s)
      | some true => (.ok value, s) := by
  unfold requireCsrf
  rw [exec_bind_of_ok (exec_principal_of_some h), exec_bind_of_ok (exec_get s)]
  cases hmatch : csrfMatches request s with
  | none =>
    rw [csrfMatches] at hmatch
    rw [hmatch]
    rfl
  | some ok =>
    rw [csrfMatches] at hmatch
    rw [hmatch]
    cases ok with
    | false => rfl
    | true => rfl

/-- The check of the session and of the header ends the request, or answers with the principal of
the session; the server stays as it is. -/
theorem exec_requireCsrf_cases (request : AdminRequest) (s : Server σ) :
    (∃ e, (requireCsrf request).exec s = (.error e, s)) ∨
      ∃ value, s.auth.session request.cookie = some value ∧ csrfMatches request s = some true ∧
        (requireCsrf request).exec s = (.ok value, s) := by
  cases hsession : s.auth.session request.cookie with
  | none => exact .inl ⟨_, exec_requireCsrf_of_none hsession⟩
  | some value =>
    rw [exec_requireCsrf_of_some hsession]
    cases csrfMatches request s with
    | none => exact .inl ⟨_, rfl⟩
    | some ok =>
      cases ok with
      | false => exact .inl ⟨_, rfl⟩
      | true => exact .inr ⟨value, rfl, rfl, rfl⟩

theorem exec_requires_cases (value : Principal) (scope : Scope) (now : DateTime) (s : Server σ) :
    (∃ e, (requires value scope now).exec s = (.error e, s)) ∨
      (requires value scope now).exec s = (.ok ⟨⟩, s) := by
  unfold requires
  split
  · exact .inl ⟨_, rfl⟩
  · exact .inr rfl

/-- A guard that lets a request through leaves the server as it is. -/
theorem principal_ok {value : Principal} {s' : Server σ}
    (h : (principal request).exec s = (.ok value, s')) :
    s.auth.session request.cookie = some value ∧ s' = s := by
  cases hsession : s.auth.session request.cookie with
  | none =>
    rw [exec_principal_of_none hsession] at h
    cases h
  | some found =>
    rw [exec_principal_of_some hsession] at h
    cases h
    exact ⟨rfl, rfl⟩

theorem requires_ok {value : Principal} {scope : Scope} {now : DateTime} {u : PUnit}
    {s' : Server σ} (h : (requires value scope now).exec s = (.ok u, s')) : s' = s := by
  rcases exec_requires_cases value scope now s with ⟨e, he⟩ | hdone
  · rw [he] at h
    cases h
  · rw [hdone] at h
    cases h
    rfl

/-- A call of the backend that returns. -/
theorem callBackend_ok {α : Type} {f : σ → Except CloudError α × σ} {a : α} {s' : Server σ} :
    (callBackend f).exec s = (.ok a, s') ↔
      (f s.backend).1 = .ok a ∧ s' = { s with backend := (f s.backend).2 } := by
  unfold callBackend
  rw [exec_bind_of_ok (exec_get s), exec_bind_of_ok (exec_set _ _)]
  cases (f s.backend).1 with
  | error e =>
    constructor
    · intro h
      cases h
    · rintro ⟨h, -⟩
      cases h
  | ok found =>
    constructor
    · intro h
      cases h
      exact ⟨rfl, rfl⟩
    · rintro ⟨h, rfl⟩
      cases h
      rfl

/-- A principal that has expired has no scope. -/
theorem exec_requires_of_expired {value : Principal} {now : DateTime}
    (h : value.isExpired now = true) (scope : Scope) :
    (requires value scope now).exec s =
      (.error (.cloud (.permissionError "authorization denied")), s) := by
  unfold requires
  rw [if_pos (.inl h)]
  rfl

end Guards

/-! ## Guards of endpoints -/

/-- What an endpoint checks before its own work: nothing, the session, the session and the header,
and on top of these a scope. -/
inductive Guard
  | free
  | signedIn (csrf : Bool)
  | withScope (csrf : Bool) (scope : Scope)
  deriving DecidableEq

def Endpoint.guard : Endpoint → Guard
  | .capabilities => .free
  | .magicLink _ _ _ => .free
  | .callback _ _ _ => .free
  | .session => .signedIn false
  | .logout => .signedIn true
  | .listMemories _ _ _ => .withScope false .memoryRead
  | .createMemory _ => .withScope true .memoryWrite
  | .getMemory _ => .withScope false .memoryRead
  | .updateMemory _ _ => .withScope true .memoryWrite
  | .forgetMemory _ _ => .withScope true .memoryDelete
  | .listConnections => .withScope false .connectionsManage
  | .createConnection _ _ _ => .withScope true .connectionsManage
  | .revokeConnection _ _ => .withScope true .connectionsManage
  | .createAgentCredential _ _ _ _ => .withScope true .connectionsManage
  | .listAgentCredentials => .withScope false .connectionsManage
  | .revokeAgentCredential _ _ => .withScope true .connectionsManage
  | .requestExport _ => .withScope true .memoryExport
  | .operationStatus _ => .signedIn false
  | .requestAccountDeletion _ => .signedIn true

/-- Does the endpoint compare the CSRF header? -/
def Endpoint.checksCsrf (endpoint : Endpoint) : Bool :=
  match endpoint.guard with
  | .free => false
  | .signedIn csrf => csrf
  | .withScope csrf _ => csrf

section Scoped

variable {σ : Type} {app : AdminApp σ} {request : AdminRequest} {s : Server σ}

/-- The session of the request, with or without the header. -/
def signedIn (csrf : Bool) (request : AdminRequest) : AdminM σ Principal :=
  if csrf then requireCsrf request else principal request

/-- Whatever follows a guard that fails is not reached. -/
theorem exec_guarded {α : Type} {x : AdminM σ Principal} {scope : Scope} {now : DateTime}
    {e : AdminError} (rest : Principal → AdminM σ α)
    (h : (x >>= fun value => requires value scope now).exec s = (.error e, s)) :
    (x >>= fun value => requires value scope now >>= fun _ => rest value).exec s =
      (.error e, s) := by
  rw [exec_bind] at h ⊢
  rcases hx : x.exec s with ⟨e' | value, s'⟩
  · rw [hx] at h
    dsimp only at h ⊢
    rw [(Prod.mk.inj h).2, Except.error.inj (Prod.mk.inj h).1]
  · rw [hx] at h
    exact exec_bind_of_error h _

/-- An endpoint whose guard fails answers with the error of the guard. -/
theorem exec_serve_of_guard_error {csrf : Bool} {scope : Scope} {e : AdminError}
    (hguard : request.endpoint.guard = .withScope csrf scope)
    (h : (signedIn csrf request >>= fun value => requires value scope request.now).exec s =
      (.error e, s)) :
    (serve app request).exec s = (.error e, s) := by
  unfold serve
  cases hendpoint : request.endpoint <;> rw [hendpoint] at hguard <;> cases hguard
  case listMemories => exact exec_bind_of_error (exec_bind_of_error (exec_guarded _ h) _) _
  all_goals exact exec_bind_of_error (exec_guarded _ h) _

end Scoped

end OpenMemory.Admin
