import OpenMemory.Admin.Guards
import OpenMemory.Lib.Runs

/-!
# Expired sessions

A session is not resolved less readily when its principal has expired. What notices is the check of
a scope (`Principal.requires`), which every endpoint behind a scope makes before it does anything.
Two endpoints have no scope: `operations/{id}` and `account-deletions`. And where the CSRF header is
not ASCII, comparing it raises before the scope is checked, so that the answer is an internal error.

- `Powerless`: a request with an expired session is refused and changes nothing.
- `Slips`: the three cases, and the only ones, in which one request is not refused so.
- `expired_sessions_powerless_iff`: the same for runs.
- `expired_session_deletes`: an account is deleted two hours after its session has expired.
-/

namespace OpenMemory.Admin

open Lib Worker Handler
open Cloud (CloudError)

variable {σ : Type}

/-- The request carries a session whose principal has expired. -/
def CarriesExpired (s : Server σ) (request : AdminRequest) : Prop :=
  ∃ p, s.auth.sessionRecord request.cookie = some p ∧ p.isExpired request.now = true

/-- The endpoint reads or changes what belongs to a tenant, deletes the account, or returns a
receipt. -/
def Endpoint.touchesTenant : Endpoint → Bool
  | .capabilities => false
  | .magicLink _ _ _ => false
  | .callback _ _ _ => false
  | .session => false
  | .logout => false
  | _ => true

/-- Such an endpoint is behind a scope, but for two. -/
theorem Endpoint.cases_of_touchesTenant {endpoint : Endpoint}
    (h : endpoint.touchesTenant = true) :
    (∃ csrf scope, endpoint.guard = .withScope csrf scope) ∨
      (∃ operationId, endpoint = .operationStatus operationId) ∨
      ∃ operation, endpoint = .requestAccountDeletion operation := by
  cases endpoint
  case operationStatus operationId => exact .inr (.inl ⟨operationId, rfl⟩)
  case requestAccountDeletion operation => exact .inr (.inr ⟨operation, rfl⟩)
  case capabilities => cases h
  case magicLink => cases h
  case callback => cases h
  case session => cases h
  case logout => cases h
  all_goals exact .inl ⟨_, _, rfl⟩

/-- An expired session gives no power: the request is refused and changes nothing. -/
def Powerless (app : AdminApp σ) (s : Server σ) (request : AdminRequest) : Prop :=
  CarriesExpired s request → request.endpoint.touchesTenant = true →
    ∃ e, app.handle request s = (.error e, s) ∧ e.status ∈ [401, 403]

/-- What the scope check does not catch. -/
inductive Unchecked (s : Server σ) (request : AdminRequest) : Prop
  | status {operationId : String} (endpoint : request.endpoint = .operationStatus operationId)
  | deletion {operation : String} (endpoint : request.endpoint = .requestAccountDeletion operation)
      (csrf : csrfMatches request s = some true)
  | header (touches : request.endpoint.touchesTenant = true)
      (checks : request.endpoint.checksCsrf = true) (csrf : csrfMatches request s = none)

/-- The request gets past the refusal: its session resolves, has expired, and is not checked. -/
def Slips (s : Server σ) (request : AdminRequest) : Prop :=
  (∃ p, s.auth.session request.cookie = some p ∧ p.isExpired request.now = true) ∧
    Unchecked s request

section OneRequest

variable {app : AdminApp σ} {s : Server σ} {request : AdminRequest} {p : Principal}

theorem sessionRecord_of_session {auth : LocalMailboxAuth} {cookie : Option String}
    (h : auth.session cookie = some p) : auth.sessionRecord cookie = some p := by
  unfold LocalMailboxAuth.session at h
  cases hrecord : auth.sessionRecord cookie with
  | none =>
    rw [hrecord] at h
    cases h
  | some value =>
    rw [hrecord] at h
    dsimp only at h
    split at h
    · cases h
    · exact h

theorem session_eq_of_sessionRecord {auth : LocalMailboxAuth} {cookie : Option String}
    (h : auth.sessionRecord cookie = some p) :
    auth.session cookie = none ∨ auth.session cookie = some p := by
  unfold LocalMailboxAuth.session
  rw [h]
  dsimp only
  split
  · exact .inl rfl
  · exact .inr rfl

/-! ## Sessions of deleted tenants -/

theorem exec_signedIn_of_none (csrf : Bool) (h : s.auth.session request.cookie = none) :
    (signedIn csrf request).exec s = (.error (.http 401 "authentication required"), s) := by
  cases csrf with
  | false => exact exec_principal_of_none h
  | true => exact exec_requireCsrf_of_none h

/-- Without a session nothing of a tenant is touched. -/
theorem handle_of_none (h : s.auth.session request.cookie = none)
    (htouches : request.endpoint.touchesTenant = true) :
    app.handle request s = (.error (.http 401 "authentication required"), s) := by
  rcases Endpoint.cases_of_touchesTenant htouches with
    ⟨csrf, scope, hguard⟩ | ⟨operationId, hendpoint⟩ | ⟨operation, hendpoint⟩
  · exact exec_serve_of_guard_error hguard (exec_bind_of_error (exec_signedIn_of_none csrf h) _)
  · unfold AdminApp.handle serve
    rw [hendpoint]
    exact exec_bind_of_error (exec_bind_of_error (exec_principal_of_none h) _) _
  · unfold AdminApp.handle serve
    rw [hendpoint]
    exact exec_bind_of_error (exec_bind_of_error (exec_requireCsrf_of_none h) _) _

/-! ## Live sessions that have expired -/

/-- Behind a scope an expired session ends at the guard; the answer depends on the header. -/
theorem handle_of_scoped (app : AdminApp σ) {csrf : Bool} {scope : Scope}
    (hsession : s.auth.session request.cookie = some p) (hexpired : p.isExpired request.now = true)
    (hguard : request.endpoint.guard = .withScope csrf scope) :
    (csrf = true ∧ csrfMatches request s = none ∧
        app.handle request s = (.error (.cloud .typeError), s)) ∨
      ((csrf = true → csrfMatches request s ≠ none) ∧
        ∃ e, app.handle request s = (.error e, s) ∧ e.status = 403) := by
  have hdenied := exec_requires_of_expired (s := s) hexpired scope
  cases csrf with
  | false =>
    have hguarded := (exec_bind_of_ok (exec_principal_of_some hsession) fun value =>
      requires value scope request.now).trans hdenied
    exact .inr ⟨fun h => (Bool.false_ne_true h).elim, _,
      exec_serve_of_guard_error hguard hguarded, rfl⟩
  | true =>
    have hcsrf := exec_requireCsrf_of_some hsession
    cases hmatch : csrfMatches request s with
    | none =>
      rw [hmatch] at hcsrf
      exact .inl ⟨rfl, rfl, exec_serve_of_guard_error hguard (exec_bind_of_error hcsrf _)⟩
    | some ok =>
      rw [hmatch] at hcsrf
      refine .inr ⟨fun _ => Option.some_ne_none ok, ?_⟩
      cases ok with
      | false =>
        exact ⟨_, exec_serve_of_guard_error hguard (exec_bind_of_error hcsrf _), rfl⟩
      | true =>
        exact ⟨_, exec_serve_of_guard_error hguard ((exec_bind_of_ok hcsrf _).trans hdenied), rfl⟩

/-- A receipt is returned, or there is none of this tenant. -/
theorem handle_operationStatus (app : AdminApp σ) {operationId : String}
    (hsession : s.auth.session request.cookie = some p)
    (hendpoint : request.endpoint = .operationStatus operationId) :
    ∀ e, (app.handle request s).1 = .error e → e.status = 404 := by
  intro e he
  unfold AdminApp.handle serve withoutCookie operationStatus at he
  rw [hendpoint] at he
  dsimp only at he
  rw [exec_bind, exec_bind_of_ok (exec_principal_of_some hsession),
    exec_bind_of_ok (exec_get s)] at he
  cases hoperation : s.auth.operations.get? operationId with
  | none =>
    rw [hoperation] at he
    cases he
    rfl
  | some operation =>
    rw [hoperation] at he
    dsimp only at he
    by_cases htenant : operation.tenantId ≠ p.tenantId.str
    · rw [if_pos htenant] at he
      cases he
      rfl
    · rw [if_neg htenant] at he
      cases he

/-- With the header the account is deleted, whether or not the session has expired. -/
theorem handle_requestAccountDeletion (app : AdminApp σ) {operation : String}
    (hsession : s.auth.session request.cookie = some p)
    (hendpoint : request.endpoint = .requestAccountDeletion operation)
    (hcsrf : csrfMatches request s = some true) : ∃ reply, (app.handle request s).1 = .ok reply := by
  have hprincipal := exec_requireCsrf_of_some hsession
  rw [hcsrf] at hprincipal
  unfold AdminApp.handle serve withoutCookie requestAccountDeletion
  rw [hendpoint]
  dsimp only
  rw [exec_bind, exec_bind_of_ok hprincipal]
  cases app.runtime.deleteOwner with
  | none => exact ⟨_, rfl⟩
  | some deleteOwner => exact ⟨_, rfl⟩

/-- With a header that cannot be compared the answer is an internal error. -/
theorem handle_requestAccountDeletion_of_none {operation : String}
    (hsession : s.auth.session request.cookie = some p)
    (hendpoint : request.endpoint = .requestAccountDeletion operation)
    (hcsrf : csrfMatches request s = none) :
    app.handle request s = (.error (.cloud .typeError), s) := by
  have hprincipal := exec_requireCsrf_of_some hsession
  rw [hcsrf] at hprincipal
  unfold AdminApp.handle serve
  rw [hendpoint]
  exact exec_bind_of_error (exec_bind_of_error hprincipal _) _

/-- With another header the request is rejected. -/
theorem handle_requestAccountDeletion_of_false {operation : String}
    (hsession : s.auth.session request.cookie = some p)
    (hendpoint : request.endpoint = .requestAccountDeletion operation)
    (hcsrf : csrfMatches request s = some false) :
    app.handle request s = (.error (.http 403 "request rejected"), s) := by
  have hprincipal := exec_requireCsrf_of_some hsession
  rw [hcsrf] at hprincipal
  unfold AdminApp.handle serve
  rw [hendpoint]
  exact exec_bind_of_error (exec_bind_of_error hprincipal _) _

/-! ## The cases -/

/-- A request that slips through is not refused as it should be. -/
theorem not_powerless_of_slips (h : Slips s request) : ¬Powerless app s request := by
  obtain ⟨⟨p, hsession, hexpired⟩, hunchecked⟩ := h
  intro hpowerless
  have hcarries : CarriesExpired s request := ⟨p, sessionRecord_of_session hsession, hexpired⟩
  cases hunchecked with
  | status hendpoint =>
    obtain ⟨e, he, hstatus⟩ := hpowerless hcarries (by rw [hendpoint]; rfl)
    have h404 := handle_operationStatus app hsession hendpoint e (congrArg Prod.fst he)
    rw [h404] at hstatus
    exact absurd hstatus (by decide)
  | deletion hendpoint hcsrf =>
    obtain ⟨e, he, -⟩ := hpowerless hcarries (by rw [hendpoint]; rfl)
    obtain ⟨reply, hreply⟩ := handle_requestAccountDeletion app hsession hendpoint hcsrf
    rw [he] at hreply
    cases hreply
  | header htouches hchecks hcsrf =>
    obtain ⟨e, he, hstatus⟩ := hpowerless hcarries htouches
    have htype : app.handle request s = (.error (.cloud .typeError), s) := by
      rcases Endpoint.cases_of_touchesTenant htouches with
        ⟨csrf, scope, hguard⟩ | ⟨operationId, hendpoint⟩ | ⟨operation, hendpoint⟩
      · rw [Endpoint.checksCsrf, hguard] at hchecks
        rcases handle_of_scoped app hsession hexpired hguard with ⟨-, -, htype⟩ | ⟨hne, -⟩
        · exact htype
        · exact absurd hcsrf (hne hchecks)
      · rw [hendpoint] at hchecks
        cases hchecks
      · exact handle_requestAccountDeletion_of_none hsession hendpoint hcsrf
    rw [htype] at he
    cases he
    exact absurd hstatus (by decide)

/-- Any other request is. -/
theorem powerless_of_not_slips (h : ¬Slips s request) : Powerless app s request := by
  rintro ⟨p, hrecord, hexpired⟩ htouches
  rcases session_eq_of_sessionRecord hrecord with hnone | hsession
  · exact ⟨_, handle_of_none hnone htouches, by decide⟩
  have hchecked : ¬Unchecked s request := fun hunchecked => h ⟨⟨p, hsession, hexpired⟩, hunchecked⟩
  rcases Endpoint.cases_of_touchesTenant htouches with
    ⟨csrf, scope, hguard⟩ | ⟨operationId, hendpoint⟩ | ⟨operation, hendpoint⟩
  · rcases handle_of_scoped app hsession hexpired hguard with
      ⟨hcheck, hcsrf, -⟩ | ⟨-, e, he, hstatus⟩
    · refine absurd (.header htouches ?_ hcsrf) hchecked
      rw [Endpoint.checksCsrf, hguard]
      exact hcheck
    · exact ⟨e, he, by rw [hstatus]; decide⟩
  · exact absurd (.status hendpoint) hchecked
  · cases hcsrf : csrfMatches request s with
    | none =>
      refine absurd (.header htouches ?_ hcsrf) hchecked
      rw [hendpoint]
      rfl
    | some ok =>
      cases ok with
      | true => exact absurd (.deletion hendpoint hcsrf) hchecked
      | false =>
        exact ⟨_, handle_requestAccountDeletion_of_false hsession hendpoint hcsrf, by decide⟩

end OneRequest

/-- In a run of requests expired sessions are powerless if and only if no request slips through:
none asks with an expired session for a receipt, deletes the account with it, or sends a CSRF header
along that cannot be compared. -/
theorem expired_sessions_powerless_iff (app : AdminApp σ) (s : Server σ)
    (requests : List AdminRequest) :
    Along app.next (Powerless app) s requests ↔
      Along app.next (fun s request => ¬Slips s request) s requests :=
  along_congr (I := fun _ => True) trivial
    (fun _ _ _ => ⟨fun hpowerless hslips => not_powerless_of_slips hslips hpowerless,
      powerless_of_not_slips⟩)
    fun _ _ _ _ => trivial

/-- The session of midnight has expired at one. At two it still deletes the account. -/
theorem expired_session_deletes :
    (play countingApp.next { backend := 7 }
        (signIn ++ [signedInAt 2 (.requestAccountDeletion "1")])).backend = 0 ∧
      ¬Along countingApp.next (Powerless countingApp) { backend := 7 }
        (signIn ++ [signedInAt 2 (.requestAccountDeletion "1")]) := by
  have hexpired : ((play countingApp.next { backend := 7 } signIn).auth.sessionRecord
      (some "session-1")).map (fun p => p.isExpired (atHour 2)) = some true := by decide +kernel
  have hok : ((countingApp.handle (signedInAt 2 (.requestAccountDeletion "1"))
      (play countingApp.next { backend := 7 } signIn)).1).isOk = true := by decide +kernel
  refine ⟨by decide +kernel, fun h => ?_⟩
  obtain ⟨p, hp, hpexpired⟩ := Option.map_eq_some_iff.mp hexpired
  obtain ⟨e, he, -⟩ := (along_append.mp h).2.1 ⟨p, hp, hpexpired⟩ rfl
  rw [he] at hok
  cases hok

end OpenMemory.Admin
