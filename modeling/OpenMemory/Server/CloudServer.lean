import OpenMemory.Server.CloudTools

/-!
# The hosted server and its tokens (`server/official.py`, `cloud/security.py`)

A request takes two moves of the server. First `verify_token` reads the token of its header, and
what the token is accepted as stays with the request; then the tool runs with it. In between,
tokens are issued and revoked, and other requests come and go.

- `accepted_of_get?`: what stays with a request was accepted in a move before.
- `ready_run`: the service holds together along a run.
- `changes_authorized`: who changes a memory had a token for it.
-/

namespace OpenMemory.Server

open Lib
open Admin (AccessToken Principal Scope owner sha256Hexdigest)
open Cloud (EncryptedCloudMemoryService OwnerCall)
open LocalDevelopmentTokenVerifier
open Mcp (ClockReading)

variable {R : Type} [Python R] {T : Type} [ClockReading T]

/-! ## The server -/

structure CloudServer (R T : Type) where
  verifier : LocalDevelopmentTokenVerifier
  /-- What the tokens of the requests were accepted as. -/
  accessTokens : Dict String AccessToken := ∅
  tools : CloudTools R T

/-- What happens. Requests are told apart by a name of their own. -/
inductive ServerMove (R T : Type)
  | issue (issuer audience : String) (claims : Claims)
  | revoke (token : String)
  | rotate (version : Int)
  | authenticate (request : String) (now : DateTime) (bearer : String)
  | call (request : String) (call : HostedCall R T)

namespace ServerMove

/-- What a move is to the verifier. -/
def tokenEvent : ServerMove R T → Option TokenEvent
  | issue issuer audience claims => some (.issue issuer audience claims)
  | revoke token => some (.revoke token)
  | _ => none

/-- The id that a move draws. -/
def drawn : ServerMove R T → Option String
  | call _ hosted => hosted.drawn
  | _ => none

end ServerMove

namespace CloudServer

/-- The server after a move. -/
def step (runtime : CloudRuntime R T) (s : CloudServer R T) : ServerMove R T → CloudServer R T
  | .issue _ _ _ => s
  | .revoke token => { s with verifier := s.verifier.revoke token }
  | .rotate version => { s with tools := runtime.next s.tools (.rotate version) }
  | .authenticate request now bearer =>
    match s.verifier.verifyToken runtime.lib now bearer with
    | .ok (some token) => { s with accessTokens := s.accessTokens.set request token }
    | _ => { s with accessTokens := s.accessTokens.pop request }
  | .call request call =>
    { s with tools := runtime.next s.tools (.call (s.accessTokens.get? request) call) }

/-- The server after a run. -/
def run (runtime : CloudRuntime R T) (s : CloudServer R T) (moves : List (ServerMove R T)) :
    CloudServer R T := moves.foldl (step runtime) s

/-- A server that is started. -/
def start (R T : Type) (v : LocalDevelopmentTokenVerifier) (keyVersion : Int) : CloudServer R T :=
  { verifier := v, tools := newTools R T keyVersion }

variable {runtime : CloudRuntime R T} {v : LocalDevelopmentTokenVerifier}

/-- The events of a run for the verifier. -/
def tokenEvents (moves : List (ServerMove R T)) : List TokenEvent :=
  moves.filterMap ServerMove.tokenEvent

theorem run_concat (s : CloudServer R T) (moves : List (ServerMove R T)) (move : ServerMove R T) :
    run runtime s (moves ++ [move]) = step runtime (run runtime s moves) move :=
  List.foldl_concat _ _ _ _

/-! ## What stays with a request -/

/-- The verifier takes part in events on tokens only. -/
theorem verifier_step (s : CloudServer R T) (move : ServerMove R T) :
    (step runtime s move).verifier = s.verifier.run (move.tokenEvent).toList := by
  cases move with
  | issue issuer audience claims => rfl
  | revoke token => rfl
  | rotate version => rfl
  | authenticate request now bearer =>
    unfold step
    dsimp only
    split <;> rfl
  | call request call => rfl

/-- The verifier sees the events that are for it. -/
theorem verifier_run (s : CloudServer R T) (moves : List (ServerMove R T)) :
    (run runtime s moves).verifier = s.verifier.run (tokenEvents moves) := by
  induction moves generalizing s with
  | nil => rfl
  | cons move moves ih =>
    show (run runtime (step runtime s move) moves).verifier = _
    rw [ih, verifier_step]
    unfold tokenEvents LocalDevelopmentTokenVerifier.run
    rw [List.filterMap_cons]
    cases move.tokenEvent <;> rfl

/-- In the run, the token of the request was accepted as `token`. -/
structure Accepted (runtime : CloudRuntime R T) (v : LocalDevelopmentTokenVerifier)
    (moves : List (ServerMove R T)) (request : String) (token : AccessToken)
    (before after : List (ServerMove R T)) (now : DateTime) (bearer : String) : Prop where
  moves_eq : moves = before ++ .authenticate request now bearer :: after
  verified : (v.run (tokenEvents before)).verifyToken runtime.lib now bearer = .ok (some token)

/-- A request that was accepted stays accepted. -/
theorem Accepted.concat {moves : List (ServerMove R T)} {request : String} {token : AccessToken}
    {before after : List (ServerMove R T)} {now : DateTime} {bearer : String}
    (h : Accepted runtime v moves request token before after now bearer) (move : ServerMove R T) :
    Accepted runtime v (moves ++ [move]) request token before (after ++ [move]) now bearer where
  moves_eq := by rw [h.moves_eq, List.append_assoc, List.cons_append]
  verified := h.verified

/-- What stays with a request, its token was accepted as. -/
theorem accepted_of_get? {keyVersion : Int} {moves : List (ServerMove R T)} {request : String}
    {token : AccessToken}
    (h : (run runtime (start R T v keyVersion) moves).accessTokens.get? request = some token) :
    ∃ before after now bearer, Accepted runtime v moves request token before after now bearer := by
  induction moves using List.reverseRecOn with
  | nil => cases h
  | append_singleton moves move ih =>
    have hold : ∀ s : CloudServer R T, run runtime (start R T v keyVersion) moves = s →
        s.accessTokens.get? request = some token →
        ∃ before after now bearer,
          Accepted runtime v (moves ++ [move]) request token before after now bearer := by
      rintro _ rfl hget
      obtain ⟨before, after, now, bearer, haccepted⟩ := ih hget
      exact ⟨before, after ++ [move], now, bearer, haccepted.concat move⟩
    rw [run_concat] at h
    have hverifier : (run runtime (start R T v keyVersion) moves).verifier =
        v.run (tokenEvents moves) := verifier_run _ moves
    generalize hs : run runtime (start R T v keyVersion) moves = s at h hverifier
    cases move with
    | issue issuer audience claims => exact hold s hs h
    | revoke revoked => exact hold s hs h
    | rotate version => exact hold s hs h
    | call request' call => exact hold s hs h
    | authenticate request' now bearer =>
      have hpopped : (s.accessTokens.pop request').get? request = some token →
          ∃ before after now' bearer', Accepted runtime v
            (moves ++ [.authenticate request' now bearer]) request token before after now'
            bearer' := by
        intro hpop
        rw [Dict.get?_pop] at hpop
        split at hpop
        · cases hpop
        · exact hold s hs hpop
      unfold step at h
      dsimp only at h
      cases hverify : s.verifier.verifyToken runtime.lib now bearer with
      | error e =>
        rw [hverify] at h
        exact hpopped h
      | ok accepted =>
        rw [hverify] at h
        cases accepted with
        | none => exact hpopped h
        | some token' =>
          have hset : (s.accessTokens.set request' token').get? request = some token := h
          rw [Dict.get?_set] at hset
          split at hset
          · rename_i hrequest
            subst hrequest
            obtain rfl := Option.some.inj hset
            refine ⟨moves, [], now, bearer, rfl, ?_⟩
            rw [← hverify, hverifier]
          · exact hold s hs hset

/-! ## The service along a run -/

omit [Python R] [ClockReading T] in
theorem filterMap_drawn_cons (move : ServerMove R T) (moves : List (ServerMove R T)) :
    (move :: moves).filterMap ServerMove.drawn =
      move.drawn.toList ++ moves.filterMap ServerMove.drawn := by
  rw [List.filterMap_cons]
  cases move.drawn <;> rfl

/-- Each move uses up the id that it draws. -/
theorem ready_step {s : CloudServer R T} {move : ServerMove R T} {ids : List String}
    (h : OwnerCall.Ready s.tools.service (move.drawn.toList ++ ids)) :
    OwnerCall.Ready (step runtime s move).tools.service ids := by
  cases move with
  | issue issuer audience claims => exact h
  | revoke token => exact h
  | rotate version =>
    show OwnerCall.Ready (runtime.next s.tools (.rotate version)).service ids
    exact CloudRuntime.ready_next h
  | authenticate request now bearer =>
    unfold step
    dsimp only
    split <;> exact h
  | call request call =>
    show OwnerCall.Ready
      (runtime.next s.tools (.call (s.accessTokens.get? request) call)).service ids
    exact CloudRuntime.ready_next h

/-- So does a run. -/
theorem ready_run {s : CloudServer R T} {moves : List (ServerMove R T)} {ids : List String}
    (h : OwnerCall.Ready s.tools.service (moves.filterMap ServerMove.drawn ++ ids)) :
    OwnerCall.Ready (run runtime s moves).tools.service ids := by
  induction moves generalizing s with
  | nil => exact h
  | cons move moves ih =>
    rw [filterMap_drawn_cons, List.append_assoc] at h
    exact ih (ready_step h)

/-! ## Who changes what -/

/-- A call that changes the service makes one call for the owner of a principal that it is permitted
to. -/
theorem callCloud_changes {token : Option AccessToken} {call : HostedCall R T} {s : CloudTools R T}
    (h : (runtime.callCloud token call s).2.service ≠ s.service) :
    ∃ p, runtime.callerOf token = some p ∧
      permits p (scopeOf call.arguments) call.checked = true ∧
      ∃ method : OwnerCall R, (∀ mine, method.isFor mine = mine (owner p)) ∧
        method.drawn = call.drawn ∧
        (runtime.callCloud token call s).2.service =
          method.next runtime.encryptor runtime.unicode s.service := by
  rcases CloudRuntime.callCloud_cases runtime token call with
    ⟨e, hdenied⟩ | ⟨p, hp, hpermits, hcalled⟩
  · rw [hdenied] at h
    exact absurd rfl h
  · rw [hcalled] at h ⊢
    refine ⟨p, hp, hpermits, ?_⟩
    exact (service_callTool runtime p call s).resolve_left h

/-- A caller is a principal that the token makes. -/
theorem callerOf_eq_some {token : AccessToken} {p : Principal} :
    runtime.callerOf (some token) = some p ↔
      principalFromAccessToken runtime.lib token = .ok p := by
  unfold CloudRuntime.callerOf
  rw [Option.bind_some]
  cases principalFromAccessToken runtime.lib token with
  | error e => simp [Except.toOption]
  | ok p' => simp [Except.toOption]

/-- The principal has the scope, and has not expired. -/
theorem permits_iff {p : Principal} {scope : Scope} {now : DateTime} :
    permits p scope now = true ↔ now.instant < p.expiresAt.instant ∧ scope ∈ p.scopes := by
  simp [permits, Principal.isExpired]

omit [Python R] [ClockReading T] in
/-- A token is issued in the run exactly if it is issued to the verifier. -/
theorem mem_tokenEvents_issue {moves : List (ServerMove R T)} {issuer audience : String}
    {claims : Claims} :
    .issue issuer audience claims ∈ tokenEvents moves ↔ .issue issuer audience claims ∈ moves := by
  unfold tokenEvents
  rw [List.mem_filterMap]
  constructor
  · rintro ⟨move, hin, hevent⟩
    cases move <;> cases hevent
    exact hin
  · exact fun hin => ⟨_, hin, rfl⟩

omit [Python R] [ClockReading T] in
/-- So it is with revocations. -/
theorem mem_tokenEvents_revoke {moves : List (ServerMove R T)} {token : String} :
    .revoke token ∈ tokenEvents moves ↔ .revoke token ∈ moves := by
  unfold tokenEvents
  rw [List.mem_filterMap]
  constructor
  · rintro ⟨move, hin, hevent⟩
    cases move <;> cases hevent
    exact hin
  · exact fun hin => ⟨_, hin, rfl⟩

/-- In any run, a call that changes anything in the service belongs to a request whose token was
issued before it was accepted, had not been revoked or expired by then, and has the scope of the
tool; it has not expired when the tool runs either, and nothing is changed but what is stored for
the subject of the token in its tenant. -/
theorem changes_authorized (hnew : v.revoked = ∅) (keyVersion : Int)
    {moves : List (ServerMove R T)} {request : String} {call : HostedCall R T}
    (hfresh : ((moves ++ [ServerMove.call request call]).filterMap ServerMove.drawn).Nodup)
    (htag : ∀ before after now bearer,
      moves = before ++ .authenticate request now bearer :: after →
        IdealTag v.signatureOf (messagesOf bearer) (presentedIn bearer)
          (v.signedIn runtime.lib (tokenEvents before)))
    (hchange : (run runtime (start R T v keyVersion) (moves ++ [.call request call])).tools.service
      ≠ (run runtime (start R T v keyVersion) moves).tools.service) :
    ∃ before after now bearer claims expires,
      moves = before ++ .authenticate request now bearer :: after ∧
      .issue v.issuer v.audience claims ∈ before ∧ bearer = v.issue runtime.lib claims ∧
      (∀ t, .revoke t ∈ before → sha256Hexdigest t ≠ sha256Hexdigest bearer) ∧
      timestamp runtime.lib now < timestamp runtime.lib claims.expiresAt ∧
      fromTimestamp runtime.lib (timestamp runtime.lib claims.expiresAt) = .ok expires ∧
      call.checked.instant < expires.instant ∧ scopeOf call.arguments ∈ claims.scopes ∧
      ∀ mine, mine (owner (principalOf claims expires)) = false →
        Cloud.restrict mine
            (run runtime (start R T v keyVersion) (moves ++ [.call request call])).tools.service =
          Cloud.restrict mine (run runtime (start R T v keyVersion) moves).tools.service := by
  rw [run_concat] at hchange ⊢
  have hready : OwnerCall.Ready (run runtime (start R T v keyVersion) moves).tools.service
      (call.drawn.toList ++ []) := by
    rw [List.filterMap_append] at hfresh
    refine ready_run (OwnerCall.ready_newService keyVersion ?_)
    rw [List.append_nil]
    cases hdrawn : call.drawn <;>
      simpa [List.filterMap_cons, ServerMove.drawn, hdrawn] using hfresh
  obtain ⟨p, hcaller, hpermits, method, hfor, hdrawn, hnext⟩ := callCloud_changes hchange
  cases hget : (run runtime (start R T v keyVersion) moves).accessTokens.get? request with
  | none =>
    rw [hget] at hcaller
    cases hcaller
  | some token =>
    rw [hget] at hcaller
    obtain ⟨before, after, now, bearer, haccepted⟩ := accepted_of_get? hget
    obtain ⟨claims, hin, hbearer, hlive, hlt, rfl⟩ := issued_of_verifyToken runtime.lib hnew
      (htag _ _ _ _ haccepted.moves_eq) haccepted.verified
    obtain ⟨expires, hexpires, rfl⟩ :=
      (principalFromAccessToken_accessTokenOf runtime.lib).mp (callerOf_eq_some.mp hcaller)
    obtain ⟨hlater, hscope⟩ := permits_iff.mp hpermits
    refine ⟨before, after, now, bearer, claims, expires, haccepted.moves_eq,
      mem_tokenEvents_issue.mp hin, hbearer, fun t ht => hlive t (mem_tokenEvents_revoke.mpr ht),
      hlt, hexpires, hlater, hscope, fun mine hmine => ?_⟩
    rw [← hdrawn] at hready
    show Cloud.restrict mine (runtime.callCloud _ call _).2.service = _
    rw [hnext]
    exact OwnerCall.restrict_run hready.kept hready.head ((hfor mine).trans hmine)

/-! ### One note -/

/-- A bearer that is accepted is kept for its request. -/
theorem run_issue_authenticate {keyVersion : Int} {issuer audience request bearer : String}
    {claims : Claims} {now : DateTime} {token : AccessToken}
    (h : v.verifyToken runtime.lib now bearer = .ok (some token)) :
    run runtime (start R T v keyVersion)
        [.issue issuer audience claims, .authenticate request now bearer] =
      { verifier := v
        accessTokens := (∅ : Dict String AccessToken).set request token
        tools := newTools R T keyVersion } := by
  show step runtime (start R T v keyVersion) (.authenticate request now bearer) = _
  unfold step
  dsimp only
  rw [show (start R T v keyVersion).verifier = v from rfl, h]
  rfl

theorem service_call (s : CloudServer R T) (request : String) (call : HostedCall R T) :
    (step runtime s (.call request call)).tools.service =
      (runtime.callCloud (s.accessTokens.get? request) call s.tools).2.service := rfl

/-- The token of somebody who writes. -/
def writerToken : String := newVerifier.issue utcInterpreter (writerClaims ⟨2⟩)

/-- They call at one o'clock. -/
def noteCall : HostedCall ℚ Int where
  arguments := sharedNote
  requestId := "req_1"
  checked := Admin.atHour 1
  reading := 0
  env := Cloud.deskEnv 7

def noteMoves : List (ServerMove ℚ Int) :=
  [.issue "https://issuer.test" "memory" (writerClaims ⟨2⟩),
    .authenticate "r1" (Admin.atHour 1) writerToken]

theorem verifyToken_writerToken :
    newVerifier.verifyToken deskRuntime.lib (Admin.atHour 1) writerToken =
      .ok (some (newVerifier.accessTokenOf deskRuntime.lib writerToken (writerClaims ⟨2⟩))) := by
  have hsigned : newVerifier.IsSigned writerToken
      (newVerifier.encodedOf utcInterpreter (writerClaims ⟨2⟩)) :=
    (isSigned_iff_eq_issue utcInterpreter).mpr rfl
  rw [newVerifier.verifyToken_signed deskRuntime.lib (Finset.notMem_empty _) hsigned, if_pos]
  exact ⟨rfl, rfl, by decide⟩

theorem run_noteMoves :
    run deskRuntime (start ℚ Int newVerifier 1) noteMoves =
      { verifier := newVerifier
        accessTokens := (∅ : Dict String AccessToken).set "r1"
          (newVerifier.accessTokenOf deskRuntime.lib writerToken (writerClaims ⟨2⟩))
        tools := newTools ℚ Int 1 } :=
  run_issue_authenticate verifyToken_writerToken

/-- The note is stored. -/
theorem length_records_noteCall :
    (deskRuntime.callCloud
      (some (newVerifier.accessTokenOf deskRuntime.lib writerToken (writerClaims ⟨2⟩))) noteCall
      (newTools ℚ Int 1)).2.service.records.items.length = 1 := by
  decide +kernel

/-- What stands behind something else in a list of two is the second of them. -/
theorem eq_singleton_of_pair {α : Type} {x y z : α} {before after : List α}
    (h : [x, y] = before ++ z :: after) (hne : x ≠ z) : before = [x] ∧ y = z := by
  cases before with
  | nil => exact absurd (List.cons.inj h).1 hne
  | cons first rest =>
    obtain ⟨rfl, hrest⟩ := List.cons.inj h
    cases rest with
    | nil => exact ⟨rfl, (List.cons.inj hrest).1⟩
    | cons second rest =>
      have hlength := congrArg List.length (List.cons.inj hrest).2
      simp at hlength

theorem service_noteMoves :
    (run deskRuntime (start ℚ Int newVerifier 1) (noteMoves ++ [.call "r1" noteCall])).tools.service
      ≠ (run deskRuntime (start ℚ Int newVerifier 1) noteMoves).tools.service := by
  intro hsame
  rw [run_concat, service_call, run_noteMoves] at hsame
  dsimp only at hsame
  rw [Dict.get?_set_self] at hsame
  have hlength := congrArg (fun service => service.records.items.length) hsame
  rw [length_records_noteCall] at hlength
  exact absurd hlength (by decide)

theorem idealTag_noteMoves (before after : List (ServerMove ℚ Int)) (now : DateTime)
    (bearer : String) (hsplit : noteMoves = before ++ .authenticate "r1" now bearer :: after) :
    IdealTag newVerifier.signatureOf (messagesOf bearer) (presentedIn bearer)
      (newVerifier.signedIn deskRuntime.lib (tokenEvents before)) := by
  obtain ⟨rfl, hmove⟩ := eq_singleton_of_pair hsplit nofun
  obtain ⟨-, -, rfl⟩ := ServerMove.authenticate.inj hmove
  exact idealTag_issue deskRuntime.lib List.mem_cons_self

theorem nodup_noteMoves :
    ((noteMoves ++ [ServerMove.call "r1" noteCall]).filterMap ServerMove.drawn).Nodup := by
  decide +kernel

/-- The writer's note at the desk: the token was issued before. -/
theorem note_authorized :
    ∃ before after now bearer claims,
      noteMoves = before ++ .authenticate "r1" now bearer :: after ∧
      .issue newVerifier.issuer newVerifier.audience claims ∈ before ∧
      bearer = newVerifier.issue deskRuntime.lib claims := by
  obtain ⟨before, after, now, bearer, claims, -, hsplit, hin, hbearer, -⟩ :=
    changes_authorized (v := newVerifier) rfl 1 nodup_noteMoves idealTag_noteMoves service_noteMoves
  exact ⟨before, after, now, bearer, claims, hsplit, hin, hbearer⟩

end CloudServer

end OpenMemory.Server
