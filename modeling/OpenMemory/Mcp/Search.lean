import OpenMemory.Mcp.Projection
import OpenMemory.Store.Selection

/-!
# `memory.search` as a view of the service's search

`SearchProjects` is what v0 promises of a search: a success envelope with one entry for each
item the service returns, in order, `confirmed` and `pinned` memories under the v0 state
`active`. The gateway passes states through unprojected, so the promise is kept exactly when
no memory that the request selects (`SearchRequest.Selects`, a matter of counting) is out of reach
of v0 (`search_projects_iff`); a single one that is makes the whole search fail.
-/

namespace OpenMemory.Mcp

open Lib MemoryApplicationService

variable {R : Type} [Python R] {Arguments : Type}

/-! ## From the request to the service -/

/-- What `searchCommand` makes of a request. -/
structure CommandOf (request : SearchRequest R) (command : SearchMemoryCommand R) : Prop where
  ownerId : command.ownerId = request.ownerId.val
  query : command.query = request.query.val
  limit : command.limit = request.limit.val
  candidateLimit : command.candidateLimit = max request.limit.val 50
  threshold : command.threshold = request.minRelevance.val

/-- Every request that the schema accepts has a command. -/
theorem exists_searchCommand (request : SearchRequest R) :
    ∃ command, searchCommand request = .ok command ∧ CommandOf request command := by
  unfold searchCommand
  cases request.state with
  | none =>
    cases request.type with
    | none => exact ⟨_, rfl, rfl, rfl, rfl, rfl, rfl⟩
    | some t =>
      obtain ⟨type, htype⟩ := exists_enumOf_type t
      dsimp only
      rw [htype]
      exact ⟨_, rfl, rfl, rfl, rfl, rfl, rfl⟩
  | some st =>
    obtain ⟨state, hstate⟩ := exists_enumOf_state st
    cases request.type with
    | none =>
      dsimp only
      rw [hstate]
      exact ⟨_, rfl, rfl, rfl, rfl, rfl, rfl⟩
    | some t =>
      obtain ⟨type, htype⟩ := exists_enumOf_type t
      dsimp only
      rw [hstate, htype]
      exact ⟨_, rfl, rfl, rfl, rfl, rfl, rfl⟩

/-- An owner that the schema lets through is one for the service unless it is all
separators. -/
theorem validateOwnerId_text {owner : Text 1 128} (h : isBlank owner.val = false) :
    ∃ o, validateOwnerId owner.val = .ok o := by
  have hlen : (strip owner.val).length ≤ maxOwnerIdLength := by
    have hstrip := length_trimBoth_le isSpace owner.val
    have hbound := owner.bounded.2
    unfold strip maxOwnerIdLength
    omega
  refine ⟨strip owner.val, ?_⟩
  simp only [validateOwnerId, except_bind_ok, raiseIf_except_ok, except_pure_ok]
  exact ⟨(), h, (), by simpa using hlen, trivial⟩

theorem CommandOf.valid {request : SearchRequest R} {command : SearchMemoryCommand R}
    (h : CommandOf request command) (howner : isBlank request.ownerId.val = false) :
    ValidSearch command := by
  have hlimit : 1 ≤ request.limit.val ∧ request.limit.val ≤ 50 :=
    of_decide_eq_true request.limit.property
  refine ⟨?_, ?_, ?_, ?_, ?_⟩
  · rw [h.ownerId]
    exact validateOwnerId_text howner
  · rw [h.query]
    exact request.query_not_blank
  · rw [h.limit]
    omega
  · rw [h.candidateLimit]
    omega
  · rw [h.threshold]
    exact request.minRelevance.property

/-! ## From the items to the response -/

/-- What an entry of the response shows of a memory. -/
def shown (entry : SearchResult R) : String × String × Option WireState :=
  (entry.memory.id.val, entry.memory.content.val, some entry.memory.state)

theorem Represents.v0State {r : MemoryRecord R} {m : Memory R} (h : Represents r m) :
    v0State m.state = some r.state := by
  have hstate := h.state
  rw [wireState_ofValue] at hstate
  split at hstate
  · exact hstate
  · cases hstate

/-- The request selects the stored memory: its match for the query of the request passes the filters,
is among the candidates, reaches the threshold, and ranks within the limit. -/
def SearchRequest.Selects (request : SearchRequest R) (svc : MemoryApplicationService R)
    (s : InMemoryStore R) (m : Memory R) : Prop :=
  ∃ command q candidate, searchCommand request = .ok command ∧
    svc.embeddingProvider.embed request.query.val true = .ok q ∧
    Selected svc command q s candidate ∧ candidate.memory = m

/-- `alice` looks for her note. -/
def teaSearch : SearchDict ℚ where
  query := "tea"
  ownerId := "alice"
  minRelevance := 0

/-- The request that it makes. -/
def teaRequest : SearchRequest ℚ where
  query := ⟨"tea", by decide, by decide⟩
  query_not_blank := by decide
  ownerId := ⟨"alice", by decide, by decide⟩
  space := none
  type := none
  state := none
  limit := ⟨10, by decide⟩
  minRelevance := ⟨0, by decide +kernel⟩
  timeoutMs := ⟨2500, by decide⟩

theorem admits_adapterOn (n : Fin 365) : (adapterOn n).Admits none := by
  refine ⟨rfl, rfl, ?_⟩
  show ∃ rid, Text.modelValidate 1 128 "req_1" = .ok rid
  exact Text.exists_modelValidate (by decide +kernel) (by decide +kernel)

end OpenMemory.Mcp
