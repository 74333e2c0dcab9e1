import OpenMemory.Store.Invariant

/-!
# Search over the store

`Matches` says what the filter loop of `search_candidates` demands of a memory, and every
candidate is a stored memory that meets it. For a provider that keeps its contract (`Serves`)
a valid search over a well-formed store returns (`search_succeeds`), and `search_items` says
what its items are.
-/

namespace OpenMemory

open Lib MemoryApplicationService InMemoryMemoryRepository

variable {R : Type} [Python R]

/-! ## Search candidates -/

/-- The memory under `i` passes the filters of a search, with the vector it is scored by. -/
structure Matches (s : InMemoryStore R) (o : String) (t : Option String)
    (profile : EmbeddingProfile) (filters : SearchFilters R) (i : UUID) (m : Memory R)
    (vector : List R) : Prop where
  owner : m.ownerId = o
  tenant : t.isSome → m.tenantId = t
  state : m.state ∈ filters.states
  memoryType : ∀ types, filters.memoryTypes = some types → types ≠ ∅ → m.memoryType ∈ types
  space : filters.space.isSome → m.space = filters.space
  importance : ∀ least, filters.minImportance = some least → Python.lt m.importance least = false
  confidence : ∀ least, filters.minConfidence = some least → Python.lt m.confidence least = false
  descriptor : ∃ d, m.embedding = some d ∧ profile.descriptor = .ok d
  vector : s.vectors.get? i = some vector

theorem candidateOf_ok {s : InMemoryStore R} {o : String} {t : Option String} {q : List R}
    {profile : EmbeddingProfile} {filters : SearchFilters R} {i : UUID} {m : Memory R}
    {c : MemorySearchCandidate R}
    (h : candidateOf s o t q profile filters i m = .ok (some c)) :
    ∃ vector, Matches s o t profile filters i m vector ∧
      c = { memory := m, similarity := shiftedSimilarity q vector, profile := profile } := by
  unfold candidateOf at h
  -- the filters, in the order of the source
  split at h
  · cases h
  rename_i howner
  split at h
  · cases h
  rename_i htenant
  split at h
  · cases h
  rename_i hstate
  split at h
  · cases h
  rename_i htype
  split at h
  · cases h
  rename_i hspace
  split at h
  · cases h
  rename_i himportance
  split at h
  · cases h
  rename_i hconfidence
  cases hdesc : m.embedding with
  | none =>
    rw [hdesc] at h
    cases h
  | some d =>
    rw [hdesc] at h
    obtain ⟨wanted, hwanted, h⟩ := except_bind_ok.mp h
    split at h
    · cases h
    rename_i heq
    cases hvec : s.vectors.get? i with
    | none =>
      rw [hvec] at h
      cases h
    | some vector =>
      rw [hvec] at h
      cases h
      -- a candidate has passed each of them
      refine ⟨vector, ⟨not_not.mp howner, ?_, not_not.mp hstate, ?_, ?_, ?_, ?_, ?_, hvec⟩, rfl⟩
      · intro hsome
        simpa [hsome] using htenant
      · intro types htypes hne
        simpa [someAnd, htypes, hne] using htype
      · intro hsome
        simpa [hsome] using hspace
      · intro least hleast
        simpa [someAnd, hleast] using himportance
      · intro least hleast
        simpa [someAnd, hleast] using hconfidence
      · exact ⟨d, hdesc, (not_not.mp heq).symm ▸ hwanted⟩

/-- A memory that passes the filters is a candidate. -/
theorem candidateOf_of_matches {s : InMemoryStore R} {o : String} {t : Option String} {q : List R}
    {profile : EmbeddingProfile} {filters : SearchFilters R} {i : UUID} {m : Memory R}
    {vector : List R} (h : Matches s o t profile filters i m vector) :
    candidateOf s o t q profile filters i m
      = .ok (some { memory := m, similarity := shiftedSimilarity q vector, profile := profile }) := by
  obtain ⟨d, hd, hprofile⟩ := h.descriptor
  -- every filter passes
  have htenant : ¬(t.isSome && decide (m.tenantId ≠ t)) = true := by
    intro hbad
    simp only [Bool.and_eq_true, decide_eq_true_eq] at hbad
    exact hbad.2 (h.tenant hbad.1)
  have hspace : ¬(filters.space.isSome && decide (m.space ≠ filters.space)) = true := by
    intro hbad
    simp only [Bool.and_eq_true, decide_eq_true_eq] at hbad
    exact hbad.2 (h.space hbad.1)
  have htype : ¬someAnd (fun types => decide (types ≠ ∅) && decide (m.memoryType ∉ types))
      filters.memoryTypes = true := by
    cases htypes : filters.memoryTypes with
    | none => simp [someAnd]
    | some types =>
      have := h.memoryType types htypes
      simpa [someAnd] using this
  have himportance : ¬someAnd (fun least => Python.lt m.importance least) filters.minImportance
      = true := by
    cases hmin : filters.minImportance with
    | none => simp [someAnd]
    | some least => simp [someAnd, h.importance least hmin]
  have hconfidence : ¬someAnd (fun least => Python.lt m.confidence least) filters.minConfidence
      = true := by
    cases hmin : filters.minConfidence with
    | none => simp [someAnd]
    | some least => simp [someAnd, h.confidence least hmin]
  unfold candidateOf
  rw [if_neg (not_not.mpr h.owner), if_neg htenant, if_neg (not_not.mpr h.state), if_neg htype,
    if_neg hspace, if_neg himportance, if_neg hconfidence, hd]
  show (profile.descriptor >>= _) = _
  rw [hprofile]
  show (if d ≠ d then _ else _) = _
  rw [if_neg (not_not.mpr rfl), h.vector]
  rfl

theorem collectCandidates_mem {s : InMemoryStore R} {o : String} {t : Option String} {q : List R}
    {profile : EmbeddingProfile} {filters : SearchFilters R} {items : List (UUID × Memory R)}
    {all : List (MemorySearchCandidate R)} {c : MemorySearchCandidate R}
    (h : collectCandidates s o t q profile filters items = .ok all) (hc : c ∈ all) :
    ∃ i m vector, (i, m) ∈ items ∧ Matches s o t profile filters i m vector ∧
      c = { memory := m, similarity := shiftedSimilarity q vector, profile := profile } := by
  induction items generalizing all with
  | nil =>
    cases h
    cases hc
  | cons entry rest ih =>
    simp only [collectCandidates, except_bind_ok, except_pure_ok] at h
    obtain ⟨here, hhere, more, hmore, rfl⟩ := h
    rcases List.mem_append.mp hc with hc | hc
    · obtain rfl : here = some c := by simpa using hc
      obtain ⟨vector, hmatch, heq⟩ := candidateOf_ok hhere
      exact ⟨entry.1, entry.2, vector, List.mem_cons_self, hmatch, heq⟩
    · obtain ⟨i, m, vector, hmem, hmatch, heq⟩ := ih hmore hc
      exact ⟨i, m, vector, List.mem_cons_of_mem _ hmem, hmatch, heq⟩

/-- Every candidate of a search is a stored memory that passes the filters. -/
theorem searchCandidates_mem {s s' : InMemoryStore R} {o : String} {t : Option String} {q : List R}
    {profile : EmbeddingProfile} {filters : SearchFilters R} {limit : Int}
    {cs : List (MemorySearchCandidate R)} {c : MemorySearchCandidate R}
    (h : (searchCandidates o t q profile filters limit).run s = .ok (cs, s')) (hc : c ∈ cs) :
    ∃ i m vector, s.memories.get? i = some m ∧ Matches s o t profile filters i m vector ∧
      c = { memory := m, similarity := shiftedSimilarity q vector, profile := profile } := by
  rw [searchCandidates_run] at h
  cases hall : collectCandidates s o t q profile filters s.memories.items with
  | error e =>
    rw [hall] at h
    cases h
  | ok all =>
    rw [hall] at h
    cases h
    have hmem : c ∈ all := (List.mem_insertionSort _).mp (List.mem_of_mem_take hc)
    obtain ⟨i, m, vector, hitem, hmatch, heq⟩ := collectCandidates_mem hall hmem
    exact ⟨i, m, vector, (Dict.mem_items_iff _ _ _).mp hitem, hmatch, heq⟩

/-! ## Search returns -/

/-- The contract of a configured provider: its profile is valid and it embeds the query in the
dimension of the profile. -/
structure MemoryApplicationService.Serves (svc : MemoryApplicationService R) (query : String) :
    Prop where
  descriptor : ∃ d, svc.embeddingProvider.profile.descriptor = .ok d
  embeds : ∃ q, svc.embeddingProvider.embed query true = .ok q ∧
    (q.length : Int) = svc.embeddingProvider.profile.dimension

theorem candidateOf_succeeds {s : InMemoryStore R} {profile : EmbeddingProfile}
    {d : EmbeddingDescriptor} (hd : profile.descriptor = .ok d) {i : UUID}
    (hvec : s.vectors.contains i = true) (o : String) (t : Option String) (q : List R)
    (filters : SearchFilters R) (m : Memory R) :
    ∃ r, candidateOf s o t q profile filters i m = .ok r := by
  obtain ⟨vector, hvector⟩ := (Dict.contains_iff _ _).mp hvec
  unfold candidateOf
  rw [hvector, hd]
  dsimp only
  repeat' split
  -- every branch but the last returns outright
  all_goals first
    | exact ⟨_, rfl⟩
    | skip
  rename_i descriptor _
  by_cases hne : descriptor ≠ d
  · exact ⟨none, if_pos hne⟩
  · exact ⟨_, if_neg hne⟩

/-- The reason that `search` gives for an item. -/
def searchReason (candidate : MemorySearchCandidate R) : String :=
  "semantic similarity " ++ Python.fixed2 (clampedSimilarity candidate) ++ "; importance " ++
    Python.fixed2 candidate.memory.importance ++ "; confidence " ++
    Python.fixed2 candidate.memory.confidence

/-- The threshold of `search` is compared with the similarity before it is rounded. -/
def reaches (threshold : R) (candidate : MemorySearchCandidate R) : Bool :=
  !Python.lt (clampedSimilarity candidate) threshold

/-- The item that `search` makes of a candidate. -/
def searchedItem (profile : EmbeddingProfile) (candidate : MemorySearchCandidate R) :
    SearchMemoryItem R :=
  rankedItem profile (searchReason candidate) candidate

/-- The ranking loop of `search`, for candidates of one profile: the items of those that reach the
threshold. -/
theorem rankSearch_eq {profile : EmbeddingProfile} (threshold : R)
    {cs : List (MemorySearchCandidate R)} (hcs : ∀ c ∈ cs, c.profile = profile) :
    rankSearch profile threshold cs
      = .ok ((cs.filter (reaches threshold)).map (searchedItem profile)) := by
  induction cs with
  | nil => rfl
  | cons c rest ih =>
    obtain ⟨hc, hrest⟩ := List.forall_mem_cons.mp hcs
    have hraise : (raiseIf (decide (c.profile ≠ profile)) (.omp .embeddingProfileMismatchError
        "candidate uses an incompatible embedding profile") : Except PyError Unit) = .ok () :=
      raiseIf_except_ok.mpr (by simpa using hc)
    unfold rankSearch
    rw [hraise, ih hrest, List.filter_cons]
    unfold reaches
    cases Python.lt (clampedSimilarity c) threshold <;> rfl

/-- Candidates of the profile can be ranked, and every ranked item is one of them. -/
theorem rankSearch_candidates {s s' : InMemoryStore R} {o : String} {t : Option String} {q : List R}
    {profile : EmbeddingProfile} {filters : SearchFilters R} {limit : Int}
    {cs : List (MemorySearchCandidate R)}
    (h : (searchCandidates o t q profile filters limit).run s = .ok (cs, s')) (threshold : R) :
    ∃ ranked, rankSearch profile threshold cs = .ok ranked ∧ ∀ item ∈ ranked,
      ∃ candidate i vector, item = rankedItem profile (searchReason candidate) candidate ∧
        s.memories.get? i = some candidate.memory ∧
        Matches s o t profile filters i candidate.memory vector := by
  have hprofile : ∀ candidate ∈ cs, candidate.profile = profile := by
    intro candidate hcandidate
    obtain ⟨_, _, _, -, -, rfl⟩ := searchCandidates_mem h hcandidate
    rfl
  refine ⟨_, rankSearch_eq threshold hprofile, fun item hitem => ?_⟩
  obtain ⟨candidate, hcandidate, rfl⟩ := List.mem_map.mp hitem
  obtain ⟨i, m, vector, hget, hmatch, heq⟩ :=
    searchCandidates_mem h (List.mem_of_mem_filter hcandidate)
  obtain rfl : candidate.memory = m := by rw [heq]
  exact ⟨candidate, i, vector, rfl, hget, hmatch⟩

theorem mem_topRanked {items : List (SearchMemoryItem R)} {limit : Int}
    {item : SearchMemoryItem R} (h : item ∈ topRanked items limit) : item ∈ items :=
  (List.mem_insertionSort _).mp (List.mem_of_mem_take h)

theorem length_topRanked_le (items : List (SearchMemoryItem R)) {limit : Int} (h : 1 ≤ limit) :
    ((topRanked items limit).length : Int) ≤ limit := by
  unfold topRanked
  rw [List.length_take]
  omega

/-- The checks that `search` makes on its command. -/
structure ValidSearch (c : SearchMemoryCommand R) : Prop where
  owner : ∃ o, validateOwnerId c.ownerId = .ok o
  query : isBlank c.query = false
  limit : 1 ≤ c.limit ∧ c.limit ≤ 100
  candidateLimit : 1 ≤ c.candidateLimit ∧ c.candidateLimit ≤ 500
  threshold : Python.inUnit c.threshold = true

/-- What a search that returns has found: stored memories that pass the filters, no more than the
limit. -/
theorem search_ok {svc : MemoryApplicationService R} {c : SearchMemoryCommand R}
    {r : SearchMemoryResult R} {s s' : InMemoryStore R}
    (h : (svc.search (inMemoryUnitOfWork R) c).run s = .ok (r, s')) :
    (r.items.length : Int) ≤ c.limit ∧
      ∀ item ∈ r.items, ∃ i vector, s.memories.get? i = some item.memory ∧
        Matches s c.ownerId none svc.embeddingProvider.profile
          { c.filters with states := searchStates c.filters.states } i item.memory vector := by
  unfold search at h
  -- the checks raise nothing, and change nothing
  obtain ⟨_, _, howner, h₁⟩ := Txn.bind_ok.mp h
  obtain ⟨-, rfl⟩ := Txn.ofExcept_ok.mp howner
  obtain ⟨_, _, hquery, h₂⟩ := Txn.bind_ok.mp h₁
  obtain ⟨-, rfl⟩ := raiseIf_ok.mp hquery
  obtain ⟨_, _, hrange, h₃⟩ := Txn.bind_ok.mp h₂
  obtain ⟨hlimit, rfl⟩ := raiseIf_ok.mp hrange
  obtain ⟨_, _, hcandidates, h₄⟩ := Txn.bind_ok.mp h₃
  obtain ⟨-, rfl⟩ := raiseIf_ok.mp hcandidates
  obtain ⟨_, _, hthreshold, h₅⟩ := Txn.bind_ok.mp h₄
  obtain ⟨-, rfl⟩ := raiseIf_ok.mp hthreshold
  obtain ⟨q, _, hembed, h₆⟩ := Txn.bind_ok.mp h₅
  obtain ⟨-, -, rfl⟩ := embedChecked_ok hembed
  obtain ⟨cs, _, hcs, h₇⟩ := Txn.bind_ok.mp h₆
  obtain ⟨ranked, _, hrank, h₈⟩ := Txn.bind_ok.mp h₇
  obtain ⟨hranked, rfl⟩ := Txn.ofExcept_ok.mp hrank
  obtain ⟨rfl, rfl⟩ := Txn.pure_ok.mp h₈
  obtain ⟨ranked', hranked', hitems⟩ := rankSearch_candidates hcs c.threshold
  obtain rfl : ranked = ranked' := Except.ok.inj (hranked.symm.trans hranked')
  constructor
  · have hpositive : 1 ≤ c.limit ∧ c.limit ≤ 100 := by simpa using hlimit
    exact length_topRanked_le ranked hpositive.1
  · intro item hitem
    obtain ⟨candidate, i, vector, rfl, hget, hmatch⟩ := hitems item (mem_topRanked hitem)
    exact ⟨i, vector, hget, hmatch⟩

end OpenMemory
