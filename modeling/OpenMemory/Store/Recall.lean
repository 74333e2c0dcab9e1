import OpenMemory.Store.Search

/-!
# Spaces and recall

Where the memories that `recall` returns come from. The guarantee is spread over
three functions: the normalisation of the requested spaces, `SpacePolicy.allows`, and
the repository filter, in which a null space means *no filter*.

The last two meanings of null collide. A command without context space and without
included spaces asks for `(None,)`, which reads as "memories without a space" and is
searched as "memories of any space". Every other accepted command is isolated
(`recall_isolated_iff`).

Mental notes have a gate of their own, `allow_mental_notes_cross_space`, which no code
reads: `recall_notes_iff` says for which commands they stay in their space.
-/

namespace OpenMemory

open Lib MemoryApplicationService InMemoryMemoryRepository

variable {R : Type} [Python R]

/-! ## Recall -/

/-- A candidate that the ranking loop of `recall` lets through. -/
def Ranked (c : RecallMemoryCommand R) (candidate : MemorySearchCandidate R) : Prop :=
  (candidate.memory.memoryType = .mentalNote → c.allowMentalNotes = true) ∧
    Python.lt (clampedSimilarity candidate) c.threshold = false

theorem rankRecall_mem {profile : EmbeddingProfile} {c : RecallMemoryCommand R} {seen : List UUID}
    {cs : List (MemorySearchCandidate R)} {item : SearchMemoryItem R}
    (h : item ∈ rankRecall profile c seen cs) :
    ∃ candidate ∈ cs, item.memory = candidate.memory ∧ Ranked c candidate := by
  induction cs generalizing seen with
  | nil => cases h
  | cons candidate rest ih =>
    unfold rankRecall at h
    split at h
    · obtain ⟨candidate', hmem, hrest⟩ := ih h
      exact ⟨candidate', List.mem_cons_of_mem _ hmem, hrest⟩
    · rename_i hskip
      split at h
      · obtain ⟨candidate', hmem, hrest⟩ := ih h
        exact ⟨candidate', List.mem_cons_of_mem _ hmem, hrest⟩
      · rename_i hlow
        rcases List.mem_cons.mp h with rfl | h
        · refine ⟨candidate, List.mem_cons_self, rfl, ?_, by simpa using hlow⟩
          intro hnote
          by_contra hallow
          exact hskip (.inr ⟨hnote, by simpa using hallow⟩)
        · obtain ⟨candidate', hmem, hrest⟩ := ih h
          exact ⟨candidate', List.mem_cons_of_mem _ hmem, hrest⟩

/-- The filters `recall` searches one space with. -/
def recallFilters (c : RecallMemoryCommand R) (space : Option String) : SearchFilters R :=
  { states := c.states, memoryTypes := c.memoryTypes, space := space }

theorem recallCandidates_mem {svc : MemoryApplicationService R} {c : RecallMemoryCommand R}
    {q : List R} {spaces : List (Option String)} {s s' : InMemoryStore R}
    {cs : List (MemorySearchCandidate R)} {candidate : MemorySearchCandidate R}
    (h : (svc.recallCandidates (inMemoryUnitOfWork R) c q spaces).run s = .ok (cs, s'))
    (hc : candidate ∈ cs) :
    ∃ space ∈ spaces, ∃ i m vector, s.memories.get? i = some m ∧
      Matches s c.ownerId (some c.tenantId) svc.embeddingProvider.profile (recallFilters c space)
        i m vector ∧
      candidate = { memory := m, similarity := shiftedSimilarity q vector,
                    profile := svc.embeddingProvider.profile } := by
  induction spaces generalizing cs s' with
  | nil =>
    obtain ⟨rfl, -⟩ := Txn.pure_ok.mp h
    cases hc
  | cons space rest ih =>
    simp only [recallCandidates, Txn.bind_ok, Txn.pure_ok] at h
    obtain ⟨here, s₁, hhere, more, s₂, hmore, rfl, rfl⟩ := h
    obtain rfl := readOnly_searchCandidates _ _ _ _ _ _ _ _ _ hhere
    rcases List.mem_append.mp hc with hc | hc
    · exact ⟨space, List.mem_cons_self, searchCandidates_mem hhere hc⟩
    · obtain ⟨space', hmem, hrest⟩ := ih hmore hc
      exact ⟨space', List.mem_cons_of_mem _ hmem, hrest⟩

/-- What `recall` has checked before it reads the store, and the query vector. -/
structure Accepted (svc : MemoryApplicationService R) (c : RecallMemoryCommand R) (q : List R) :
    Prop where
  valid : (validateRecall c : Except PyError Unit) = .ok ()
  embedded : svc.embeddingProvider.embed c.query true = .ok q
  dimension : (q.length : Int) = svc.embeddingProvider.profile.dimension

/-- The checks do not read the store. -/
theorem recall_ok {svc : MemoryApplicationService R} {c : RecallMemoryCommand R}
    {r : RecallResult R} {s s' : InMemoryStore R}
    (h : (svc.recall (inMemoryUnitOfWork R) c).run s = .ok (r, s')) :
    ∃ q cs, Accepted svc c q ∧
      (svc.recallCandidates (inMemoryUnitOfWork R) c q (requestedSpaces c)).run s = .ok (cs, s') ∧
      r.items = topRanked (rankRecall svc.embeddingProvider.profile c [] cs) c.limit := by
  simp only [«recall», Txn.bind_ok, Txn.pure_ok] at h
  obtain ⟨_, s₁, hval, q, s₂, hembed, cs, s₃, hcs, rfl, rfl⟩ := h
  rw [stateless_validateRecall] at hval
  cases hv : (validateRecall c : Except PyError Unit) with
  | error e =>
    rw [hv] at hval
    cases hval
  | ok u =>
    rw [hv] at hval
    cases hval
    obtain ⟨hq, hdim, rfl⟩ := embedChecked_ok hembed
    exact ⟨q, cs, ⟨hv, hq, hdim⟩, hcs, rfl⟩

/-- Where a recalled memory may live: in the context space (in no space, without one), or
in an included space that the policy allows. -/
def Isolated (c : RecallMemoryCommand R) (space : Option String) : Prop :=
  space = c.contextSpace ∨
    ∃ name ∈ c.includeSpaces, space = some name ∧
      c.spacePolicy.allows (some name) c.contextSpace = true

/-- A memory and a vector that the filters of the command itself let through. -/
structure Selects (svc : MemoryApplicationService R) (c : RecallMemoryCommand R) (q : List R)
    (m : Memory R) (vector : List R) : Prop where
  owner : m.ownerId = c.ownerId
  tenant : m.tenantId = some c.tenantId
  state : m.state ∈ c.states
  memoryType : ∀ types, c.memoryTypes = some types → types ≠ ∅ → m.memoryType ∈ types
  mentalNote : m.memoryType = .mentalNote → c.allowMentalNotes = true
  descriptor : ∃ d, m.embedding = some d ∧ svc.embeddingProvider.profile.descriptor = .ok d
  similar : Python.lt (Python.max (Python.ofInt 0)
    (Python.min (Python.ofInt 1) (shiftedSimilarity q vector))) c.threshold = false

/-- The spaces an accepted command searches pass the policy. -/
theorem requestedSpaces_allowed {c : RecallMemoryCommand R} {space : Option String}
    (hvalid : (validateRecall c : Except PyError Unit) = .ok ())
    (hspace : space ∈ requestedSpaces c) :
    space = c.contextSpace ∨ c.spacePolicy.allows space c.contextSpace = true := by
  simp only [validateRecall, except_bind_ok, raiseIf_except_ok] at hvalid
  obtain ⟨_, -, _, -, _, -, _, -, _, -, _, -, _, -, hpolicy⟩ := hvalid
  have hone := (List.any_eq_false.mp hpolicy) space hspace
  by_cases heq : space = c.contextSpace
  · exact .inl heq
  · exact .inr (by simpa [heq] using hone)

omit [Python R] in
theorem requestedSpaces_of_include {c : RecallMemoryCommand R} (h : c.includeSpaces ≠ []) :
    requestedSpaces c = c.includeSpaces.map some := by
  unfold requestedSpaces
  simp [h]

omit [Python R] in
theorem requestedSpaces_of_context {c : RecallMemoryCommand R} (h : c.includeSpaces = []) :
    requestedSpaces c = [c.contextSpace] := by
  unfold requestedSpaces
  cases c.contextSpace <;> simp [h]

/-- Everything a search of one *named* space returns is isolated. -/
theorem isolated_of_named {c : RecallMemoryCommand R} {name : String}
    (hvalid : (validateRecall c : Except PyError Unit) = .ok ())
    (hspace : some name ∈ requestedSpaces c) : Isolated c (some name) := by
  rcases requestedSpaces_allowed hvalid hspace with heq | hallows
  · exact .inl heq
  · by_cases hinc : c.includeSpaces = []
    · rw [requestedSpaces_of_context hinc, List.mem_singleton] at hspace
      exact .inl hspace
    · rw [requestedSpaces_of_include hinc] at hspace
      obtain ⟨name', hmem, heq⟩ := List.mem_map.mp hspace
      cases heq
      exact .inr ⟨name, hmem, rfl, hallows⟩

omit [Python R] in
/-- The one search without a space filter comes from the command that names no space. -/
theorem unnamed_of_mem {c : RecallMemoryCommand R} (hspace : none ∈ requestedSpaces c) :
    c.contextSpace = none ∧ c.includeSpaces = [] := by
  by_cases hinc : c.includeSpaces = []
  · rw [requestedSpaces_of_context hinc, List.mem_singleton] at hspace
    exact ⟨hspace.symm, hinc⟩
  · rw [requestedSpaces_of_include hinc] at hspace
    simp at hspace

/-- Every returned item passes the filters of the command and was found by one of its
searches. -/
theorem recall_selected {svc : MemoryApplicationService R} {c : RecallMemoryCommand R}
    {r : RecallResult R} {s s' : InMemoryStore R} {item : SearchMemoryItem R}
    (h : (svc.recall (inMemoryUnitOfWork R) c).run s = .ok (r, s')) (hitem : item ∈ r.items) :
    ∃ q vector, Accepted svc c q ∧ Selects svc c q item.memory vector ∧
      ∃ space ∈ requestedSpaces c, space = none ∨ item.memory.space = space := by
  obtain ⟨q, cs, hacc, hcs, hitems⟩ := recall_ok h
  rw [hitems] at hitem
  obtain ⟨candidate, hcand, hmem, hranked⟩ := rankRecall_mem (mem_topRanked hitem)
  obtain ⟨space, hspace, i, m, vector, -, hmatch, rfl⟩ := recallCandidates_mem hcs hcand
  rw [hmem]
  refine ⟨q, vector, hacc, ?_, space, hspace, ?_⟩
  · exact ⟨hmatch.owner, hmatch.tenant rfl, hmatch.state, hmatch.memoryType, hranked.1,
      hmatch.descriptor, hranked.2⟩
  · cases space with
    | none => exact .inl rfl
    | some name => exact .inr (hmatch.space rfl)

/-- Every returned item is isolated, or has a space that nobody asked for and passes the
filters of the command. -/
theorem recall_item {svc : MemoryApplicationService R} {c : RecallMemoryCommand R}
    {r : RecallResult R} {s s' : InMemoryStore R} {item : SearchMemoryItem R}
    (h : (svc.recall (inMemoryUnitOfWork R) c).run s = .ok (r, s')) (hitem : item ∈ r.items) :
    Isolated c item.memory.space ∨
      (c.contextSpace = none ∧ c.includeSpaces = [] ∧ ∃ q vector, Accepted svc c q ∧
        Selects svc c q item.memory vector) := by
  obtain ⟨q, vector, hacc, hsel, space, hspace, hfound⟩ := recall_selected h hitem
  cases space with
  | some name =>
    rw [hfound.resolve_left (by simp)]
    exact .inl (isolated_of_named hacc.valid hspace)
  | none =>
    obtain ⟨hctx, hinc⟩ := unnamed_of_mem hspace
    exact .inr ⟨hctx, hinc, q, vector, hacc, hsel⟩

/-! ## A store with one memory -/

theorem take_sorted_singleton {α : Type} (r : α → α → Prop) [DecidableRel r] (a : α) {limit : Int}
    (h : 1 ≤ limit) : (List.insertionSort r [a]).take limit.toNat = [a] := by
  rw [List.take_of_length_le]
  · simp
  · simp
    omega

/-- The store that holds one memory with its vector. -/
def holding (m : Memory R) (vector : List R) : InMemoryStore R where
  memories := (∅ : Dict UUID (Memory R)).set m.id m
  vectors := (∅ : Dict UUID (List R)).set m.id vector

/-- The candidate that its memory makes for a query. -/
def heldCandidate (svc : MemoryApplicationService R) (q : List R) (m : Memory R)
    (vector : List R) : MemorySearchCandidate R where
  memory := m
  similarity := shiftedSimilarity q vector
  profile := svc.embeddingProvider.profile

section Holding

variable {svc : MemoryApplicationService R} {c : RecallMemoryCommand R} {q : List R}
  {m : Memory R} {vector : List R}

theorem Accepted.limits (hacc : Accepted svc c q) :
    (1 ≤ c.limit ∧ c.limit ≤ 100) ∧ 1 ≤ c.candidateLimit ∧ c.candidateLimit ≤ 500 := by
  have hvalid := hacc.valid
  simp only [validateRecall, except_bind_ok, raiseIf_except_ok] at hvalid
  obtain ⟨_, -, _, -, _, -, _, -, _, -, _, hlimits, _, -, -⟩ := hvalid
  simpa only [Bool.or_eq_false_iff, Bool.not_eq_false', decide_eq_true_eq] using hlimits

/-- A search of no space in particular, or of the memory's space, finds the memory. -/
theorem searchCandidates_held (hacc : Accepted svc c q) (hsel : Selects svc c q m vector)
    {space : Option String} (hspace : space = none ∨ space = m.space) :
    (searchCandidates c.ownerId (some c.tenantId) q svc.embeddingProvider.profile
      (recallFilters c space) c.candidateLimit).run (holding m vector)
      = .ok ([heldCandidate svc q m vector], holding m vector) := by
  have hfilter : (recallFilters c space).space.isSome → m.space = (recallFilters c space).space := by
    intro hsome
    rcases hspace with rfl | rfl
    · cases hsome
    · rfl
  have hmatch : Matches (holding m vector) c.ownerId (some c.tenantId)
      svc.embeddingProvider.profile (recallFilters c space) m.id m vector :=
    ⟨hsel.owner, fun _ => hsel.tenant, hsel.state, hsel.memoryType, hfilter,
      fun _ h => (by cases h), fun _ h => (by cases h), hsel.descriptor,
      Dict.get?_set_self _ _ _⟩
  have hall : collectCandidates (holding m vector) c.ownerId (some c.tenantId) q
      svc.embeddingProvider.profile (recallFilters c space) (holding m vector).memories.items
        = .ok [heldCandidate svc q m vector] := by
    show collectCandidates (holding m vector) _ _ _ _ _ [(m.id, m)] = _
    simp only [collectCandidates, candidateOf_of_matches hmatch]
    rfl
  rw [searchCandidates_run, hall]
  show Except.ok (List.take _ (List.insertionSort _ [heldCandidate svc q m vector]), _) = _
  rw [take_sorted_singleton _ _ hacc.limits.2.1]

/-- A search of another space finds nothing. -/
theorem searchCandidates_elsewhere (hsel : Selects svc c q m vector) {name : String}
    (hspace : some name ≠ m.space) :
    (searchCandidates c.ownerId (some c.tenantId) q svc.embeddingProvider.profile
      (recallFilters c (some name)) c.candidateLimit).run (holding m vector)
      = .ok ([], holding m vector) := by
  obtain ⟨d, -, hours⟩ := hsel.descriptor
  -- the one memory is in another space
  have hnone : candidateOf (holding m vector) c.ownerId (some c.tenantId) q
      svc.embeddingProvider.profile (recallFilters c (some name)) m.id m = .ok none := by
    have hvector : (holding m vector).vectors.contains m.id = true :=
      (Dict.contains_iff _ _).mpr ⟨vector, Dict.get?_set_self _ _ _⟩
    obtain ⟨found, hfound⟩ := candidateOf_succeeds hours hvector c.ownerId (some c.tenantId) q
      (recallFilters c (some name)) m
    rw [hfound]
    cases found with
    | none => rfl
    | some candidate =>
      obtain ⟨_, hmatch, -⟩ := candidateOf_ok hfound
      exact absurd (hmatch.space rfl).symm hspace
  have hall : collectCandidates (holding m vector) c.ownerId (some c.tenantId) q
      svc.embeddingProvider.profile (recallFilters c (some name))
        (holding m vector).memories.items = .ok [] := by
    show collectCandidates (holding m vector) _ _ _ _ _ [(m.id, m)] = _
    simp only [collectCandidates, hnone]
    rfl
  rw [searchCandidates_run, hall]
  show Except.ok (List.take _ (List.insertionSort _ []), _) = _
  rw [List.insertionSort_nil, List.take_nil]

/-- The searches of a list of spaces find copies of the memory, at least one if one of them
covers it. -/
theorem recallCandidates_held (hacc : Accepted svc c q) (hsel : Selects svc c q m vector)
    (spaces : List (Option String)) :
    ∃ cs, (svc.recallCandidates (inMemoryUnitOfWork R) c q spaces).run (holding m vector)
        = .ok (cs, holding m vector) ∧ (∀ x ∈ cs, x = heldCandidate svc q m vector) ∧
      ((none ∈ spaces ∨ m.space ∈ spaces) → cs ≠ []) := by
  induction spaces with
  | nil => exact ⟨[], rfl, by simp, by simp⟩
  | cons space rest ih =>
    obtain ⟨more, hmore, hcopies, hsome⟩ := ih
    -- a space that covers the memory gives one copy of it
    by_cases hspace : space = none ∨ space = m.space
    · refine ⟨[heldCandidate svc q m vector] ++ more, ?_, ?_, by simp⟩
      · exact (Txn.run_bind_of_ok (searchCandidates_held hacc hsel hspace)).trans
          ((Txn.run_bind_of_ok hmore).trans rfl)
      · intro x hx
        rcases List.mem_append.mp hx with hx | hx
        · exact List.mem_singleton.mp hx
        · exact hcopies x hx
    -- another one gives none
    · obtain ⟨hnone, hother⟩ := not_or.mp hspace
      obtain ⟨name, rfl⟩ := Option.ne_none_iff_exists'.mp hnone
      refine ⟨[] ++ more, ?_, hcopies, fun hcovered => hsome ?_⟩
      · exact (Txn.run_bind_of_ok (searchCandidates_elsewhere hsel hother)).trans
          ((Txn.run_bind_of_ok hmore).trans rfl)
      · rcases hcovered with hmem | hmem
        · exact .inl ((List.mem_cons.mp hmem).resolve_left (by simp))
        · exact .inr ((List.mem_cons.mp hmem).resolve_left fun h => hother h.symm)

/-- Copies of a memory that was seen are skipped. -/
theorem rankRecall_seen {profile : EmbeddingProfile} {seen : List UUID}
    {cs : List (MemorySearchCandidate R)} (hseen : m.id ∈ seen)
    (hcopies : ∀ x ∈ cs, x = heldCandidate svc q m vector) :
    rankRecall profile c seen cs = [] := by
  induction cs with
  | nil => rfl
  | cons x rest ih =>
    obtain ⟨rfl, hrest⟩ := List.forall_mem_cons.mp hcopies
    unfold rankRecall
    rw [if_pos (.inl hseen)]
    exact ih hrest

/-- A command returns any memory that its filters let through and one of its searches
covers. -/
theorem recall_holding (hacc : Accepted svc c q) (hsel : Selects svc c q m vector)
    (hcovered : none ∈ requestedSpaces c ∨ m.space ∈ requestedSpaces c) :
    ∃ r, (svc.recall (inMemoryUnitOfWork R) c).run (holding m vector) = .ok (r, holding m vector) ∧
      ∃ item ∈ r.items, item.memory = m := by
  obtain ⟨cs, hcs, hcopies, hsome⟩ := recallCandidates_held hacc hsel (requestedSpaces c)
  obtain ⟨x, rest, rfl⟩ := List.exists_cons_of_ne_nil (hsome hcovered)
  obtain ⟨rfl, hrest⟩ := List.forall_mem_cons.mp hcopies
  let profile := svc.embeddingProvider.profile
  let reason := if m.space ≠ c.contextSpace then "explicit_cross_space_semantic_match"
    else "same_space_semantic_match"
  -- copies are skipped, so one item is ranked
  have hranked : rankRecall profile c [] (heldCandidate svc q m vector :: rest)
      = [rankedItem profile reason (heldCandidate svc q m vector)] := by
    have hskip : ¬((heldCandidate svc q m vector).memory.id ∈ ([] : List UUID) ∨
        ((heldCandidate svc q m vector).memory.memoryType = .mentalNote ∧
          c.allowMentalNotes = false)) := by
      rintro (hnil | ⟨hnote, hallow⟩)
      · cases hnil
      · rw [hsel.mentalNote hnote] at hallow
        cases hallow
    have hlow : ¬Python.lt (clampedSimilarity (heldCandidate svc q m vector)) c.threshold
        = true := by
      have hsimilar := hsel.similar
      simpa [clampedSimilarity, heldCandidate] using hsimilar
    have hseen : rankRecall profile c [(heldCandidate svc q m vector).memory.id] rest = [] :=
      rankRecall_seen List.mem_cons_self hrest
    simp only [rankRecall, if_neg hskip, if_neg hlow, hseen]
    rfl
  let items := topRanked (rankRecall profile c [] (heldCandidate svc q m vector :: rest)) c.limit
  -- the recall accepts its command and embeds the query
  have hrun : (svc.recall (inMemoryUnitOfWork R) c).run (holding m vector)
      = .ok ({ items := items, count := items.length, profileId := profile.id,
               profileVersion := profile.version }, holding m vector) := by
    unfold «recall»
    have hvalid : (validateRecall c : StoreTxn R Unit).run (holding m vector)
        = .ok ((), holding m vector) := by
      rw [stateless_validateRecall, hacc.valid]
      rfl
    rw [Txn.run_bind_of_ok hvalid,
      Txn.run_bind_of_ok (embedChecked_run hacc.embedded hacc.dimension _)]
    exact (Txn.run_bind_of_ok hcs).trans rfl
  refine ⟨_, hrun, rankedItem profile reason (heldCandidate svc q m vector), ?_, rfl⟩
  show _ ∈ topRanked (rankRecall profile c [] (heldCandidate svc q m vector :: rest)) c.limit
  rw [hranked]
  unfold topRanked
  rw [take_sorted_singleton _ _ hacc.limits.1.1]
  exact List.mem_singleton_self _

end Holding

/-- An accepted command recalls from the spaces it may, on every store, if and only if it
names a space or its own filters let no memory with a space through at all. -/
theorem recall_isolated_iff {svc : MemoryApplicationService R} {c : RecallMemoryCommand R}
    (haccepts : ∃ r s s', (svc.recall (inMemoryUnitOfWork R) c).run s = .ok (r, s')) :
    (∀ r s s', (svc.recall (inMemoryUnitOfWork R) c).run s = .ok (r, s') →
      ∀ item ∈ r.items, Isolated c item.memory.space) ↔
    (c.contextSpace ≠ none ∨ c.includeSpaces ≠ [] ∨
      ∀ q m vector, svc.embeddingProvider.embed c.query true = .ok q → m.space ≠ none →
        ¬Selects svc c q m vector) := by
  constructor
  -- a memory that the filters select would be recalled from everywhere
  · intro hall
    by_contra hcond
    simp only [not_or, not_not, not_forall] at hcond
    obtain ⟨hctx, hinc, q, m, vector, hq, hspace, hsel⟩ := hcond
    obtain ⟨r₀, s₀, s₀', h₀⟩ := haccepts
    obtain ⟨q₀, cs, hacc, -, -⟩ := recall_ok h₀
    obtain rfl : q₀ = q := Except.ok.inj (hacc.embedded.symm.trans hq)
    have hnone : none ∈ requestedSpaces c := by
      rw [requestedSpaces_of_context hinc, hctx]
      exact List.mem_singleton_self _
    obtain ⟨r, hrun, item, hitem, rfl⟩ := recall_holding hacc hsel (.inl hnone)
    rcases hall r _ _ hrun item hitem with heq | ⟨name, hmem, -⟩
    · exact hspace (heq.trans hctx)
    · rw [hinc] at hmem
      cases hmem
  -- without a context and listed spaces, nothing outside of them is selected
  · intro hcond r s s' h item hitem
    rcases recall_item h hitem with hiso | ⟨hctx, hinc, q, vector, hacc, hsel⟩
    · exact hiso
    · rcases hcond with hne | hne | hnone
      · exact absurd hctx hne
      · exact absurd hinc hne
      · by_cases hspace : item.memory.space = none
        · exact .inl (hspace.trans hctx.symm)
        · exact absurd hsel (hnone q item.memory vector hacc.embedded hspace)

/-- A query of `alice` through a connection of `acme`, in the given context space. -/
def recallTea (contextSpace : Option String) : RecallMemoryCommand ℚ where
  tenantId := "acme"
  ownerId := "alice"
  query := "tea"
  contextSpace := contextSpace
  threshold := 0

/-- A confirmed note of `alice` in the space `work`. -/
def workNote : Memory ℚ where
  id := ⟨7⟩
  ownerId := "alice"
  content := "tea at five"
  memoryType := .fact
  importance := 1 / 2
  confidence := 1 / 2
  state := .confirmed
  version := 1
  createdAt := day2026 1
  updatedAt := day2026 1
  occurredAt := none
  space := some "work"
  provenance := sentByClient
  embedding := some hashDescriptor
  tenantId := some "acme"
  checked := by decide +kernel

theorem recall_isolated_iff_work :
    (((serviceOn 2 8).recall (inMemoryUnitOfWork ℚ) (recallTea (some "work"))).attempt
      (holding workNote [1])).1.map RecallResult.count = .ok 1 ∧
    ∀ r s s', ((serviceOn 2 8).recall (inMemoryUnitOfWork ℚ) (recallTea (some "work"))).run s
      = .ok (r, s') → ∀ item ∈ r.items, Isolated (recallTea (some "work")) item.memory.space := by
  have hcount : (((serviceOn 2 8).recall (inMemoryUnitOfWork ℚ) (recallTea (some "work"))).attempt
      (holding workNote [1])).1.map RecallResult.count = .ok 1 := by
    decide +kernel
  obtain ⟨r, hrun, -⟩ := Txn.run_of_attempt_map hcount
  exact ⟨hcount, (recall_isolated_iff ⟨r, _, _, hrun⟩).mpr (.inl nofun)⟩

/-- Without a context space the note in `work` is recalled. -/
theorem recall_crosses_spaces :
    ¬∀ (svc : MemoryApplicationService ℚ) (c : RecallMemoryCommand ℚ) (r : RecallResult ℚ)
      (s s' : InMemoryStore ℚ), (svc.recall (inMemoryUnitOfWork ℚ) c).run s = .ok (r, s') →
      ∀ item ∈ r.items, Isolated c item.memory.space := by
  intro hclaim
  obtain ⟨r, hrun, hspaces⟩ := Txn.run_of_attempt_map
    (x := (serviceOn 2 8).recall (inMemoryUnitOfWork ℚ) (recallTea none))
    (s := holding workNote [1]) (f := fun r => r.items.map fun item => item.memory.space)
    (b := [some "work"]) (by decide +kernel)
  have hall : ∀ space ∈ r.items.map fun item => item.memory.space,
      Isolated (recallTea none) space := by
    intro space hmem
    obtain ⟨item, hitem, rfl⟩ := List.mem_map.mp hmem
    exact hclaim _ _ r _ _ hrun item hitem
  rw [hspaces] at hall
  rcases hall (some "work") (List.mem_singleton_self _) with heq | ⟨name, hmem, -⟩
  · cases heq
  · cases hmem

/-! ## Mental notes -/

/-- Where a recalled mental note may live: in the context space, or in an included space
that the policy allows, if it lets notes cross spaces at all. -/
def NoteAllowed (c : RecallMemoryCommand R) (space : Option String) : Prop :=
  space = c.contextSpace ∨
    ∃ name ∈ c.includeSpaces, space = some name ∧
      c.spacePolicy.allows (some name) c.contextSpace = true ∧
      c.spacePolicy.allowMentalNotesCrossSpace = true

/-- The command searches the space although a mental note has no business there: it names
no space and searches all of them, or it includes another space than its context and its
policy keeps notes in theirs. -/
def Strays (c : RecallMemoryCommand R) (space : Option String) : Prop :=
  (c.contextSpace = none ∧ c.includeSpaces = [] ∧ space ≠ none) ∨
    ∃ name ∈ c.includeSpaces, space = some name ∧ some name ≠ c.contextSpace ∧
      c.spacePolicy.allowMentalNotesCrossSpace = false

omit [Python R] in
theorem not_noteAllowed_of_strays {c : RecallMemoryCommand R} {space : Option String}
    (h : Strays c space) : ¬NoteAllowed c space := by
  rintro (heq | ⟨name, hmem, -, -, hcross⟩)
  · rcases h with ⟨hctx, -, hne⟩ | ⟨name, -, rfl, hother, -⟩
    · exact hne (heq.trans hctx)
    · exact hother heq
  · rcases h with ⟨-, hinc, -⟩ | ⟨_, -, -, -, hkeep⟩
    · rw [hinc] at hmem
      cases hmem
    · rw [hcross] at hkeep
      cases hkeep

omit [Python R] in
theorem covered_of_strays {c : RecallMemoryCommand R} {space : Option String}
    (h : Strays c space) : none ∈ requestedSpaces c ∨ space ∈ requestedSpaces c := by
  rcases h with ⟨hctx, hinc, -⟩ | ⟨name, hmem, rfl, -, -⟩
  · rw [requestedSpaces_of_context hinc, hctx]
    exact .inl (List.mem_singleton_self _)
  · rw [requestedSpaces_of_include (List.ne_nil_of_mem hmem)]
    exact .inr (List.mem_map_of_mem hmem)

/-- An accepted command keeps mental notes in their space, on every store, if and only if
its own filters let no mental note of a space through that it searches aside. -/
theorem recall_notes_iff {svc : MemoryApplicationService R} {c : RecallMemoryCommand R}
    (haccepts : ∃ r s s', (svc.recall (inMemoryUnitOfWork R) c).run s = .ok (r, s')) :
    (∀ r s s', (svc.recall (inMemoryUnitOfWork R) c).run s = .ok (r, s') →
      ∀ item ∈ r.items, item.memory.memoryType = .mentalNote →
        NoteAllowed c item.memory.space) ↔
    ∀ q m vector, svc.embeddingProvider.embed c.query true = .ok q →
      m.memoryType = .mentalNote → Strays c m.space → ¬Selects svc c q m vector := by
  constructor
  · intro hall q m vector hq hnote hstrays hsel
    obtain ⟨r₀, s₀, s₀', h₀⟩ := haccepts
    obtain ⟨q₀, cs, hacc, -, -⟩ := recall_ok h₀
    obtain rfl : q₀ = q := Except.ok.inj (hacc.embedded.symm.trans hq)
    obtain ⟨r, hrun, item, hitem, rfl⟩ := recall_holding hacc hsel (covered_of_strays hstrays)
    exact not_noteAllowed_of_strays hstrays (hall r _ _ hrun item hitem hnote)
  · intro hcond r s s' h item hitem hnote
    obtain ⟨q, vector, hacc, hsel, space, hspace, hfound⟩ := recall_selected h hitem
    by_contra hallowed
    have hforeign : item.memory.space ≠ c.contextSpace := fun heq => hallowed (.inl heq)
    refine hcond q item.memory vector hacc.embedded hnote ?_ hsel
    cases space with
    | none =>
      obtain ⟨hctx, hinc⟩ := unnamed_of_mem hspace
      exact .inl ⟨hctx, hinc, fun hnone => hforeign (hnone.trans hctx.symm)⟩
    | some name =>
      have hname : item.memory.space = some name := hfound.resolve_left (by simp)
      rw [hname] at hforeign hallowed ⊢
      rcases isolated_of_named hacc.valid hspace with heq | ⟨name', hmem, heq, hallows⟩
      · exact absurd heq hforeign
      · cases heq
        refine .inr ⟨name, hmem, rfl, hforeign, ?_⟩
        -- were the flag set, the note would be allowed
        by_contra hcross
        exact hallowed (.inr ⟨name, hmem, rfl, hallows, by simpa using hcross⟩)

/-- `alice` captures a mental note in the space `home`. -/
def noteAtHome : Call ℚ where
  service := serviceOn 1 7
  request := .capture { captureCommand "acme" "alice" "tea at five" "k1" with
    memoryType := .mentalNote, space := some "home" }

/-- It is confirmed. -/
def confirmNoteAtHome : Call ℚ where
  service := serviceOn 2 8
  request := .confirmCandidate
    { tenantId := "acme", ownerId := "alice", memoryId := ⟨7⟩, expectedVersion := 1,
      idempotencyKey := "c1" }

/-- A query at work that includes `home`, which the policy allows, notes among the types. -/
def recallFromWork (crossSpace : Bool) : RecallMemoryCommand ℚ where
  tenantId := "acme"
  ownerId := "alice"
  query := "tea"
  contextSpace := some "work"
  includeSpaces := ["home"]
  allowMentalNotes := true
  threshold := 0
  spacePolicy :=
    { defaultRecall := "explicit_allowlist", allowedSpaces := {"home"},
      allowMentalNotesCrossSpace := crossSpace }

theorem recall_notes_iff_crossing :
    (((serviceOn 3 9).recall (inMemoryUnitOfWork ℚ) (recallFromWork true)).attempt
      (confirmNoteAtHome.attempt (noteAtHome.attempt {}).2).2).1.map RecallResult.count = .ok 1 ∧
    ∀ r s s', ((serviceOn 3 9).recall (inMemoryUnitOfWork ℚ) (recallFromWork true)).run s
      = .ok (r, s') → ∀ item ∈ r.items, item.memory.memoryType = .mentalNote →
        NoteAllowed (recallFromWork true) item.memory.space := by
  have hcount : (((serviceOn 3 9).recall (inMemoryUnitOfWork ℚ) (recallFromWork true)).attempt
      (confirmNoteAtHome.attempt (noteAtHome.attempt {}).2).2).1.map RecallResult.count
        = .ok 1 := by
    decide +kernel
  obtain ⟨r, hrun, -⟩ := Txn.run_of_attempt_map hcount
  refine ⟨hcount, (recall_notes_iff ⟨r, _, _, hrun⟩).mpr ?_⟩
  intro q m vector _ _ hstrays
  rcases hstrays with ⟨hctx, -⟩ | ⟨name, -, -, -, hkeep⟩
  · cases hctx
  · cases hkeep

/-- The flag of the policy is never read: with it off, the note from `home` is recalled at
work all the same. -/
theorem recall_note_crosses :
    ¬∀ (s s' : InMemoryStore ℚ) (svc : MemoryApplicationService ℚ) (c : RecallMemoryCommand ℚ)
      (r : RecallResult ℚ), (svc.recall (inMemoryUnitOfWork ℚ) c).run s = .ok (r, s') →
      ∀ item ∈ r.items, item.memory.memoryType = .mentalNote →
        NoteAllowed c item.memory.space := by
  intro hclaim
  obtain ⟨r, hrun, hitems⟩ := Txn.run_of_attempt_map
    (x := (serviceOn 3 9).recall (inMemoryUnitOfWork ℚ) (recallFromWork false))
    (s := (confirmNoteAtHome.attempt (noteAtHome.attempt {}).2).2)
    (f := fun r => r.items.map fun item => (item.memory.memoryType, item.memory.space))
    (b := [(MemoryType.mentalNote, some "home")]) (by decide +kernel)
  obtain ⟨item, hitem, hkind⟩ : ∃ item ∈ r.items,
      (item.memory.memoryType, item.memory.space) = (MemoryType.mentalNote, some "home") := by
    have hmem : (MemoryType.mentalNote, some "home") ∈
        r.items.map fun item => (item.memory.memoryType, item.memory.space) := by
      rw [hitems]
      exact List.mem_singleton_self _
    exact List.mem_map.mp hmem
  obtain ⟨hnote, hspace⟩ := Prod.mk.inj hkind
  rcases hclaim _ _ _ _ r hrun item hitem hnote with heq | ⟨_, -, -, -, hcross⟩
  · rw [hspace] at heq
    exact absurd heq (by decide)
  · cases hcross

end OpenMemory
