import OpenMemory.Application.Parametric
import OpenMemory.Lib.Sorting
import OpenMemory.Store.Recall

/-!
# Ranking

Candidates are cut off per space before they are merged, items are scored after rounding, and cut
off again. Both sorts break ties by the id, and both lists have distinct ids: so neither cut
depends on the order in which the store or the command lists things.

- `descThen_iff`: comparing a number downwards, then a tie-break. The two sort keys are of this
  form, hence total preorders that tell distinct ids apart.
- `SameContents`: two stores that differ in the order of their entries. `candidatesIn` lists the
  matches of a query, and `searchCandidates_alike` says that the cut of them is the same.
- `mem_rankRecall_iff`: what the deduplicating loop of `recall` returns, whatever the order.
- `ranking_independent` is the result.
-/

namespace OpenMemory

open Lib MemoryApplicationService InMemoryMemoryRepository InMemoryStore

variable {R : Type} [Python R]

/-! ## The sort keys -/

/-- Greater numbers first; equal ones as the tie-break says. -/
def descThen (x y : R) (tie : Bool) : Bool :=
  if Python.numEq x y then tie else Python.lt y x

/-- The first number is not smaller, and where they are equal the tie decides. -/
theorem descThen_iff {x y : R} {tie : Bool} :
    descThen x y tie = true ↔ Python.le y x = true ∧ (Python.le x y = true → tie = true) := by
  unfold descThen Python.numEq Python.lt
  by_cases hxy : Python.le x y = true
  · by_cases hyx : Python.le y x = true <;> simp [hxy, hyx]
  · have hyx := (Python.le_total x y).resolve_left hxy
    simp [hxy, hyx]

/-- Descending order with a total tie is total. -/
theorem descThen_total {x y : R} {t t' : Bool} (h : t = true ∨ t' = true) :
    descThen x y t = true ∨ descThen y x t' = true := by
  simp only [descThen_iff]
  by_cases hxy : Python.le x y = true
  · by_cases hyx : Python.le y x = true
    · exact h.imp (fun ht => ⟨hyx, fun _ => ht⟩) (fun ht => ⟨hxy, fun _ => ht⟩)
    · exact .inr ⟨hxy, fun hcon => absurd hcon hyx⟩
  · exact .inl ⟨(Python.le_total x y).resolve_left hxy, fun hcon => absurd hcon hxy⟩

/-- With a transitive tie it is transitive. -/
theorem descThen_trans {x y z : R} {t t' t'' : Bool} (ht : t = true → t' = true → t'' = true)
    (h : descThen x y t = true) (h' : descThen y z t' = true) : descThen x z t'' = true := by
  rw [descThen_iff] at h h' ⊢
  refine ⟨Python.le_trans _ _ _ h'.1 h.1, fun hxz => ht (h.2 ?_) (h'.2 ?_)⟩
  · exact Python.le_trans _ _ _ hxz h'.1
  · exact Python.le_trans _ _ _ h.1 hxz

/-- Entries that come before each other tie both ways. -/
theorem descThen_antisymm {x y : R} {t t' : Bool} (h : descThen x y t = true)
    (h' : descThen y x t' = true) : t = true ∧ t' = true := by
  rw [descThen_iff] at h h'
  exact ⟨h.2 h'.1, h'.2 h.1⟩

theorem str_total (i j : UUID) : decide (i.str ≤ j.str) = true ∨ decide (j.str ≤ i.str) = true := by
  simpa using le_total i.str j.str

theorem str_trans (i j k : UUID) (h : decide (i.str ≤ j.str) = true)
    (h' : decide (j.str ≤ k.str) = true) : decide (i.str ≤ k.str) = true := by
  simp only [decide_eq_true_eq] at h h' ⊢
  exact h.trans h'

/-- Ids with one text are one id. -/
theorem str_antisymm {i j : UUID} (h : decide (i.str ≤ j.str) = true)
    (h' : decide (j.str ≤ i.str) = true) : i = j := by
  simp only [decide_eq_true_eq] at h h'
  exact UUID.str_injective (le_antisymm h h')

/-- Candidates are in descending similarity, then in the order of their ids. -/
theorem candidateLe_eq (a b : MemorySearchCandidate R) : candidateLe a b
    = descThen a.similarity b.similarity (decide (a.memory.id.str ≤ b.memory.id.str)) := rfl

/-- Items are in descending score, then similarity, then in the order of their ids. -/
theorem rankLe_eq (a b : SearchMemoryItem R) : rankLe a b
    = descThen a.score b.score (descThen a.similarity b.similarity
        (decide (a.memory.id.str ≤ b.memory.id.str))) := rfl

instance candidateLe_total : Std.Total fun a b : MemorySearchCandidate R => candidateLe a b = true where
  total a b := by
    simp only [candidateLe_eq]
    exact descThen_total (str_total _ _)

instance candidateLe_trans :
    IsTrans (MemorySearchCandidate R) fun a b => candidateLe a b = true where
  trans a b c := by
    simp only [candidateLe_eq]
    exact descThen_trans (str_trans _ _ _)

instance rankLe_total : Std.Total fun a b : SearchMemoryItem R => rankLe a b = true where
  total a b := by
    simp only [rankLe_eq]
    exact descThen_total (descThen_total (str_total _ _))

instance rankLe_trans : IsTrans (SearchMemoryItem R) fun a b => rankLe a b = true where
  trans a b c := by
    simp only [rankLe_eq]
    exact descThen_trans (descThen_trans (str_trans _ _ _))

/-- Candidates that stand before each other are of one memory. -/
theorem candidateLe_antisymm {a b : MemorySearchCandidate R} (h : candidateLe a b = true)
    (h' : candidateLe b a = true) : a.memory.id = b.memory.id := by
  rw [candidateLe_eq] at h h'
  obtain ⟨hid, hid'⟩ := descThen_antisymm h h'
  exact str_antisymm hid hid'

/-- So are items. -/
theorem rankLe_antisymm {a b : SearchMemoryItem R} (h : rankLe a b = true)
    (h' : rankLe b a = true) : a.memory.id = b.memory.id := by
  rw [rankLe_eq] at h h'
  obtain ⟨hsim, hsim'⟩ := descThen_antisymm h h'
  obtain ⟨hid, hid'⟩ := descThen_antisymm hsim hsim'
  exact str_antisymm hid hid'

/-! ## Matches of a query -/

/-- The candidate that an entry of the store makes for a query. -/
def foundIn (s : InMemoryStore R) (o : String) (t : Option String) (q : List R)
    (profile : EmbeddingProfile) (filters : SearchFilters R) (e : UUID × Memory R) :
    Option (MemorySearchCandidate R) :=
  match candidateOf s o t q profile filters e.1 e.2 with
  | .ok found => found
  | .error _ => none

/-- All matches of a query, in the order of the store. -/
def candidatesIn (s : InMemoryStore R) (o : String) (t : Option String) (q : List R)
    (profile : EmbeddingProfile) (filters : SearchFilters R) : List (MemorySearchCandidate R) :=
  s.memories.items.filterMap (foundIn s o t q profile filters)

/-- The one exception that a search can meet: the profile describes no vector, or a vector is
missing. -/
def searchError (profile : EmbeddingProfile) : PyError :=
  match profile.descriptor with
  | .ok _ => .keyError
  | .error e => e

section Matches

variable {s s' : InMemoryStore R} {o : String} {t : Option String} {q : List R}
  {profile : EmbeddingProfile} {filters : SearchFilters R}

/-- What a stored memory is found as, where it matches. -/
theorem foundIn_eq_some {e : UUID × Memory R} {c : MemorySearchCandidate R}
    (h : foundIn s o t q profile filters e = some c) : ∃ vector,
      Matches s o t profile filters e.1 e.2 vector ∧
      c = { memory := e.2, similarity := shiftedSimilarity q vector, profile := profile } := by
  unfold foundIn at h
  cases hof : candidateOf s o t q profile filters e.1 e.2 with
  | error err =>
    rw [hof] at h
    cases h
  | ok found =>
    rw [hof] at h
    obtain rfl : found = some c := h
    exact candidateOf_ok hof

/-- The matches are the stored memories that pass the filters, each with its similarity. -/
theorem mem_candidatesIn_iff {c : MemorySearchCandidate R} :
    c ∈ candidatesIn s o t q profile filters ↔ ∃ i m vector, s.memories.get? i = some m ∧
      Matches s o t profile filters i m vector ∧
      c = { memory := m, similarity := shiftedSimilarity q vector, profile := profile } := by
  unfold candidatesIn
  rw [List.mem_filterMap]
  constructor
  · rintro ⟨⟨i, m⟩, hmem, hfound⟩
    obtain ⟨vector, hmatch, hc⟩ := foundIn_eq_some hfound
    exact ⟨i, m, vector, (Dict.mem_items_iff _ _ _).mp hmem, hmatch, hc⟩
  · rintro ⟨i, m, vector, hget, hmatch, rfl⟩
    refine ⟨(i, m), (Dict.mem_items_iff _ _ _).mpr hget, ?_⟩
    unfold foundIn
    rw [candidateOf_of_matches hmatch]

/-- A candidate carries the profile of the search. -/
theorem profile_of_mem_candidatesIn {c : MemorySearchCandidate R}
    (h : c ∈ candidatesIn s o t q profile filters) : c.profile = profile := by
  obtain ⟨_, _, _, -, -, rfl⟩ := mem_candidatesIn_iff.mp h
  rfl

/-- Whatever cannot be read ends the search with the same error. -/
theorem candidateOf_error {i : UUID} {m : Memory R} {err : PyError}
    (h : candidateOf s o t q profile filters i m = .error err) : err = searchError profile := by
  unfold candidateOf at h
  repeat' split at h
  all_goals first
    | cases h
    | skip
  -- what is left reads the descriptor, with a vector or without one
  all_goals
    unfold searchError
    cases hd : profile.descriptor with
    | error e =>
      rw [hd] at h
      cases h
      rfl
    | ok wanted =>
      rw [hd] at h
      replace h : (if _ ≠ wanted then _ else _) = _ := h
      split at h <;> cases h <;> rfl

/-- Where every memory can be read, the candidates are the ones that match. -/
theorem collectCandidates_ok {items : List (UUID × Memory R)}
    (h : ∀ e ∈ items, ∃ found, candidateOf s o t q profile filters e.1 e.2 = .ok found) :
    collectCandidates s o t q profile filters items
      = .ok (items.filterMap (foundIn s o t q profile filters)) := by
  induction items with
  | nil => rfl
  | cons e rest ih =>
    obtain ⟨⟨found, hfound⟩, hrest⟩ := List.forall_mem_cons.mp h
    have hin : foundIn s o t q profile filters e = found := by
      unfold foundIn
      rw [hfound]
    refine except_bind_ok.mpr ⟨found, hfound, except_bind_ok.mpr ⟨_, ih hrest, ?_⟩⟩
    rw [except_pure_ok, List.filterMap_cons, hin]
    cases found <;> rfl

/-- Where one cannot, the search fails, whichever it is. -/
theorem collectCandidates_error {items : List (UUID × Memory R)}
    (h : ¬∀ e ∈ items, ∃ found, candidateOf s o t q profile filters e.1 e.2 = .ok found) :
    collectCandidates s o t q profile filters items = .error (searchError profile) := by
  induction items with
  | nil => simp at h
  | cons e rest ih =>
    unfold collectCandidates
    cases hof : candidateOf s o t q profile filters e.1 e.2 with
    | error err =>
      rw [candidateOf_error hof]
      rfl
    | ok found =>
      rw [ih fun hrest => h (List.forall_mem_cons.mpr ⟨⟨found, hof⟩, hrest⟩)]
      rfl

/-- Two stores that hold the same memories and vectors, in any order. -/
structure SameContents (s s' : InMemoryStore R) : Prop where
  memories : ∀ i, s.memories.get? i = s'.memories.get? i
  vectors : ∀ i, s.vectors.get? i = s'.vectors.get? i

theorem SameContents.items (h : SameContents s s') :
    s.memories.items.Perm s'.memories.items := by
  rw [List.perm_ext_iff_of_nodup (List.Nodup.of_map _ s.memories.nodup)
    (List.Nodup.of_map _ s'.memories.nodup)]
  rintro ⟨i, m⟩
  rw [Dict.mem_items_iff, Dict.mem_items_iff, h.memories]

/-- A memory is judged by what is stored for it, not by its place. -/
theorem SameContents.candidateOf (h : SameContents s s') (i : UUID) (m : Memory R) :
    candidateOf s o t q profile filters i m
      = InMemoryMemoryRepository.candidateOf s' o t q profile filters i m := by
  unfold InMemoryMemoryRepository.candidateOf
  rw [h.vectors]

/-- Stores with the same contents have the same candidates, in some order. -/
theorem SameContents.candidatesIn (h : SameContents s s') :
    (candidatesIn s o t q profile filters).Perm
      (OpenMemory.candidatesIn s' o t q profile filters) := by
  have hfound : foundIn s o t q profile filters = foundIn s' o t q profile filters := by
    funext e
    unfold foundIn
    rw [h.candidateOf]
  unfold OpenMemory.candidatesIn
  rw [hfound]
  exact h.items.filterMap _

/-- Matches are of distinct memories. -/
theorem candidatesIn_pairwise (hk : s.Keyed) :
    (candidatesIn s o t q profile filters).Pairwise fun a b => a.memory.id ≠ b.memory.id := by
  unfold candidatesIn
  rw [List.pairwise_filterMap]
  have hkeys : s.memories.items.Pairwise fun e e' => e.1 ≠ e'.1 :=
    List.pairwise_map.mp s.memories.nodup
  refine List.Pairwise.imp_of_mem ?_ hkeys
  intro e e' he he' hne c hc c' hc'
  obtain ⟨_, -, rfl⟩ := foundIn_eq_some hc
  obtain ⟨_, -, rfl⟩ := foundIn_eq_some hc'
  rw [hk _ _ ((Dict.mem_items_iff _ _ _).mp he), hk _ _ ((Dict.mem_items_iff _ _ _).mp he')]
  exact hne

/-- The cut of the matches that a search takes. -/
def bestOf (s : InMemoryStore R) (o : String) (t : Option String) (q : List R)
    (profile : EmbeddingProfile) (filters : SearchFilters R) (limit : Int) :
    List (MemorySearchCandidate R) :=
  ((candidatesIn s o t q profile filters).insertionSort fun a b => candidateLe a b = true).take
    limit.toNat

/-- Every entry can be read: its vector is there when the query comes to it. -/
def Readable (s : InMemoryStore R) (o : String) (t : Option String) (q : List R)
    (profile : EmbeddingProfile) (filters : SearchFilters R) : Prop :=
  ∀ e ∈ s.memories.items,
    ∃ found, InMemoryMemoryRepository.candidateOf s o t q profile filters e.1 e.2 = .ok found

/-- A search of a store that can be read returns the best candidates. -/
theorem searchCandidates_of_readable (h : Readable s o t q profile filters) (limit : Int) :
    (searchCandidates o t q profile filters limit).run s
      = .ok (bestOf s o t q profile filters limit, s) := by
  rw [searchCandidates_run, collectCandidates_ok h]
  rfl

/-- One of a store that cannot fails. -/
theorem searchCandidates_of_not_readable (h : ¬Readable s o t q profile filters) (limit : Int) :
    (searchCandidates o t q profile filters limit).run s = .error (searchError profile) := by
  rw [searchCandidates_run, collectCandidates_error h]
  rfl

/-- What a search returns are the best candidates. -/
theorem searchCandidates_bestOf {limit : Int} {cs : List (MemorySearchCandidate R)}
    (h : (searchCandidates o t q profile filters limit).run s = .ok (cs, s')) :
    cs = bestOf s o t q profile filters limit ∧ s' = s := by
  by_cases hread : Readable s o t q profile filters
  · rw [searchCandidates_of_readable hread] at h
    cases h
    exact ⟨rfl, rfl⟩
  · rw [searchCandidates_of_not_readable hread] at h
    cases h

/-- Whether a store can be read does not depend on its order. -/
theorem SameContents.readable (h : SameContents s s') :
    Readable s o t q profile filters ↔ Readable s' o t q profile filters := by
  unfold Readable
  simp only [h.candidateOf, h.items.mem_iff]

/-- Two candidates with one id are one. -/
theorem candidatesIn_antisymm (hk : s.Keyed) {a b : MemorySearchCandidate R}
    (ha : a ∈ OpenMemory.candidatesIn s o t q profile filters)
    (hb : b ∈ OpenMemory.candidatesIn s o t q profile filters)
    (hid : a.memory.id = b.memory.id) : a = b := by
  by_contra hne
  have hsymm : Std.Symm fun a b : MemorySearchCandidate R => a.memory.id ≠ b.memory.id :=
    ⟨fun _ _ h => h.symm⟩
  exact (candidatesIn_pairwise hk).forall ha hb hne hid

/-- The cut does not depend on the order of the store. -/
theorem SameContents.bestOf (h : SameContents s s') (hk : s.Keyed) (limit : Int) :
    bestOf s o t q profile filters limit
      = OpenMemory.bestOf s' o t q profile filters limit := by
  unfold OpenMemory.bestOf
  rw [insertionSort_eq_of_perm h.candidatesIn fun a ha b hb hab hba =>
    candidatesIn_antisymm hk ha hb (candidateLe_antisymm hab hba)]

/-- Two stores with the same contents answer a search alike. -/
theorem searchCandidates_alike (h : SameContents s s') (hk : s.Keyed) :
    (inMemoryUnitOfWork R).SearchRelated (MonadRel.readsAlike s s') (inMemoryUnitOfWork R) := by
  intro o t q profile filters limit
  by_cases hread : Readable s o t q profile filters
  · refine ⟨.ok (OpenMemory.bestOf s o t q profile filters limit),
      searchCandidates_of_readable hread limit, ?_⟩
    rw [h.bestOf hk limit]
    exact searchCandidates_of_readable (h.readable.mp hread) limit
  · exact ⟨.error (searchError profile), searchCandidates_of_not_readable hread limit,
      searchCandidates_of_not_readable (fun hread' => hread (h.readable.mpr hread')) limit⟩

/-- The candidate is a match, and with itself at most `limit` matches come up to it: they are more
similar, or as similar with an id no greater. -/
structure AmongBest (s : InMemoryStore R) (o : String) (t : Option String) (q : List R)
    (profile : EmbeddingProfile) (filters : SearchFilters R) (limit : Int)
    (c : MemorySearchCandidate R) : Prop where
  isMatch : c ∈ OpenMemory.candidatesIn s o t q profile filters
  rank : (((OpenMemory.candidatesIn s o t q profile filters).countP fun d => candidateLe d c : Nat)
    : Int) ≤ limit

/-- No candidate comes twice. -/
theorem nodup_candidatesIn (hk : s.Keyed) :
    (OpenMemory.candidatesIn s o t q profile filters).Nodup :=
  (candidatesIn_pairwise hk).imp fun hne heq => hne (congrArg (fun c => c.memory.id) heq)

/-- The best candidates are candidates. -/
theorem mem_of_mem_bestOf {limit : Int} {c : MemorySearchCandidate R}
    (h : c ∈ OpenMemory.bestOf s o t q profile filters limit) :
    c ∈ OpenMemory.candidatesIn s o t q profile filters :=
  (List.mem_insertionSort _).mp (List.mem_of_mem_take h)

/-- The cut holds the best matches, whatever the order of the store. -/
theorem mem_bestOf_iff (hk : s.Keyed) {limit : Int} (hlimit : 0 ≤ limit)
    {c : MemorySearchCandidate R} :
    c ∈ OpenMemory.bestOf s o t q profile filters limit ↔
      AmongBest s o t q profile filters limit c := by
  have hanti : ∀ a ∈ OpenMemory.candidatesIn s o t q profile filters,
      ∀ b ∈ OpenMemory.candidatesIn s o t q profile filters,
      candidateLe a b = true → candidateLe b a = true → a = b := fun a ha b hb hab hba =>
    candidatesIn_antisymm hk ha hb (candidateLe_antisymm hab hba)
  unfold OpenMemory.bestOf
  rw [mem_take_insertionSort_iff (nodup_candidatesIn hk) hanti]
  simp only [Bool.decide_eq_true]
  constructor
  · rintro ⟨hmem, hcount⟩
    exact ⟨hmem, by omega⟩
  · rintro ⟨hmem, hcount⟩
    exact ⟨hmem, by omega⟩

/-- Their ids are distinct. -/
theorem bestOf_pairwise (hk : s.Keyed) (limit : Int) :
    (OpenMemory.bestOf s o t q profile filters limit).Pairwise
      fun a b => a.memory.id ≠ b.memory.id := by
  exact (((List.perm_insertionSort _ _).pairwise_iff fun {_ _} h => Ne.symm h).mpr
    (candidatesIn_pairwise hk)).sublist (List.take_sublist _ _)

end Matches

/-! ## Ranked items -/

/-- An item is the ranking of a candidate that reaches the threshold; its similarity is compared
before it is rounded. -/
structure RankedFrom (threshold : R) (c : MemorySearchCandidate R) (item : SearchMemoryItem R) :
    Prop where
  memory : item.memory = c.memory
  score : item.score = Python.round6 (rawScore c)
  similarity : item.similarity = Python.round6 (clampedSimilarity c)
  reaches : Python.lt (clampedSimilarity c) threshold = false

/-- An item that is ranked comes from its candidate. -/
theorem rankedFrom_rankedItem {threshold : R} {c : MemorySearchCandidate R}
    (h : Python.lt (clampedSimilarity c) threshold = false) (profile : EmbeddingProfile)
    (reason : String) : RankedFrom threshold c (rankedItem profile reason c) :=
  ⟨rfl, rfl, rfl, h⟩

/-- The ranked item of a candidate that `recall` lets through. -/
def recalledItem (profile : EmbeddingProfile) (c : RecallMemoryCommand R)
    (candidate : MemorySearchCandidate R) : SearchMemoryItem R :=
  rankedItem profile (if candidate.memory.space ≠ c.contextSpace then
    "explicit_cross_space_semantic_match" else "same_space_semantic_match") candidate

/-- What the loop of `recall` returns: of every memory not seen before, the item of its candidate,
if the command lets it through. The order of the candidates does not matter as long as those of one
memory are the same. -/
theorem mem_rankRecall_iff {profile : EmbeddingProfile} {c : RecallMemoryCommand R}
    {seen : List UUID} {cs : List (MemorySearchCandidate R)} {item : SearchMemoryItem R}
    (hcs : ∀ a ∈ cs, ∀ b ∈ cs, a.memory.id = b.memory.id → a = b) :
    item ∈ rankRecall profile c seen cs ↔ ∃ candidate ∈ cs, candidate.memory.id ∉ seen ∧
      Ranked c candidate ∧ item = recalledItem profile c candidate := by
  induction cs generalizing seen with
  | nil => simp [rankRecall]
  | cons candidate rest ih =>
    have hrest : ∀ a ∈ rest, ∀ b ∈ rest, a.memory.id = b.memory.id → a = b := fun a ha b hb =>
      hcs a (List.mem_cons_of_mem _ ha) b (List.mem_cons_of_mem _ hb)
    have hsame : ∀ b ∈ rest, b.memory.id = candidate.memory.id → b = candidate := fun b hb =>
      hcs b (List.mem_cons_of_mem _ hb) candidate List.mem_cons_self
    unfold rankRecall
    split
    · rename_i hskip
      rw [ih hrest]
      constructor
      · rintro ⟨b, hb, hb'⟩
        exact ⟨b, List.mem_cons_of_mem _ hb, hb'⟩
      · rintro ⟨b, hb, hunseen, hranked, heq⟩
        rcases List.mem_cons.mp hb with rfl | hb
        · rcases hskip with hseen | ⟨hnote, hallow⟩
          · exact absurd hseen hunseen
          · rw [hranked.1 hnote] at hallow
            cases hallow
        · exact ⟨b, hb, hunseen, hranked, heq⟩
    · rename_i hskip
      obtain ⟨hunseen, hnote⟩ := not_or.mp hskip
      have hnote : candidate.memory.memoryType = .mentalNote → c.allowMentalNotes = true := by
        intro hn
        by_contra hallow
        exact hnote ⟨hn, by simpa using hallow⟩
      -- what is ranked later is not of this memory, or it is this candidate again
      split
      · rename_i hlow
        rw [ih hrest]
        constructor
        · rintro ⟨b, hb, hunseen', hb'⟩
          exact ⟨b, List.mem_cons_of_mem _ hb, fun h => hunseen' (List.mem_cons_of_mem _ h), hb'⟩
        · rintro ⟨b, hb, hunseen', hranked, heq⟩
          have hne : b ≠ candidate := by
            rintro rfl
            rw [hranked.2] at hlow
            cases hlow
          have hb := (List.mem_cons.mp hb).resolve_left hne
          refine ⟨b, hb, fun hmem => ?_, hranked, heq⟩
          rcases List.mem_cons.mp hmem with hid | hmem
          · exact hne (hsame b hb hid)
          · exact hunseen' hmem
      · rename_i hlow
        have hranked : Ranked c candidate := ⟨hnote, by simpa using hlow⟩
        rw [List.mem_cons, ih hrest]
        constructor
        · rintro (rfl | ⟨b, hb, hunseen', hb'⟩)
          · exact ⟨candidate, List.mem_cons_self, hunseen, hranked, rfl⟩
          · exact ⟨b, List.mem_cons_of_mem _ hb, fun h => hunseen' (List.mem_cons_of_mem _ h), hb'⟩
        · rintro ⟨b, hb, hunseen', hranked', heq⟩
          by_cases hid : b.memory.id = candidate.memory.id
          · obtain rfl : b = candidate := by
              rcases List.mem_cons.mp hb with rfl | hb
              · rfl
              · exact hsame b hb hid
            exact .inl heq
          · refine .inr ⟨b, (List.mem_cons.mp hb).resolve_left ?_, fun hmem => ?_, hranked', heq⟩
            · rintro rfl
              exact hid rfl
            · rcases List.mem_cons.mp hmem with h | h
              · exact hid h
              · exact hunseen' h

/-- Recall shows every memory once. -/
theorem rankRecall_pairwise (profile : EmbeddingProfile) (c : RecallMemoryCommand R)
    (seen : List UUID) (cs : List (MemorySearchCandidate R)) :
    (∀ item ∈ rankRecall profile c seen cs, item.memory.id ∉ seen) ∧
      (rankRecall profile c seen cs).Pairwise fun a b => a.memory.id ≠ b.memory.id := by
  induction cs generalizing seen with
  | nil => exact ⟨fun _ h => absurd h List.not_mem_nil, .nil⟩
  | cons candidate rest ih =>
    unfold rankRecall
    split
    · exact ih seen
    · rename_i hskip
      obtain ⟨hunseen, -⟩ := not_or.mp hskip
      obtain ⟨hfresh, hpairwise⟩ := ih (candidate.memory.id :: seen)
      have hlater : ∀ item ∈ rankRecall profile c (candidate.memory.id :: seen) rest,
          item.memory.id ∉ seen := fun item hitem h =>
        hfresh item hitem (List.mem_cons_of_mem _ h)
      split
      · exact ⟨hlater, hpairwise⟩
      · refine ⟨List.forall_mem_cons.mpr ⟨hunseen, hlater⟩,
          List.pairwise_cons.mpr ⟨fun item hitem h => hfresh item hitem ?_, hpairwise⟩⟩
        rw [← h]
        exact List.mem_cons_self

/-- Ranking lists with the same items of distinct memories gives the same result. -/
theorem topRanked_eq_of_mem {items items' : List (SearchMemoryItem R)}
    (h : items.Pairwise fun a b => a.memory.id ≠ b.memory.id)
    (h' : items'.Pairwise fun a b => a.memory.id ≠ b.memory.id)
    (hmem : ∀ item, item ∈ items ↔ item ∈ items') (limit : Int) :
    topRanked items limit = topRanked items' limit := by
  have hnodup : ∀ {l : List (SearchMemoryItem R)},
      l.Pairwise (fun a b => a.memory.id ≠ b.memory.id) → l.Nodup := fun hl =>
    hl.imp fun hne heq => hne (congrArg (fun item => item.memory.id) heq)
  have hperm : items.Perm items' :=
    (List.perm_ext_iff_of_nodup (hnodup h) (hnodup h')).mpr hmem
  have hsymm : Std.Symm fun a b : SearchMemoryItem R => a.memory.id ≠ b.memory.id :=
    ⟨fun _ _ h => h.symm⟩
  unfold topRanked
  rw [insertionSort_eq_of_perm hperm fun a ha b hb hab hba => ?_]
  by_contra hne
  exact h.forall ha hb hne (rankLe_antisymm hab hba)

/-- So is what `recall` returns for lists with the same candidates. -/
theorem topRanked_rankRecall {profile : EmbeddingProfile} {c : RecallMemoryCommand R}
    {cs cs' : List (MemorySearchCandidate R)}
    (hcs : ∀ a ∈ cs, ∀ b ∈ cs, a.memory.id = b.memory.id → a = b)
    (hmem : ∀ candidate, candidate ∈ cs ↔ candidate ∈ cs') (limit : Int) :
    topRanked (rankRecall profile c [] cs) limit = topRanked (rankRecall profile c [] cs') limit := by
  have hcs' : ∀ a ∈ cs', ∀ b ∈ cs', a.memory.id = b.memory.id → a = b := fun a ha b hb =>
    hcs a ((hmem a).mpr ha) b ((hmem b).mpr hb)
  refine topRanked_eq_of_mem (rankRecall_pairwise _ _ _ _).2 (rankRecall_pairwise _ _ _ _).2
    (fun item => ?_) limit
  rw [mem_rankRecall_iff hcs, mem_rankRecall_iff hcs']
  simp only [hmem]

/-- The items of a result: in order, of distinct memories, no more than the limit, and each the
ranking of one of the best candidates. -/
structure WellRanked (limit : Int) (threshold : R) (best : MemorySearchCandidate R → Prop)
    (items : List (SearchMemoryItem R)) : Prop where
  sorted : items.Pairwise fun a b => rankLe a b = true
  distinct : (items.map fun item => item.memory.id).Nodup
  atMost : (items.length : Int) ≤ limit
  ranked : ∀ item ∈ items, ∃ c, best c ∧ RankedFrom threshold c item

/-- Sorting and cutting items with distinct ids gives a ranking of what they were made from. -/
theorem wellRanked_topRanked {limit : Int} (hlimit : 1 ≤ limit) {threshold : R}
    {best : MemorySearchCandidate R → Prop} {items : List (SearchMemoryItem R)}
    (hitems : items.Pairwise fun a b => a.memory.id ≠ b.memory.id)
    (hranked : ∀ item ∈ items, ∃ c, best c ∧ RankedFrom threshold c item) :
    WellRanked limit threshold best (topRanked items limit) where
  sorted := (List.pairwise_insertionSort _ _).sublist (List.take_sublist _ _)
  distinct := by
    rw [List.nodup_iff_pairwise_ne, List.pairwise_map]
    exact (((List.perm_insertionSort _ _).pairwise_iff fun {_ _} h => Ne.symm h).mpr
      hitems).sublist (List.take_sublist _ _)
  atMost := length_topRanked_le items hlimit
  ranked item hitem := hranked item (mem_topRanked hitem)

/-! ## Search -/

section Commands

variable {s s' : InMemoryStore R} {svc : MemoryApplicationService R}

/-- The filters that a search applies. -/
def appliedFilters (c : SearchMemoryCommand R) : SearchFilters R :=
  { c.filters with states := searchStates c.filters.states }

/-- The items of a search: those of the matches in the cut that reach the threshold, ranked. -/
theorem search_items {c : SearchMemoryCommand R} {r : SearchMemoryResult R}
    (h : (svc.search (inMemoryUnitOfWork R) c).run s = .ok (r, s')) :
    (1 ≤ c.limit ∧ 1 ≤ c.candidateLimit) ∧
    ∃ q, svc.embeddingProvider.embed c.query true = .ok q ∧
      r.items = topRanked (((bestOf s c.ownerId none q svc.embeddingProvider.profile
        (appliedFilters c) c.candidateLimit).filter (reaches c.threshold)).map
          (searchedItem svc.embeddingProvider.profile)) c.limit := by
  unfold search at h
  obtain ⟨_, _, howner, h₁⟩ := Txn.bind_ok.mp h
  obtain ⟨-, rfl⟩ := Txn.ofExcept_ok.mp howner
  obtain ⟨_, _, hquery, h₂⟩ := Txn.bind_ok.mp h₁
  obtain ⟨-, rfl⟩ := raiseIf_ok.mp hquery
  obtain ⟨_, _, hrange, h₃⟩ := Txn.bind_ok.mp h₂
  obtain ⟨hlimit, rfl⟩ := raiseIf_ok.mp hrange
  obtain ⟨_, _, hcandidates, h₄⟩ := Txn.bind_ok.mp h₃
  obtain ⟨hvalid, rfl⟩ := raiseIf_ok.mp hcandidates
  obtain ⟨_, _, hthreshold, h₅⟩ := Txn.bind_ok.mp h₄
  obtain ⟨-, rfl⟩ := raiseIf_ok.mp hthreshold
  obtain ⟨q, _, hembed, h₆⟩ := Txn.bind_ok.mp h₅
  obtain ⟨hq, -, rfl⟩ := embedChecked_ok hembed
  obtain ⟨cs, _, hcs, h₇⟩ := Txn.bind_ok.mp h₆
  obtain ⟨ranked, _, hrank, h₈⟩ := Txn.bind_ok.mp h₇
  obtain ⟨hranked, rfl⟩ := Txn.ofExcept_ok.mp hrank
  obtain ⟨rfl, rfl⟩ := Txn.pure_ok.mp h₈
  have hlimit : 1 ≤ c.limit ∧ c.limit ≤ 100 := by simpa using hlimit
  have hvalid : 1 ≤ c.candidateLimit ∧ c.candidateLimit ≤ 500 := by simpa using hvalid
  obtain ⟨rfl, rfl⟩ := searchCandidates_bestOf hcs
  rw [rankSearch_eq c.threshold fun candidate hc =>
    profile_of_mem_candidatesIn (mem_of_mem_bestOf hc)] at hranked
  obtain rfl := Except.ok.inj hranked
  exact ⟨⟨hlimit.1, hvalid.1⟩, q, hq, rfl⟩

/-- What a search returns: the ranking of the best matches of its filters. -/
theorem search_wellRanked (hk : s.Keyed) {c : SearchMemoryCommand R} {r : SearchMemoryResult R}
    (h : (svc.search (inMemoryUnitOfWork R) c).run s = .ok (r, s')) :
    ∃ q, svc.embeddingProvider.embed c.query true = .ok q ∧
      WellRanked c.limit c.threshold
        (AmongBest s c.ownerId none q svc.embeddingProvider.profile
          { c.filters with states := searchStates c.filters.states } c.candidateLimit) r.items := by
  obtain ⟨⟨hlimit, hcandidates⟩, q, hq, hitems⟩ := search_items h
  rw [hitems]
  refine ⟨q, hq, wellRanked_topRanked hlimit ?_ fun item hitem => ?_⟩
  · exact List.pairwise_map.mpr ((bestOf_pairwise hk _).sublist List.filter_sublist)
  · obtain ⟨candidate, hcandidate, rfl⟩ := List.mem_map.mp hitem
    obtain ⟨hbest, hreaches⟩ := List.mem_filter.mp hcandidate
    exact ⟨candidate, (mem_bestOf_iff hk (by omega)).mp hbest,
      rankedFrom_rankedItem (by simpa [reaches] using hreaches) _ _⟩

/-! ## Recall -/

/-- The candidate is in the cut of one of the requested spaces. -/
def BestOfSpaces (s : InMemoryStore R) (svc : MemoryApplicationService R)
    (c : RecallMemoryCommand R) (q : List R) (spaces : List (Option String))
    (candidate : MemorySearchCandidate R) : Prop :=
  ∃ space ∈ spaces, candidate ∈ bestOf s c.ownerId (some c.tenantId) q
    svc.embeddingProvider.profile (recallFilters c space) c.candidateLimit

/-- Every space can be searched. -/
def ReadableSpaces (s : InMemoryStore R) (svc : MemoryApplicationService R)
    (c : RecallMemoryCommand R) (q : List R) (spaces : List (Option String)) : Prop :=
  ∀ space ∈ spaces, Readable s c.ownerId (some c.tenantId) q svc.embeddingProvider.profile
    (recallFilters c space)

variable {c : RecallMemoryCommand R} {q : List R}

/-- Recall finds exactly the best of each of its spaces. -/
theorem recallCandidates_of_readable {spaces : List (Option String)}
    (h : ReadableSpaces s svc c q spaces) : ∃ cs,
      (svc.recallCandidates (inMemoryUnitOfWork R) c q spaces).run s = .ok (cs, s) ∧
      ∀ candidate, candidate ∈ cs ↔ BestOfSpaces s svc c q spaces candidate := by
  induction spaces with
  | nil => exact ⟨[], rfl, fun _ => by simp [BestOfSpaces]⟩
  | cons space rest ih =>
    obtain ⟨hspace, hrest⟩ := List.forall_mem_cons.mp h
    obtain ⟨more, hmore, hmem⟩ := ih hrest
    have hhere := searchCandidates_of_readable hspace c.candidateLimit
    refine ⟨_, (Txn.run_bind_of_ok hhere).trans ((Txn.run_bind_of_ok hmore).trans rfl),
      fun candidate => ?_⟩
    rw [List.mem_append, hmem]
    unfold BestOfSpaces
    simp only [List.mem_cons, exists_eq_or_imp]

/-- Recall fails where one of its spaces cannot be read. -/
theorem recallCandidates_of_not_readable {spaces : List (Option String)}
    (h : ¬ReadableSpaces s svc c q spaces) :
    (svc.recallCandidates (inMemoryUnitOfWork R) c q spaces).run s
      = .error (searchError svc.embeddingProvider.profile) := by
  induction spaces with
  | nil => exact absurd (fun _ hmem => absurd hmem List.not_mem_nil) h
  | cons space rest ih =>
    by_cases hspace : Readable s c.ownerId (some c.tenantId) q svc.embeddingProvider.profile
        (recallFilters c space)
    · -- the first space is searched in vain: the error is that of a later one
      have hrest := ih fun hrest => h (List.forall_mem_cons.mpr ⟨hspace, hrest⟩)
      exact (Txn.run_bind_of_ok (searchCandidates_of_readable hspace c.candidateLimit)).trans
        (Txn.run_bind_of_error hrest)
    · exact Txn.run_bind_of_error (searchCandidates_of_not_readable hspace c.candidateLimit)

/-- The candidates of a recall that returns. -/
theorem recallCandidates_ok {spaces : List (Option String)} {cs : List (MemorySearchCandidate R)}
    (h : (svc.recallCandidates (inMemoryUnitOfWork R) c q spaces).run s = .ok (cs, s')) :
    s' = s ∧ ∀ candidate, candidate ∈ cs ↔ BestOfSpaces s svc c q spaces candidate := by
  by_cases hread : ReadableSpaces s svc c q spaces
  · obtain ⟨cs', hcs', hmem⟩ := recallCandidates_of_readable hread
    rw [hcs'] at h
    cases h
    exact ⟨rfl, hmem⟩
  · rw [recallCandidates_of_not_readable hread] at h
    cases h

/-- The cuts of all spaces hold one candidate of a memory. -/
theorem bestOfSpaces_antisymm (hk : s.Keyed) {spaces : List (Option String)}
    {a b : MemorySearchCandidate R} (ha : BestOfSpaces s svc c q spaces a)
    (hb : BestOfSpaces s svc c q spaces b) (hid : a.memory.id = b.memory.id) : a = b := by
  obtain ⟨_, -, ha⟩ := ha
  obtain ⟨_, -, hb⟩ := hb
  obtain ⟨i, m, vector, hget, hmatch, rfl⟩ := mem_candidatesIn_iff.mp (mem_of_mem_bestOf ha)
  obtain ⟨i', m', vector', hget', hmatch', rfl⟩ := mem_candidatesIn_iff.mp (mem_of_mem_bestOf hb)
  obtain rfl : i = i' := (hk i m hget).symm.trans (hid.trans (hk i' m' hget'))
  obtain rfl : m = m' := Option.some.inj (hget.symm.trans hget')
  obtain rfl : vector = vector' := Option.some.inj (hmatch.vector.symm.trans hmatch'.vector)
  rfl

/-- What a recall returns: the ranking of the best matches of its spaces. -/
theorem recall_wellRanked (hk : s.Keyed) {r : RecallResult R}
    (h : (svc.recall (inMemoryUnitOfWork R) c).run s = .ok (r, s')) :
    ∃ q, svc.embeddingProvider.embed c.query true = .ok q ∧
      WellRanked c.limit c.threshold
        (fun candidate => ∃ space ∈ requestedSpaces c,
          AmongBest s c.ownerId (some c.tenantId) q svc.embeddingProvider.profile
            (recallFilters c space) c.candidateLimit candidate) r.items := by
  obtain ⟨q, cs, hacc, hcs, hitems⟩ := recall_ok h
  obtain ⟨-, hmem⟩ := recallCandidates_ok hcs
  have hsame : ∀ a ∈ cs, ∀ b ∈ cs, a.memory.id = b.memory.id → a = b := fun a ha b hb =>
    bestOfSpaces_antisymm hk ((hmem a).mp ha) ((hmem b).mp hb)
  rw [hitems]
  refine ⟨q, hacc.embedded, wellRanked_topRanked hacc.limits.1.1 (rankRecall_pairwise _ _ _ _).2
    fun item hitem => ?_⟩
  obtain ⟨candidate, hcandidate, -, hranked, rfl⟩ := (mem_rankRecall_iff hsame).mp hitem
  obtain ⟨space, hspace, hbest⟩ := (hmem candidate).mp hcandidate
  exact ⟨candidate, ⟨space, hspace, (mem_bestOf_iff hk (by have := hacc.limits.2.1; omega)).mp hbest⟩,
    rankedFrom_rankedItem hranked.2 _ _⟩

omit [Python R] in
/-- The included spaces count as a set. -/
theorem mem_requestedSpaces_iff {l : List String} (hl : ∀ name, name ∈ l ↔ name ∈ c.includeSpaces)
    (space : Option String) :
    space ∈ requestedSpaces { c with includeSpaces := l } ↔ space ∈ requestedSpaces c := by
  by_cases hnone : c.includeSpaces = []
  · obtain rfl : l = [] := List.eq_nil_iff_forall_not_mem.mpr fun name hmem => by
      have hmem := (hl name).mp hmem
      rw [hnone] at hmem
      cases hmem
    rw [requestedSpaces_of_context hnone, requestedSpaces_of_context rfl]
  · have hsome : l ≠ [] := by
      rintro rfl
      exact hnone (List.eq_nil_iff_forall_not_mem.mpr fun name hmem =>
        absurd ((hl name).mpr hmem) List.not_mem_nil)
    rw [requestedSpaces_of_include hnone,
      requestedSpaces_of_include (c := { c with includeSpaces := l }) hsome]
    simp only [List.mem_map, hl]

/-- How candidates are ranked does not depend on the list of spaces. -/
theorem rankRecall_of_spaces {profile : EmbeddingProfile} {l : List String} {seen : List UUID}
    {cs : List (MemorySearchCandidate R)} :
    rankRecall profile { c with includeSpaces := l } seen cs = rankRecall profile c seen cs := by
  induction cs generalizing seen with
  | nil => rfl
  | cons candidate rest ih =>
    unfold rankRecall
    simp only [ih]

/-- The checks depend on which spaces are listed, not on their order. -/
theorem validateRecall_of_spaces {l : List String}
    (hl : ∀ name, name ∈ l ↔ name ∈ c.includeSpaces) :
    (validateRecall { c with includeSpaces := l } : StoreTxn R Unit) = validateRecall c := by
  have hany : ∀ p : Option String → Bool, (requestedSpaces { c with includeSpaces := l }).any p
      = (requestedSpaces c).any p := by
    intro p
    rw [Bool.eq_iff_iff]
    simp only [List.any_eq_true, mem_requestedSpaces_iff hl]
  unfold validateRecall
  rw [hany]

/-- A recall does not depend on the order of the included spaces, nor on repetitions. -/
theorem recall_of_spaces (hk : s.Keyed) {l : List String}
    (hl : ∀ name, name ∈ l ↔ name ∈ c.includeSpaces) :
    (svc.recall (inMemoryUnitOfWork R) { c with includeSpaces := l }).run s
      = (svc.recall (inMemoryUnitOfWork R) c).run s := by
  let ρ : MonadRel PyError (StoreTxn R) (StoreTxn R) := MonadRel.readsAlike s s
  have hrel : ρ.Rel (svc.recall (inMemoryUnitOfWork R) { c with includeSpaces := l })
      (svc.recall (inMemoryUnitOfWork R) c) := by
    unfold «recall»
    rw [validateRecall_of_spaces hl]
    refine ρ.bind (validateRecall_related ρ c) fun _ => ρ.bind (embedChecked_related ρ _ _ _)
      fun q => ?_
    have hmem := mem_requestedSpaces_iff hl
    by_cases hread : ReadableSpaces s svc c q (requestedSpaces c)
    · obtain ⟨cs, hcs, hin⟩ := recallCandidates_of_readable hread
      have hread' : ReadableSpaces s svc { c with includeSpaces := l } q
          (requestedSpaces { c with includeSpaces := l }) :=
        fun space hspace => hread space ((hmem space).mp hspace)
      obtain ⟨cs', hcs', hin'⟩ := recallCandidates_of_readable hread'
      have hlists : ∀ candidate, candidate ∈ cs' ↔ candidate ∈ cs := by
        intro candidate
        rw [hin, hin']
        unfold BestOfSpaces
        simp only [hmem]
        rfl
      have hitems : topRanked (rankRecall svc.embeddingProvider.profile c [] cs) c.limit
          = topRanked (rankRecall svc.embeddingProvider.profile c [] cs') c.limit :=
        topRanked_rankRecall
          (fun a ha b hb => bestOfSpaces_antisymm hk ((hin a).mp ha) ((hin b).mp hb))
          (fun candidate => (hlists candidate).symm) c.limit
      let result (items : List (SearchMemoryItem R)) : RecallResult R :=
        { items := items, count := items.length, profileId := svc.embeddingProvider.profile.id
          profileVersion := svc.embeddingProvider.profile.version }
      refine ⟨.ok (result (topRanked (rankRecall svc.embeddingProvider.profile c [] cs) c.limit)),
        (Txn.run_bind_of_ok hcs').trans ?_, (Txn.run_bind_of_ok hcs).trans rfl⟩
      rw [hitems, ← rankRecall_of_spaces (l := l)]
      rfl
    · have hread' : ¬ReadableSpaces s svc { c with includeSpaces := l } q
          (requestedSpaces { c with includeSpaces := l }) := fun h =>
        hread fun space hspace => h space ((hmem space).mpr hspace)
      exact ⟨.error (searchError svc.embeddingProvider.profile),
        Txn.run_bind_of_error (recallCandidates_of_not_readable hread'),
        Txn.run_bind_of_error (recallCandidates_of_not_readable hread)⟩
  obtain ⟨out, h, h'⟩ := hrel
  exact h.trans h'.symm

theorem SameContents.keyed (h : SameContents s s') (hk : s.Keyed) : s'.Keyed := by
  intro i m hget
  rw [← h.memories] at hget
  exact hk i m hget

/-- Two stores with the same contents answer a search alike, and a recall whatever the order of its
included spaces; what they return is well ranked. -/
theorem ranking_independent (hk : s.Keyed) (hsame : SameContents s s')
    (svc : MemoryApplicationService R) :
    (∀ c : SearchMemoryCommand R, ∃ out : Except PyError (SearchMemoryResult R),
      (svc.search (inMemoryUnitOfWork R) c).run s = out.map (·, s) ∧
      (svc.search (inMemoryUnitOfWork R) c).run s' = out.map (·, s') ∧
      ∀ r, out = .ok r → ∃ q, svc.embeddingProvider.embed c.query true = .ok q ∧
        WellRanked c.limit c.threshold
          (AmongBest s c.ownerId none q svc.embeddingProvider.profile
            { c.filters with states := searchStates c.filters.states } c.candidateLimit) r.items) ∧
    ∀ (c : RecallMemoryCommand R) (l : List String),
      (∀ name, name ∈ l ↔ name ∈ c.includeSpaces) → ∃ out : Except PyError (RecallResult R),
      (svc.recall (inMemoryUnitOfWork R) c).run s = out.map (·, s) ∧
      (svc.recall (inMemoryUnitOfWork R) { c with includeSpaces := l }).run s' = out.map (·, s') ∧
      ∀ r, out = .ok r → ∃ q, svc.embeddingProvider.embed c.query true = .ok q ∧
        WellRanked c.limit c.threshold
          (fun candidate => ∃ space ∈ requestedSpaces c,
            AmongBest s c.ownerId (some c.tenantId) q svc.embeddingProvider.profile
              (recallFilters c space) c.candidateLimit candidate) r.items := by
  have hsearch := searchCandidates_alike hsame hk
  constructor
  · intro c
    obtain ⟨out, h, h'⟩ := search_related hsearch svc c
    refine ⟨out, h, h', ?_⟩
    rintro r rfl
    exact search_wellRanked hk h
  · intro c l hl
    obtain ⟨out, h, h'⟩ := recall_related hsearch svc c
    refine ⟨out, h, (recall_of_spaces (hsame.keyed hk) hl).trans h', ?_⟩
    rintro r rfl
    exact recall_wellRanked hk h

end Commands

/-- A confirmed note of `alice` in the space `home`. -/
def homeNote : Memory ℚ where
  id := ⟨8⟩
  ownerId := "alice"
  content := "tea at home"
  memoryType := .fact
  importance := 1 / 2
  confidence := 1 / 2
  state := .confirmed
  version := 1
  createdAt := day2026 1
  updatedAt := day2026 1
  occurredAt := none
  space := some "home"
  provenance := sentByClient
  embedding := some hashDescriptor
  tenantId := some "acme"
  checked := by decide +kernel

/-- The store that has received one memory, then another. -/
def holdingBoth (first second : Memory ℚ) : InMemoryStore ℚ where
  memories := (holding first [1]).memories.set second.id second
  vectors := (holding first [1]).vectors.set second.id [1]

/-- A query at work, of `home` and `work` in the given order. -/
def recallBoth (includeSpaces : List String) : RecallMemoryCommand ℚ :=
  { recallFromWork false with includeSpaces := includeSpaces }

theorem keyed_holdingBoth (first second : Memory ℚ) : (holdingBoth first second).Keyed := by
  intro i m hget
  simp only [holdingBoth, holding, Dict.get?_set, Dict.get?_empty] at hget
  split at hget
  · rename_i hi
    cases hget
    exact hi.symm
  · split at hget
    · rename_i hi
      cases hget
      exact hi.symm
    · cases hget

theorem sameContents_holdingBoth {first second : Memory ℚ} (h : first.id ≠ second.id) :
    SameContents (holdingBoth first second) (holdingBoth second first) := by
  constructor
  all_goals
    intro i
    simp only [holdingBoth, holding, Dict.get?_set, Dict.get?_empty]
    split
    · rename_i hi
      rw [if_neg fun hi' => h (hi'.symm.trans hi)]
    · rfl

/-- Two notes in two spaces: neither the order of the store nor that of the list shows. -/
theorem ranking_independent_twoSpaces :
    (((serviceOn 2 8).recall (inMemoryUnitOfWork ℚ) (recallBoth ["home", "work"])).attempt
        (holdingBoth workNote homeNote)).1.map (fun r => r.items.map fun item => item.memory.id)
      = .ok [⟨7⟩, ⟨8⟩] ∧
    (((serviceOn 2 8).recall (inMemoryUnitOfWork ℚ) (recallBoth ["work", "home", "work"])).attempt
        (holdingBoth homeNote workNote)).1
      = (((serviceOn 2 8).recall (inMemoryUnitOfWork ℚ) (recallBoth ["home", "work"])).attempt
        (holdingBoth workNote homeNote)).1 := by
  have hids : workNote.id ≠ homeNote.id := by decide
  obtain ⟨out, h, h', -⟩ := (ranking_independent (keyed_holdingBoth workNote homeNote)
    (sameContents_holdingBoth hids) (serviceOn 2 8)).2 (recallBoth ["home", "work"])
    ["work", "home", "work"] (by simp [recallBoth, or_comm])
  refine ⟨by decide +kernel, ?_⟩
  unfold Txn.attempt
  rw [h]
  replace h' : ((serviceOn 2 8).recall (inMemoryUnitOfWork ℚ)
    (recallBoth ["work", "home", "work"])).run _ = _ := h'
  rw [h']
  cases out <;> rfl

end OpenMemory
