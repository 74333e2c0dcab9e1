import OpenMemory.Evals.Metrics
import OpenMemory.Store.Ranking

/-!
# The offline harness (`evals/semantic_harness.py`)

Ranking of a frozen corpus: `rankBeforeThreshold`, `outcomeAtThreshold` and `retrieve`. Similarities
come from a local model and are a parameter.

`outcomeAtThreshold` is meant to order like `MemoryApplicationService.search`. What either returns
depends on the similarities, importances, confidences and ids alone (`Signals`), by
`outcomeAtThreshold_ids` and `topRanked_ids`. But the one sorts exact scores and the other scores
with six decimals: `harness_orders_like_serving_iff` says when that makes no difference.
-/

namespace OpenMemory.Evals

open Lib MemoryApplicationService

variable {R : Type} [Python R]

/-- A memory of the corpus. -/
structure Record (R : Type) where
  memoryId : String
  ownerId : String
  memoryType : String
  space : String
  state : String
  importance : R
  confidence : R

/-- The filters of a query; an absent one is `none`. -/
structure QueryFilters where
  state : Option String := none
  space : Option String := none
  memoryType : Option String := none
  deriving DecidableEq

/-- A query of the corpus. -/
structure Query where
  queryId : String
  split : String
  kind : String
  expectedBehavior : String
  ownerId : String
  query : String
  filters : QueryFilters := {}
  deriving DecidableEq

/-- `filters.get("state", "active")`. -/
def Query.expectedState (query : Query) : String := query.filters.state.getD "active"

/-- `not wanted or value == wanted`, for a filter that may be absent or empty. -/
def admits (wanted : Option String) (value : String) : Bool :=
  match wanted with
  | none => true
  | some wanted => decide (wanted = "") || decide (value = wanted)

/-- `tuple(sorted(set(items)))`. -/
def sortedSet (items : List String) : List String := items.dedup.insertionSort (· ≤ ·)

theorem mem_sortedSet {items : List String} {item : String} :
    item ∈ sortedSet items ↔ item ∈ items := by
  unfold sortedSet
  rw [List.mem_insertionSort, List.mem_dedup]

/-- `items[:limit]`; a negative limit counts from the end. -/
def upTo {α : Type} (limit : Int) (items : List α) : List α :=
  if 0 ≤ limit then items.take limit.toNat else items.take (items.length + limit).toNat

theorem mem_of_mem_upTo {α : Type} {limit : Int} {items : List α} {a : α}
    (h : a ∈ upTo limit items) : a ∈ items := by
  unfold upTo at h
  split at h <;> exact List.mem_of_mem_take h

theorem map_upTo {α β : Type} (f : α → β) (limit : Int) (items : List α) :
    (upTo limit items).map f = upTo limit (items.map f) := by
  unfold upTo
  rw [List.length_map]
  split <;> rw [List.map_take]

/-! ## Ranking -/

/-- `max(0.0, min(1.0, similarity))`. -/
def clampUnit (similarity : R) : R :=
  Python.max (Python.ofInt 0) (Python.min (Python.ofInt 1) similarity)

/-- `_serving_score`. -/
def servingScore (similarity : R) (memory : Record R) : R :=
  Python.add
    (Python.add (Python.mul (Python.decimal 75 2) similarity)
      (Python.mul (Python.decimal 15 2) memory.importance))
    (Python.mul (Python.decimal 10 2) memory.confidence)

/-- The records that the filters of a query let through. -/
def eligible (query : Query) (records : List (Record R)) : List (Record R) :=
  records.filter fun memory =>
    decide (memory.ownerId = query.ownerId) && decide (memory.state = query.expectedState) &&
      admits query.filters.space memory.space && admits query.filters.memoryType memory.memoryType

/-- `key=lambda item: (-item[0], str(item[1]["memory_id"]))`. -/
def similarityLe (a b : R × Record R) : Bool :=
  descThen a.1 b.1 (decide (a.2.memoryId ≤ b.2.memoryId))

/-- `rank_before_threshold`, with the similarity of each record to the query. -/
def rankBeforeThreshold (query : Query) (records : List (Record R)) (similarity : Record R → R)
    (candidateLimit : Int) : List (R × Record R) :=
  upTo candidateLimit (((eligible query records).map fun memory => (similarity memory, memory))
    |>.insertionSort fun a b => similarityLe a b = true)

/-- `key=lambda item: (-_serving_score(*item), -item[0], str(item[1]["memory_id"]))`. -/
def servingLe (a b : R × Record R) : Bool :=
  descThen (servingScore a.1 a.2) (servingScore b.1 b.2)
    (descThen a.1 b.1 (decide (a.2.memoryId ≤ b.2.memoryId)))

/-- What is wrong with returning a memory. -/
def isolationFailures (query : Query) (memory : Record R) : List String :=
  (if memory.ownerId = query.ownerId then [] else ["owner"]) ++
    (if memory.state = query.expectedState then [] else ["state"]) ++
    (if admits query.filters.space memory.space then [] else ["space"]) ++
    (if admits query.filters.memoryType memory.memoryType then [] else ["type"])

/-- `_metadata`. -/
def metadataOf (memory : Record R) : Dict String String :=
  (((∅ : Dict String String).set "memory_type" memory.memoryType).set "space" memory.space).set
    "state" memory.state

omit [Python R] in
theorem isolationFailures_eligible {query : Query} {records : List (Record R)} {memory : Record R}
    (h : memory ∈ eligible query records) : isolationFailures query memory = [] := by
  have hpass := (List.mem_filter.mp h).2
  simp only [Bool.and_eq_true, decide_eq_true_eq] at hpass
  obtain ⟨⟨⟨howner, hstate⟩, hspace⟩, htype⟩ := hpass
  unfold isolationFailures
  rw [if_pos howner, if_pos hstate, if_pos hspace, if_pos htype]
  rfl

section Outcomes

-- `f"{score:.6f}"`
variable (fixed6 : R → String)

/-- `outcome_at_threshold`. -/
def outcomeAtThreshold (query : Query) (ranked : List (R × Record R)) (resultLimit : Int)
    (threshold : R) : QueryOutcome :=
  let reaching := (ranked.map fun item => (clampUnit item.1, item.2)).filter fun item =>
    Python.le threshold item.1
  let returned := upTo resultLimit (reaching.insertionSort fun a b => servingLe a b = true)
  { queryId := query.queryId
    split := "development"
    kind := query.kind
    expectedBehavior := query.expectedBehavior
    returnedIds := returned.map fun item => item.2.memoryId
    returnedMetadata := returned.map fun item =>
      (metadataOf item.2).set "score" (fixed6 (servingScore item.1 item.2))
    deterministicFailures := sortedSet (returned.flatMap fun item =>
      isolationFailures query item.2) }

/-- `retrieve`, with the limits and the threshold of the candidate model. -/
def retrieve (query : Query) (records : List (Record R)) (similarity : Record R → R)
    (candidateLimit resultLimit : Int) (threshold : R) : QueryOutcome :=
  outcomeAtThreshold fixed6 query (rankBeforeThreshold query records similarity candidateLimit)
    resultLimit threshold

/-- The filters run before the ranking, so a retrieval never fails isolation. -/
theorem retrieve_failures (query : Query) (records : List (Record R)) (similarity : Record R → R)
    (candidateLimit resultLimit : Int) (threshold : R) :
    (retrieve fixed6 query records similarity candidateLimit resultLimit threshold
      ).deterministicFailures = [] := by
  refine List.eq_nil_iff_forall_not_mem.mpr fun failure hfailure => ?_
  obtain ⟨item, hitem, hin⟩ := List.mem_flatMap.mp (mem_sortedSet.mp hfailure)
  have hreach := (List.mem_insertionSort _).mp (mem_of_mem_upTo hitem)
  obtain ⟨entry, hentry, rfl⟩ := List.mem_map.mp (List.mem_of_mem_filter hreach)
  have hsorted := (List.mem_insertionSort _).mp (mem_of_mem_upTo hentry)
  obtain ⟨memory, hmemory, rfl⟩ := List.mem_map.mp hsorted
  rw [isolationFailures_eligible hmemory] at hin
  exact List.not_mem_nil hin

end Outcomes

/-! ## What decides the order -/

/-- What the ranking of a candidate depends on. -/
structure Signals (R : Type) where
  similarity : R
  importance : R
  confidence : R
  id : String

namespace Signals

def clamped (s : Signals R) : R := clampUnit s.similarity

def score (s : Signals R) : R :=
  Python.add
    (Python.add (Python.mul (Python.decimal 75 2) s.clamped)
      (Python.mul (Python.decimal 15 2) s.importance))
    (Python.mul (Python.decimal 10 2) s.confidence)

/-- The similarity reaches the threshold. -/
def survives (threshold : R) (s : Signals R) : Bool := Python.le threshold s.clamped

/-- Greater scores first, then greater similarities, then smaller ids. -/
def exactLe (a b : Signals R) : Bool :=
  descThen a.score b.score (descThen a.clamped b.clamped (decide (a.id ≤ b.id)))

/-- The same with six decimals. -/
def roundedLe (a b : Signals R) : Bool :=
  descThen (Python.round6 a.score) (Python.round6 b.score)
    (descThen (Python.round6 a.clamped) (Python.round6 b.clamped) (decide (a.id ≤ b.id)))

theorem exactLe_antisymm {a b : Signals R} (h : exactLe a b = true) (h' : exactLe b a = true) :
    a.id = b.id := by
  obtain ⟨hsim, hsim'⟩ := descThen_antisymm h h'
  obtain ⟨hid, hid'⟩ := descThen_antisymm hsim hsim'
  exact le_antisymm (of_decide_eq_true hid) (of_decide_eq_true hid')

theorem roundedLe_antisymm {a b : Signals R} (h : roundedLe a b = true)
    (h' : roundedLe b a = true) : a.id = b.id := by
  obtain ⟨hsim, hsim'⟩ := descThen_antisymm h h'
  obtain ⟨hid, hid'⟩ := descThen_antisymm hsim hsim'
  exact le_antisymm (of_decide_eq_true hid) (of_decide_eq_true hid')

end Signals

/-- The signals of an entry of the harness. -/
def signalsOf (entry : R × Record R) : Signals R where
  similarity := entry.1
  importance := entry.2.importance
  confidence := entry.2.confidence
  id := entry.2.memoryId

/-- The signals of a candidate of `search`. -/
def servedSignals (candidate : MemorySearchCandidate R) : Signals R where
  similarity := candidate.similarity
  importance := candidate.memory.importance
  confidence := candidate.memory.confidence
  id := candidate.memory.id.str

/-- The harness returns the first of the surviving signals, by their exact scores. -/
theorem outcomeAtThreshold_ids (fixed6 : R → String) (query : Query) (ranked : List (R × Record R))
    (limit : Int) (threshold : R) :
    (outcomeAtThreshold fixed6 query ranked limit threshold).returnedIds
      = (upTo limit (((ranked.map signalsOf).filter (Signals.survives threshold)).insertionSort
          fun a b => Signals.exactLe a b = true)).map Signals.id := by
  let clamp (item : R × Record R) : R × Record R := (clampUnit item.1, item.2)
  let reaching := ((ranked.map clamp).filter fun item => Python.le threshold item.1)
  let kept := ranked.filter fun item => Signals.survives threshold (signalsOf item)
  have hreaching : reaching = kept.map clamp := List.filter_map
  have hsort : (kept.insertionSort fun a b =>
        Signals.exactLe (signalsOf a) (signalsOf b) = true).map clamp
      = reaching.insertionSort fun a b => servingLe a b = true := by
    rw [hreaching]
    exact List.map_insertionSort _ _ _ _ fun a _ b _ => Iff.rfl
  show (upTo limit (reaching.insertionSort fun a b => servingLe a b = true)).map
    (fun item => item.2.memoryId) = _
  rw [← hsort, map_upTo, map_upTo, List.map_map, List.filter_map, ← List.map_insertionSort
    (fun a b => Signals.exactLe (signalsOf a) (signalsOf b) = true) _ signalsOf _
    (fun a _ b _ => Iff.rfl), List.map_map]
  rfl

/-- `search` returns the first of them by their scores with six decimals. -/
theorem topRanked_ids {profile : EmbeddingProfile} {threshold : R}
    {cs : List (MemorySearchCandidate R)} (hcs : ∀ c ∈ cs, c.profile = profile) (limit : Int) :
    (rankSearch profile threshold cs).map (fun ranked =>
        (topRanked ranked limit).map fun item => item.memory.id.str)
      = .ok (((((cs.map servedSignals).filter (Signals.survives threshold)).insertionSort
          fun a b => Signals.roundedLe a b = true).take limit.toNat).map Signals.id) := by
  have hreaches : reaches threshold = fun c : MemorySearchCandidate R =>
      Signals.survives threshold (servedSignals c) := by
    funext c
    exact Bool.not_not (Python.le threshold (clampedSimilarity c))
  rw [rankSearch_eq threshold hcs, hreaches]
  let kept := cs.filter fun c => Signals.survives threshold (servedSignals c)
  let rank (c : MemorySearchCandidate R) := rankedItem profile (searchReason c) c
  have hitems : (kept.insertionSort fun a b =>
        Signals.roundedLe (servedSignals a) (servedSignals b) = true).map rank
      = (kept.map rank).insertionSort fun a b => rankLe a b = true :=
    List.map_insertionSort _ _ _ _ fun a _ b _ => Iff.rfl
  refine congrArg Except.ok ?_
  show (((kept.map rank).insertionSort fun a b => rankLe a b = true).take limit.toNat).map
    (fun item => item.memory.id.str) = _
  rw [← hitems, ← List.map_take, List.map_map, List.filter_map, ← List.map_insertionSort
    (fun a b => Signals.roundedLe (servedSignals a) (servedSignals b) = true) _ servedSignals _
    (fun a _ b _ => Iff.rfl), ← List.map_take, List.map_map]
  rfl

/-! ## Exact and rounded scores -/

/-- The survivors that come strictly before one by their exact scores. -/
def rankOf (survivors : List (Signals R)) (s : Signals R) : Nat :=
  survivors.countP fun t => decide (t.id ≠ s.id) && Signals.exactLe t s

/-- Rounding reverses no two survivors of which the first has fewer than `limit` before it. -/
def RoundingKeeps (limit : Int) (survivors : List (Signals R)) : Prop :=
  ∀ s ∈ survivors, ∀ t ∈ survivors, s.id ≠ t.id → Signals.exactLe s t = true →
    Signals.roundedLe t s = true → limit ≤ rankOf survivors s

instance (limit : Int) (survivors : List (Signals R)) : Decidable (RoundingKeeps limit survivors) :=
  inferInstanceAs (Decidable (∀ s ∈ survivors, ∀ t ∈ survivors, s.id ≠ t.id →
    Signals.exactLe s t = true → Signals.roundedLe t s = true → limit ≤ rankOf survivors s))

/-- The ids of `search`, for a list of candidates. -/
def servedIds (profile : EmbeddingProfile) (threshold : R) (limit : Int)
    (cs : List (MemorySearchCandidate R)) : Except PyError (List String) :=
  (rankSearch profile threshold cs).map fun ranked =>
    (topRanked ranked limit).map fun item => item.memory.id.str

section Orders

local instance exactLe_total : Std.Total fun a b : Signals R => Signals.exactLe a b = true where
  total a b := descThen_total (descThen_total (by simpa using le_total a.id b.id))

local instance exactLe_trans : IsTrans (Signals R) fun a b => Signals.exactLe a b = true where
  trans a b c := descThen_trans (descThen_trans (by simpa using le_trans))

local instance roundedLe_total : Std.Total fun a b : Signals R => Signals.roundedLe a b = true where
  total a b := descThen_total (descThen_total (by simpa using le_total a.id b.id))

local instance roundedLe_trans : IsTrans (Signals R) fun a b => Signals.roundedLe a b = true where
  trans a b c := descThen_trans (descThen_trans (by simpa using le_trans))

theorem first_iff_roundingKeeps {survivors : List (Signals R)}
    (hids : (survivors.map Signals.id).Nodup) {limit : Int} (hlimit : 0 ≤ limit) :
    (upTo limit (survivors.insertionSort fun a b => Signals.exactLe a b = true)).map Signals.id
        = ((survivors.insertionSort fun a b => Signals.roundedLe a b = true).take
          limit.toNat).map Signals.id ↔
      RoundingKeeps limit survivors := by
  have hexact := List.perm_insertionSort (fun a b => Signals.exactLe a b = true) survivors
  have hrounded := List.perm_insertionSort (fun a b => Signals.roundedLe a b = true) survivors
  unfold upTo RoundingKeeps
  rw [if_pos hlimit, map_take_eq_iff (List.pairwise_insertionSort _ _)
    (List.pairwise_insertionSort _ _) (hexact.trans hrounded.symm)
    ((hexact.map Signals.id).nodup_iff.mpr hids)
    (fun _ _ _ _ => Signals.exactLe_antisymm) fun _ _ _ _ => Signals.roundedLe_antisymm]
  have hcount : ∀ s, (survivors.insertionSort fun a b => Signals.exactLe a b = true).countP
        (fun c => decide (c.id ≠ s.id ∧ Signals.exactLe c s = true)) = rankOf survivors s := by
    intro s
    rw [hexact.countP_eq]
    exact List.countP_congr fun t _ => by simp
  simp only [List.mem_insertionSort, hcount, Int.toNat_le]

end Orders

/-- The harness returns what `search` returns just when rounding the scores to six decimals keeps
the order of the survivors that are returned. -/
theorem harness_orders_like_serving_iff (fixed6 : R → String) (query : Query)
    {ranked : List (R × Record R)} {cs : List (MemorySearchCandidate R)}
    (hsame : ranked.map signalsOf = cs.map servedSignals)
    (hids : (cs.map fun c => c.memory.id).Nodup) {profile : EmbeddingProfile}
    (hprofile : ∀ c ∈ cs, c.profile = profile) (threshold : R) {limit : Int} (hlimit : 1 ≤ limit) :
    servedIds profile threshold limit cs
        = .ok (outcomeAtThreshold fixed6 query ranked limit threshold).returnedIds ↔
      RoundingKeeps limit ((cs.map servedSignals).filter (Signals.survives threshold)) := by
  have hsignals : (((cs.map servedSignals).filter (Signals.survives threshold)).map
      Signals.id).Nodup := by
    refine List.Nodup.sublist (List.filter_sublist.map _) ?_
    rw [List.map_map]
    have hstr : (Signals.id ∘ servedSignals : MemorySearchCandidate R → String)
        = UUID.str ∘ fun c => c.memory.id := rfl
    rw [hstr, ← List.map_map]
    exact hids.map UUID.str_injective
  unfold servedIds
  rw [topRanked_ids hprofile, outcomeAtThreshold_ids, hsame,
    ← first_iff_roundingKeeps hsignals (by omega), Except.ok.injEq]
  exact eq_comm

/-- The record of the corpus for a note. -/
def recordOf (m : Memory ℚ) : Record ℚ where
  memoryId := m.id.str
  ownerId := m.ownerId
  memoryType := m.memoryType.value
  space := m.space.getD "none"
  state := m.state.value
  importance := m.importance
  confidence := m.confidence

/-- The query of `alice` for tea. -/
def teaQuery : Query where
  queryId := "q1"
  split := "development"
  kind := "semantic"
  expectedBehavior := "retrieve"
  ownerId := "alice"
  query := "tea"

/-- A candidate of the profile in use. -/
def foundWith (similarity : ℚ) (m : Memory ℚ) : MemorySearchCandidate ℚ where
  memory := m
  similarity := similarity
  profile := hashProvider.profile

theorem harness_orders_like_serving_iff_notes :
    servedIds hashProvider.profile (1 / 2) 5
        [foundWith (9 / 10) homeNote, foundWith (8 / 10) workNote]
      = .ok (outcomeAtThreshold (fixedDecimal 6) teaQuery
        [(9 / 10, recordOf homeNote), (8 / 10, recordOf workNote)] 5 (1 / 2)).returnedIds ∧
    RoundingKeeps 5 (([foundWith (9 / 10) homeNote, foundWith (8 / 10) workNote].map
        servedSignals).filter (Signals.survives (1 / 2))) := by
  have hkeeps : RoundingKeeps 5 (([foundWith (9 / 10) homeNote, foundWith (8 / 10) workNote].map
      servedSignals).filter (Signals.survives (1 / 2))) := by
    decide +kernel
  refine ⟨(harness_orders_like_serving_iff (fixedDecimal 6) teaQuery rfl ?_ ?_ (1 / 2)
    (by decide)).mpr hkeeps, hkeeps⟩
  · decide
  · simp [foundWith]

/-- Two scores that differ by less than half a millionth: the harness returns the greater one
first, `search` the smaller id. -/
theorem near_equal_scores_reversed :
    let ranked := [(9000001 / 10000000, recordOf homeNote), (9 / 10, recordOf workNote)]
    let cs := [foundWith (9000001 / 10000000) homeNote, foundWith (9 / 10) workNote]
    ranked.map signalsOf = cs.map servedSignals ∧
      (outcomeAtThreshold (fixedDecimal 6) teaQuery ranked 5 (1 / 2)).returnedIds
        = [homeNote.id.str, workNote.id.str] ∧
      servedIds hashProvider.profile (1 / 2) 5 cs
        = .ok [workNote.id.str, homeNote.id.str] := by
  refine ⟨rfl, by decide +kernel, by decide +kernel⟩

end OpenMemory.Evals
