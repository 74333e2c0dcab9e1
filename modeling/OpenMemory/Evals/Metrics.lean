import OpenMemory.Domain.Python
import OpenMemory.Lib.Grouping
import OpenMemory.Lib.Txn

/-!
# Retrieval metrics (`evals/metrics.py`)

What an evaluation counts: `aggregateMetrics` over some outcomes, and `sliceMetrics`, which
aggregates every slice of them. Ratios are of a type `F` with the operations of `Ratio`, which may
round as they like: floats do, the rationals do not. `relevance[query_id]` may raise `KeyError` for
a query without labels (the runner's `defaultdict` does not).

A query is appended to a slice once for each entry of its metadata that names the slice
(`group_sliceGroups`), so a query with two targets of one type counts twice in the slice of that
type (`one_query_counted_twice`). `slices_count_queries_iff`: the slices count queries just when
no query has two entries with the same value.
-/

namespace OpenMemory.Evals

open Lib

/-- `QueryOutcome`. -/
structure QueryOutcome where
  queryId : String
  split : String
  kind : String
  expectedBehavior : String
  returnedIds : List String
  returnedMetadata : List (Dict String String) := []
  targetMetadata : List (Dict String String) := []
  deterministicFailures : List String := []
  deriving DecidableEq

/-- `relevance[query_id]`, the grades of the labelled memories of a query; `none` for `KeyError`. -/
abbrev Relevance : Type := String → Option (Dict String Int)

/-- A `defaultdict(dict)` of labels. -/
def labelled (labels : Dict String (Dict String Int)) : Relevance :=
  fun queryId => some ((labels.get? queryId).getD ∅)

/-- Numbers in which ratios are computed and compared. Nothing is asked of the rounding. -/
class Ratio (F : Type) where
  /-- `0.0`. -/
  zero : F
  /-- `m / n`, of two integers. -/
  ofCounts : Nat → Nat → F
  /-- `sum(values)`. -/
  sum : List F → F
  /-- `x / n`. -/
  divLength : F → Nat → F
  /-- The literal of so many hundredths, `0.90` or `1.0`. -/
  percent : Nat → F
  /-- `x <= y`. -/
  le : F → F → Bool

namespace Ratio

variable {F : Type} [Ratio F]

/-- `x == y`. -/
def eq (x y : F) : Bool := le x y && le y x

/-- `x < y`. -/
def lt (x y : F) : Bool := !le y x

end Ratio

/-- Ratios that are not rounded. -/
instance : Ratio ℚ where
  zero := 0
  ofCounts m n := m / n
  sum := List.sum
  divLength x n := x / n
  percent n := n / 100
  le x y := decide (x ≤ y)

theorem Ratio.eq_iff_of_rat (x y : ℚ) : Ratio.eq x y = true ↔ x = y := by
  unfold Ratio.eq
  rw [Bool.and_eq_true]
  exact (and_congr decide_eq_true_iff decide_eq_true_iff).trans le_antisymm_iff.symm

section Aggregate

variable {F : Type} [Ratio F]

/-- `sum(values) / len(values) if values else 0.0`. -/
def mean (values : List F) : F :=
  if values.isEmpty then Ratio.zero else Ratio.divLength (Ratio.sum values) values.length

/-- The share of the first `k` results that are in the set. -/
def shareAtK (outcome : QueryOutcome) (ids : List String) (k : Nat) : F :=
  let returned := outcome.returnedIds.take k
  if returned = [] then Ratio.zero
  else Ratio.ofCounts (returned.countP fun item => decide (item ∈ ids)) returned.length

/-- `precision_at_k`. -/
def precisionAtK (outcome : QueryOutcome) (relevantIds : List String) (k : Nat) : F :=
  shareAtK outcome relevantIds k

/-- `intrusion_at_k`. -/
def intrusionAtK (outcome : QueryOutcome) (intrusiveIds : List String) (k : Nat) : F :=
  shareAtK outcome intrusiveIds k

/-- `abstention_rate`. -/
def abstentionRate (outcomes : List QueryOutcome) : F :=
  let negatives := outcomes.filter fun item => decide (item.expectedBehavior = "abstain")
  if negatives = [] then Ratio.zero
  else Ratio.ofCounts (negatives.countP fun item => decide (item.returnedIds = [])) negatives.length

/-- What `aggregate_metrics` publishes. -/
structure Metrics (F : Type) where
  queries : Nat
  positiveQueries : Nat
  negativeQueries : Nat
  precisionAt5 : F
  intrusionAt5 : F
  abstentionRate : F
  lifecycleIsolationCorrectness : F
  deterministicChecks : Nat
  deterministicChecksPassed : Nat
  deriving DecidableEq

/-- The memories of `relevance[query_id]` whose grade has the property. -/
def graded (relevance : Relevance) (queryId : String) (grade : Int → Bool) :
    Except PyError (List String) :=
  match relevance queryId with
  | none => .error .keyError
  | some grades => .ok ((grades.items.filter fun e => grade e.2).map Prod.fst)

/-- `aggregate_metrics`. -/
def aggregateMetrics (outcomes : List QueryOutcome) (relevance : Relevance) :
    Except PyError (Metrics F) := do
  let positives := outcomes.filter fun item => decide (item.expectedBehavior = "retrieve")
  let precisions ← positives.mapM fun item => do
    let relevantIds ← graded relevance item.queryId fun grade => decide (0 < grade)
    pure (precisionAtK item relevantIds 5)
  let intrusions ← outcomes.mapM fun item => do
    let intrusiveIds ← graded relevance item.queryId fun grade => decide (grade = 0)
    pure (intrusionAtK item intrusiveIds 5)
  let deterministicPassed := outcomes.countP fun item => decide (item.deterministicFailures = [])
  pure
    { queries := outcomes.length
      positiveQueries := positives.length
      negativeQueries := outcomes.length - positives.length
      precisionAt5 := mean precisions
      intrusionAt5 := mean intrusions
      abstentionRate := Evals.abstentionRate outcomes
      lifecycleIsolationCorrectness :=
        if outcomes.length = 0 then Ratio.zero
        else Ratio.ofCounts deterministicPassed outcomes.length
      deterministicChecks := outcomes.length
      deterministicChecksPassed := deterministicPassed }

end Aggregate

/-! ## Slices -/

/-- The dimensions of the slices. -/
inductive Dimension
  | split | queryKind | memoryType | space | state
  deriving DecidableEq, Repr

def Dimension.value : Dimension → String
  | .split => "split"
  | .queryKind => "query_kind"
  | .memoryType => "memory_type"
  | .space => "space"
  | .state => "state"

/-- `groups`. -/
abbrev Groups : Type := Dimension → Dict String (List QueryOutcome)

/-- `groups[dimension][name].append(outcome)`. -/
def Groups.append (groups : Groups) (dimension : Dimension) (name : String)
    (outcome : QueryOutcome) : Groups :=
  fun d => if d = dimension then (groups d).append name outcome else groups d

/-- `value := metadata.get(dimension)`, if it is not empty. -/
def valueOf (dimension : Dimension) (metadata : Dict String String) : Option String :=
  match metadata.get? dimension.value with
  | none => none
  | some value => if value = "" then none else some value

/-- One entry of the metadata. -/
def addMetadata (outcome : QueryOutcome) (groups : Groups) (metadata : Dict String String) :
    Groups :=
  [Dimension.memoryType, .space, .state].foldl (fun groups dimension =>
    match valueOf dimension metadata with
    | none => groups
    | some value => groups.append dimension value outcome) groups

/-- `outcome.target_metadata or outcome.returned_metadata`. -/
def QueryOutcome.slicedMetadata (outcome : QueryOutcome) : List (Dict String String) :=
  if outcome.targetMetadata = [] then outcome.returnedMetadata else outcome.targetMetadata

/-- One outcome. -/
def addOutcome (groups : Groups) (outcome : QueryOutcome) : Groups :=
  outcome.slicedMetadata.foldl (addMetadata outcome)
    ((groups.append .split outcome.split outcome).append .queryKind outcome.kind outcome)

/-- The outcomes of every slice. -/
def sliceGroups (outcomes : List QueryOutcome) : Groups :=
  outcomes.foldl addOutcome fun _ => ∅

variable {F : Type} [Ratio F]

/-- The slices of a dimension, in the order of their names. -/
def publish (relevance : Relevance) (groups : Dict String (List QueryOutcome)) :
    Except PyError (List (String × Metrics F)) :=
  (groups.items.insertionSort fun a b => a.1 ≤ b.1).mapM fun (name, items) => do
    let metrics ← aggregateMetrics items relevance
    pure (name, metrics)

/-- `slice_metrics`. -/
def sliceMetrics (outcomes : List QueryOutcome) (relevance : Relevance) :
    Except PyError (Dimension → List (String × Metrics F)) := do
  let groups := sliceGroups outcomes
  let split ← publish relevance (groups .split)
  let queryKind ← publish relevance (groups .queryKind)
  let memoryType ← publish relevance (groups .memoryType)
  let space ← publish relevance (groups .space)
  let state ← publish relevance (groups .state)
  pure fun
    | .split => split
    | .queryKind => queryKind
    | .memoryType => memoryType
    | .space => space
    | .state => state

/-! ## What is in a slice -/

/-- The names under which an outcome is appended. -/
def QueryOutcome.names (outcome : QueryOutcome) : Dimension → List String
  | .split => [outcome.split]
  | .queryKind => [outcome.kind]
  | dimension => outcome.slicedMetadata.filterMap (valueOf dimension)

/-- What one entry of the metadata appends. -/
def entriesOf (outcome : QueryOutcome) (metadata : Dict String String) (d : Dimension) :
    List (String × QueryOutcome) :=
  match d with
  | .split | .queryKind => []
  | d => (valueOf d metadata).toList.map fun name => (name, outcome)

theorem addMetadata_apply (outcome : QueryOutcome) (groups : Groups)
    (metadata : Dict String String) (d : Dimension) :
    addMetadata outcome groups metadata d
      = (groups d).appendAll (entriesOf outcome metadata d) := by
  unfold addMetadata
  simp only [List.foldl_cons, List.foldl_nil]
  cases d with
  | split | queryKind =>
    cases valueOf .memoryType metadata <;> cases valueOf .space metadata <;>
      cases valueOf .state metadata <;> rfl
  | memoryType =>
    cases hm : valueOf .memoryType metadata <;> cases valueOf .space metadata <;>
      cases valueOf .state metadata <;> simp [entriesOf, Groups.append, Dict.appendAll, hm]
  | space =>
    cases valueOf .memoryType metadata <;> cases hs : valueOf .space metadata <;>
      cases valueOf .state metadata <;> simp [entriesOf, Groups.append, Dict.appendAll, hs]
  | state =>
    cases valueOf .memoryType metadata <;> cases valueOf .space metadata <;>
      cases ht : valueOf .state metadata <;> simp [entriesOf, Groups.append, Dict.appendAll, ht]

theorem foldl_addMetadata_apply (outcome : QueryOutcome) (entries : List (Dict String String))
    (groups : Groups) (d : Dimension) :
    entries.foldl (addMetadata outcome) groups d
      = (groups d).appendAll (entries.flatMap fun metadata => entriesOf outcome metadata d) := by
  induction entries generalizing groups with
  | nil => rfl
  | cons metadata entries ih =>
    rw [List.foldl_cons, ih, addMetadata_apply, List.flatMap_cons, Dict.appendAll_append]

theorem flatMap_toList_map {α β γ : Type} (f : α → Option β) (g : β → γ) (l : List α) :
    (l.flatMap fun a => (f a).toList.map g) = (l.filterMap f).map g := by
  induction l with
  | nil => rfl
  | cons a l ih => cases h : f a <;> simp [h, ih]

/-- An outcome is appended under each of its names. -/
theorem addOutcome_apply (groups : Groups) (outcome : QueryOutcome) (d : Dimension) :
    addOutcome groups outcome d
      = (groups d).appendAll ((outcome.names d).map fun name => (name, outcome)) := by
  unfold addOutcome
  rw [foldl_addMetadata_apply]
  cases d with
  | split | queryKind =>
    have hnone : outcome.slicedMetadata.flatMap
        (fun _ => ([] : List (String × QueryOutcome))) = [] := by simp
    simp only [entriesOf, hnone]
    rfl
  | memoryType | space | state =>
    simp only [entriesOf, flatMap_toList_map]
    rfl

/-- The slices hold every outcome under each of its names, in order. -/
theorem sliceGroups_apply (outcomes : List QueryOutcome) (d : Dimension) :
    sliceGroups outcomes d = (∅ : Dict String (List QueryOutcome)).appendAll
      (outcomes.flatMap fun o => (o.names d).map fun name => (name, o)) := by
  have hfold : ∀ (outcomes : List QueryOutcome) (groups : Groups),
      outcomes.foldl addOutcome groups d = (groups d).appendAll
        (outcomes.flatMap fun o => (o.names d).map fun name => (name, o)) := by
    intro outcomes
    induction outcomes with
    | nil => exact fun _ => rfl
    | cons o outcomes ih =>
      intro groups
      rw [List.foldl_cons, ih, addOutcome_apply, List.flatMap_cons, Dict.appendAll_append]
  exact hfold outcomes _

/-- A slice holds a query as many times as its metadata names the slice. -/
theorem group_sliceGroups (outcomes : List QueryOutcome) (d : Dimension) (name : String) :
    (sliceGroups outcomes d).group name
      = outcomes.flatMap fun o => List.replicate ((o.names d).count name) o := by
  rw [sliceGroups_apply, Dict.group_appendAll]
  have hempty : (∅ : Dict String (List QueryOutcome)).group name = [] := rfl
  rw [hempty, List.nil_append, List.filter_flatMap, List.map_flatMap]
  congr 1
  funext o
  induction o.names d with
  | nil => rfl
  | cons first names ih =>
    rw [List.map_cons, List.filter_cons, List.count_cons]
    by_cases h : first = name
    · simp [h, ih, List.replicate_succ]
    · simpa [h] using ih

/-! ## Counting queries -/

/-- Every slice holds distinct queries, the slices of `split` and of `query_kind` partition the
outcomes, and a query with targets is in the slices that its targets name. -/
structure CountsQueries (outcomes : List QueryOutcome) (groups : Groups) : Prop where
  once : ∀ d name, (((groups d).group name).map QueryOutcome.queryId).Nodup
  split : ∀ name, (groups .split).group name
    = outcomes.filter fun o => decide (o.split = name)
  kind : ∀ name, (groups .queryKind).group name
    = outcomes.filter fun o => decide (o.kind = name)
  targets : ∀ o ∈ outcomes, o.targetMetadata ≠ [] →
    ∀ d ∈ [Dimension.memoryType, .space, .state], ∀ name,
      o ∈ (groups d).group name ↔ ∃ metadata ∈ o.targetMetadata, valueOf d metadata = some name

/-- No two entries of the metadata have the same value. -/
def NamesOnce (outcome : QueryOutcome) : Prop :=
  ∀ d ∈ [Dimension.memoryType, .space, .state], (outcome.names d).Nodup

theorem namesOnce_iff_count (outcome : QueryOutcome) :
    NamesOnce outcome ↔ ∀ d name, (outcome.names d).count name ≤ 1 := by
  constructor
  · intro h d
    cases d with
    | split | queryKind => exact List.nodup_iff_count_le_one.mp (List.nodup_singleton _)
    | memoryType => exact List.nodup_iff_count_le_one.mp (h .memoryType (by simp))
    | space => exact List.nodup_iff_count_le_one.mp (h .space (by simp))
    | state => exact List.nodup_iff_count_le_one.mp (h .state (by simp))
  · exact fun h d _ => List.nodup_iff_count_le_one.mpr (h d)

theorem mem_group_sliceGroups {outcomes : List QueryOutcome} {d : Dimension} {name : String}
    {o : QueryOutcome} :
    o ∈ (sliceGroups outcomes d).group name ↔ o ∈ outcomes ∧ name ∈ o.names d := by
  rw [group_sliceGroups, List.mem_flatMap]
  constructor
  · rintro ⟨p, hp, ho⟩
    obtain ⟨hcount, rfl⟩ := List.mem_replicate.mp ho
    exact ⟨hp, List.count_pos_iff.mp (Nat.pos_of_ne_zero hcount)⟩
  · exact fun ⟨ho, hname⟩ =>
      ⟨o, ho, List.mem_replicate.mpr ⟨(List.count_pos_iff.mpr hname).ne', rfl⟩⟩

/-- A dimension of which each query has one name partitions the outcomes. -/
theorem group_of_singleton {d : Dimension} {f : QueryOutcome → String}
    (hd : ∀ o : QueryOutcome, o.names d = [f o]) (outcomes : List QueryOutcome) (name : String) :
    (sliceGroups outcomes d).group name = outcomes.filter fun o => decide (f o = name) := by
  rw [group_sliceGroups]
  induction outcomes with
  | nil => rfl
  | cons o outcomes ih =>
    rw [List.flatMap_cons, List.filter_cons, ih, hd]
    by_cases h : f o = name <;> simp [h]

theorem countsQueries_iff {outcomes : List QueryOutcome}
    (hids : (outcomes.map QueryOutcome.queryId).Nodup) :
    CountsQueries outcomes (sliceGroups outcomes) ↔ ∀ o ∈ outcomes, NamesOnce o := by
  constructor
  · intro h o ho
    rw [namesOnce_iff_count]
    intro d name
    have honce := h.once d name
    rw [group_sliceGroups] at honce
    exact (nodup_flatMap_replicate hids _).mp honce o ho
  · intro h
    refine ⟨fun d name => ?_, group_of_singleton (fun _ => rfl) outcomes,
      group_of_singleton (fun _ => rfl) outcomes, fun o ho htargets d hd name => ?_⟩
    · rw [group_sliceGroups]
      exact (nodup_flatMap_replicate hids _).mpr fun o ho =>
        (namesOnce_iff_count o).mp (h o ho) d name
    · have hnames : o.names d = o.targetMetadata.filterMap (valueOf d) := by
        simp only [List.mem_cons, List.not_mem_nil, or_false] at hd
        rcases hd with rfl | rfl | rfl <;>
          simp only [QueryOutcome.names, QueryOutcome.slicedMetadata, if_neg htargets]
      rw [mem_group_sliceGroups, hnames, List.mem_filterMap]
      exact and_iff_right ho

/-- A dimension publishes each of its groups, aggregated. -/
theorem publish_iff {relevance : Relevance} {groups : Dict String (List QueryOutcome)}
    {slices : List (String × Metrics F)} (h : publish relevance groups = .ok slices)
    (name : String) (metrics : Metrics F) :
    (name, metrics) ∈ slices ↔ ∃ items, groups.get? name = some items ∧
      aggregateMetrics items relevance = .ok metrics := by
  rw [mem_mapM_ok h]
  constructor
  · rintro ⟨⟨key, items⟩, hmem, hone⟩
    obtain ⟨metrics', hmetrics, hpair⟩ := except_bind_ok.mp hone
    cases hpair
    exact ⟨items, (groups.mem_items_iff _ _).mp ((List.mem_insertionSort _).mp hmem), hmetrics⟩
  · rintro ⟨items, hget, hmetrics⟩
    refine ⟨(name, items), (List.mem_insertionSort _).mpr ((groups.mem_items_iff _ _).mpr hget), ?_⟩
    exact except_bind_ok.mpr ⟨metrics, hmetrics, rfl⟩

theorem sliceMetrics_iff {outcomes : List QueryOutcome} {relevance : Relevance}
    {slices : Dimension → List (String × Metrics F)}
    (h : sliceMetrics outcomes relevance = .ok slices) (d : Dimension) (name : String)
    (metrics : Metrics F) :
    (name, metrics) ∈ slices d ↔ ∃ items, (sliceGroups outcomes d).get? name = some items ∧
      aggregateMetrics items relevance = .ok metrics := by
  obtain ⟨split, hsplit, h⟩ := except_bind_ok.mp h
  obtain ⟨queryKind, hkind, h⟩ := except_bind_ok.mp h
  obtain ⟨memoryType, htype, h⟩ := except_bind_ok.mp h
  obtain ⟨space, hspace, h⟩ := except_bind_ok.mp h
  obtain ⟨state, hstate, h⟩ := except_bind_ok.mp h
  cases h
  cases d with
  | split => exact publish_iff hsplit name metrics
  | queryKind => exact publish_iff hkind name metrics
  | memoryType => exact publish_iff htype name metrics
  | space => exact publish_iff hspace name metrics
  | state => exact publish_iff hstate name metrics

/-- The published slices are the groups, aggregated, and these count queries just when no query
has two entries of its metadata with the same value. -/
theorem slices_count_queries_iff {outcomes : List QueryOutcome} {relevance : Relevance}
    {slices : Dimension → List (String × Metrics F)}
    (hids : (outcomes.map QueryOutcome.queryId).Nodup)
    (h : sliceMetrics outcomes relevance = .ok slices) :
    (∀ d name metrics, (name, metrics) ∈ slices d ↔
        ∃ items, (sliceGroups outcomes d).get? name = some items ∧
          aggregateMetrics items relevance = .ok metrics) ∧
      (CountsQueries outcomes (sliceGroups outcomes) ↔ ∀ o ∈ outcomes, NamesOnce o) :=
  ⟨sliceMetrics_iff h, countsQueries_iff hids⟩

/-- A query with the given targets, one result and its labels. -/
def semanticQuery (targets : List (Dict String String)) : QueryOutcome :=
  { queryId := "q1", split := "holdout", kind := "semantic", expectedBehavior := "retrieve"
    returnedIds := ["m1"], targetMetadata := targets }

/-- The metadata of a fact in a space. -/
def factIn (space : String) : Dict String String :=
  ((∅ : Dict String String).set "memory_type" "fact").set "space" space

def twoLabels : Relevance :=
  labelled ((∅ : Dict String (Dict String Int)).set "q1"
    (((∅ : Dict String Int).set "m1" 2).set "m2" 2))

/-- The metadata of a preference in a space. -/
def preferenceIn (space : String) : Dict String String :=
  ((∅ : Dict String String).set "memory_type" "preference").set "space" space

/-- A query with a fact at work and a preference at home as targets, one with a fact at home, and
one with none. -/
def threeQueries : List QueryOutcome :=
  [semanticQuery [factIn "work", preferenceIn "home"],
    { semanticQuery [factIn "home"] with queryId := "q2", kind := "lexical" },
    { semanticQuery [] with queryId := "q3", expectedBehavior := "abstain", returnedIds := [] }]

/-- Of the three queries, two are in the slice of the facts and two in the slice of `home`. -/
theorem slices_count_queries_iff_threeQueries :
    ∃ slices : Dimension → List (String × Metrics ℚ),
      sliceMetrics threeQueries twoLabels = .ok slices ∧
      (slices .memoryType).map (fun e => (e.1, e.2.queries)) = [("fact", 2), ("preference", 1)] ∧
      (slices .space).map (fun e => (e.1, e.2.queries)) = [("home", 2), ("work", 1)] ∧
      CountsQueries threeQueries (sliceGroups threeQueries) := by
  have hcounts : (sliceMetrics (F := ℚ) threeQueries twoLabels).map (fun slices =>
      ((slices .memoryType).map (fun e => (e.1, e.2.queries)),
        (slices .space).map fun e => (e.1, e.2.queries)))
      = .ok ([("fact", 2), ("preference", 1)], [("home", 2), ("work", 1)]) := by
    decide +kernel
  obtain ⟨slices, hslices, heq⟩ := except_map_ok.mp hcounts
  obtain ⟨htypes, hspaces⟩ := Prod.mk.inj heq
  have honce : ∀ o ∈ threeQueries, NamesOnce o := by
    unfold NamesOnce
    decide +kernel
  exact ⟨slices, hslices, htypes, hspaces,
    (slices_count_queries_iff (by decide) hslices).2.mpr honce⟩

/-- Two targets that are facts, in two spaces: the slice of the facts counts the query twice. -/
theorem one_query_counted_twice :
    let outcomes := [semanticQuery [factIn "work", factIn "home"]]
    ((sliceMetrics (F := ℚ) outcomes twoLabels).map fun slices =>
        (slices .memoryType).map fun e => (e.1, e.2.queries)) = .ok [("fact", 2)] ∧
      ¬CountsQueries outcomes (sliceGroups outcomes) := by
  refine ⟨by decide +kernel, fun h => ?_⟩
  have honce := h.once .memoryType "fact"
  revert honce
  decide +kernel

end OpenMemory.Evals
