import OpenMemory.Evals.Runs
import OpenMemory.Lib.Folds

/-!
# Calibration of the threshold (`_calibration_artifact` of `evals/semantic_harness.py`)

Queries belong to episodes, and episodes to five folds. For each fold a threshold is selected on
the queries of the other folds, and the queries of the fold are evaluated with it. Metrics are
published if this gives as many outcomes as there are queries.

The selection reads the rankings and the labels of the other folds alone; the memories only give
the target metadata, and of the slices the selection looks at `query_kind`
(`selectThreshold_agree`). What the loop collects is `HeldOut`. Thresholds and metrics are numbers
of one type, whose ratios are rounded as the arithmetic does: all that the results need is that the
same ratios are computed from the same outcomes, in the same order.
-/

namespace OpenMemory.Evals

open Lib

variable {R : Type} [Python R] [Ratio R]

/-! ## Episodes -/

/-- The zeros of the decimal digits of Unicode (category `Nd`); the others follow theirs. -/
def digitZeros : List Nat :=
  [0x30, 0x660, 0x6f0, 0x7c0, 0x966, 0x9e6, 0xa66, 0xae6, 0xb66, 0xbe6, 0xc66, 0xce6, 0xd66, 0xde6,
    0xe50, 0xed0, 0xf20, 0x1040, 0x1090, 0x17e0, 0x1810, 0x1946, 0x19d0, 0x1a80, 0x1a90, 0x1b50,
    0x1bb0, 0x1c40, 0x1c50, 0xa620, 0xa8d0, 0xa900, 0xa9d0, 0xa9f0, 0xaa50, 0xabf0, 0xff10, 0x104a0,
    0x10d30, 0x11066, 0x110f0, 0x11136, 0x111d0, 0x112f0, 0x11450, 0x114d0, 0x11650, 0x116c0,
    0x11730, 0x118e0, 0x11950, 0x11c50, 0x11d50, 0x11da0, 0x16a60, 0x16ac0, 0x16b50, 0x1d7ce,
    0x1d7d8, 0x1d7e2, 0x1d7ec, 0x1d7f6, 0x1e140, 0x1e2f0, 0x1e950, 0x1fbf0]

/-- The value of a character that `\d` matches. -/
def decimalDigit (c : Char) : Option Nat :=
  (digitZeros.find? fun start => decide (start ≤ c.toNat ∧ c.toNat < start + 10)).map (c.toNat - ·)

/-- The digits of `re.fullmatch(r"episode-(\d+)", …)`. -/
def episodeDigits (episodeId : String) : Option (List Nat) :=
  match "episode-".toList.isPrefixOf? episodeId.toList with
  | none | some [] => none
  | some digits => digits.mapM decimalDigit

/-- `_episode_fold`. -/
def episodeFold (episodeId : String) : Except PyError Nat :=
  match episodeDigits episodeId with
  | none => .error (.valueError "development episode IDs must be numbered deterministically")
  | some digits =>
    if 4300 < digits.length then
      .error (.valueError ("Exceeds the limit (4300 digits) for integer string conversion: " ++
        "value has " ++ toString digits.length ++
        " digits; use sys.set_int_max_str_digits() to increase the limit"))
    else
      let number : Int := digits.foldl (fun n digit => 10 * n + digit) 0
      .ok ((number - 1) % 5).toNat

/-- A query with its episode. -/
structure EpisodeQuery extends Query where
  episodeId : String
  deriving DecidableEq

/-- The fold of a query, if its episode is numbered. -/
def EpisodeQuery.fold (query : EpisodeQuery) : Option Nat := (episodeFold query.episodeId).toOption

/-! ## The grid search -/

/-- A candidate model, as far as calibration reads it. -/
structure SemanticCandidate where
  resultLimit : Int
  p95BudgetMs : ℚ

/-- What is calibrated on. -/
structure CalibrationInput (R : Type) where
  queries : List EpisodeQuery
  rankings : Dict String (List (R × Record R))
  relevance : Relevance
  memoryById : Dict String (Record R)
  p95 : ℚ

/-- `round(0.50 + 0.01 * item, 2) for item in range(41)`. -/
def thresholds : List R := (List.range 41).map fun item => Python.decimal (50 + item) 2

/-- `_slice_floor_passes`. -/
def sliceFloorPasses (slices : Dimension → List (String × Metrics R)) : Bool :=
  (slices .queryKind).all fun slice =>
    decide (slice.2.positiveQueries < 5) || Ratio.le (Ratio.percent 60) slice.2.precisionAt5

/-- The metrics and the slices meet what a threshold is eligible for. -/
def meetsConstraints (metrics : Metrics R) (slices : Dimension → List (String × Metrics R)) :
    Bool :=
  Ratio.le (Ratio.percent 90) metrics.abstentionRate &&
    Ratio.le metrics.intrusionAt5 (Ratio.percent 10) &&
    Ratio.eq metrics.lifecycleIsolationCorrectness (Ratio.percent 100) && sliceFloorPasses slices

/-- `max` goes on to an item with a greater `(precision_at_5, threshold)`. -/
def exceeds (best item : R × Metrics R) : Bool :=
  Ratio.lt best.2.precisionAt5 item.2.precisionAt5 ||
    Ratio.eq best.2.precisionAt5 item.2.precisionAt5 && Python.lt best.1 item.1

/-- `max(eligible, key=…)`; `none` if there is none. -/
def bestOf : List (R × Metrics R) → Option (R × Metrics R)
  | [] => none
  | first :: rest =>
    some (rest.foldl (fun best item => if exceeds best item then item else best) first)

/-! ## Metrics without target metadata -/

/-- The outcome without its target metadata. -/
def QueryOutcome.untargeted (outcome : QueryOutcome) : QueryOutcome :=
  { outcome with targetMetadata := [] }

omit [Python R] in
theorem aggregateMetrics_untargeted (outcomes : List QueryOutcome) (relevance : Relevance) :
    aggregateMetrics (F := R) (outcomes.map QueryOutcome.untargeted) relevance
      = aggregateMetrics outcomes relevance := by
  unfold aggregateMetrics abstentionRate
  simp only [List.filter_map, List.mapM_map, List.countP_map, List.length_map, List.map_eq_nil_iff]
  rfl

omit [Python R] in
/-- The metrics depend on the labels of the queries they are about. -/
theorem aggregateMetrics_congr {outcomes : List QueryOutcome} {relevance relevance' : Relevance}
    (h : ∀ o ∈ outcomes, relevance o.queryId = relevance' o.queryId) :
    aggregateMetrics (F := R) outcomes relevance = aggregateMetrics outcomes relevance' := by
  have hshares : ∀ (items : List QueryOutcome) (grade : Int → Bool)
      (share : QueryOutcome → List String → R), items ⊆ outcomes →
      (items.mapM fun item => do
          let ids ← graded relevance item.queryId grade
          pure (share item ids))
        = (items.mapM fun item => do
          let ids ← graded relevance' item.queryId grade
          pure (share item ids)) := by
    intro items grade share hitems
    refine mapM_congr fun o ho => ?_
    unfold graded
    rw [h o (hitems ho)]
  unfold aggregateMetrics
  dsimp only
  rw [hshares _ _ (fun item ids => precisionAtK item ids 5) List.filter_sublist.subset,
    hshares _ _ (fun item ids => intrusionAtK item ids 5) (List.Subset.refl _)]

/-- The groups of `query_kind` are the outcomes of each kind. -/
theorem get?_sliceGroups_queryKind {outcomes items : List QueryOutcome} {kind : String} :
    (sliceGroups outcomes .queryKind).get? kind = some items ↔
      items = outcomes.filter (fun o => decide (o.kind = kind)) ∧ items ≠ [] := by
  rw [← group_of_singleton (d := .queryKind) (fun _ => rfl) outcomes kind, sliceGroups_apply]
  exact Dict.get?_appendAll_eq_some

omit [Python R] in
/-- The floor of the slices, by the outcomes of each kind. -/
theorem sliceFloorPasses_iff {outcomes : List QueryOutcome} {relevance : Relevance}
    {slices : Dimension → List (String × Metrics R)}
    (h : sliceMetrics outcomes relevance = .ok slices) :
    sliceFloorPasses slices = true ↔ ∀ (kind : String) (metrics : Metrics R),
      outcomes.filter (fun o => decide (o.kind = kind)) ≠ [] →
      aggregateMetrics (outcomes.filter fun o => decide (o.kind = kind)) relevance = .ok metrics →
      metrics.positiveQueries < 5 ∨
        Ratio.le (Ratio.percent 60) metrics.precisionAt5 = true := by
  unfold sliceFloorPasses
  rw [List.all_eq_true]
  constructor
  · intro hall kind metrics hne hmetrics
    have hmem : (kind, metrics) ∈ slices .queryKind :=
      (sliceMetrics_iff h _ _ _).mpr ⟨_, get?_sliceGroups_queryKind.mpr ⟨rfl, hne⟩, hmetrics⟩
    simpa using hall _ hmem
  · rintro hall ⟨kind, metrics⟩ hmem
    obtain ⟨items, hget, hmetrics⟩ := (sliceMetrics_iff h _ _ _).mp hmem
    obtain ⟨rfl, hne⟩ := get?_sliceGroups_queryKind.mp hget
    simpa using hall kind metrics hne hmetrics

omit [Python R] in
/-- Outcomes that differ in their target metadata have the same metrics, and only the labels of
their queries matter. -/
theorem aggregateMetrics_agree {outcomes outcomes' : List QueryOutcome}
    {relevance relevance' : Relevance}
    (hsame : outcomes'.map QueryOutcome.untargeted = outcomes.map QueryOutcome.untargeted)
    (hlabels : ∀ o ∈ outcomes, relevance o.queryId = relevance' o.queryId) :
    aggregateMetrics (F := R) outcomes' relevance' = aggregateMetrics outcomes relevance := by
  rw [aggregateMetrics_congr hlabels, ← aggregateMetrics_untargeted, hsame,
    aggregateMetrics_untargeted]

omit [Python R] in
/-- They also pass the floor of the slices together. -/
theorem sliceFloorPasses_agree {outcomes outcomes' : List QueryOutcome}
    {relevance relevance' : Relevance} {slices slices' : Dimension → List (String × Metrics R)}
    (hsame : outcomes'.map QueryOutcome.untargeted = outcomes.map QueryOutcome.untargeted)
    (hlabels : ∀ o ∈ outcomes, relevance o.queryId = relevance' o.queryId)
    (h : sliceMetrics outcomes relevance = .ok slices)
    (h' : sliceMetrics outcomes' relevance' = .ok slices') :
    sliceFloorPasses slices' = sliceFloorPasses slices := by
  rw [Bool.eq_iff_iff, sliceFloorPasses_iff h, sliceFloorPasses_iff h']
  refine forall_congr' fun kind => ?_
  have hkind : (outcomes'.filter fun o => decide (o.kind = kind)).map QueryOutcome.untargeted
      = (outcomes.filter fun o => decide (o.kind = kind)).map QueryOutcome.untargeted := by
    have hfilter := congrArg (List.filter fun o => decide (o.kind = kind)) hsame
    rwa [List.filter_map, List.filter_map] at hfilter
  have hnil : (outcomes'.filter fun o => decide (o.kind = kind)) ≠ []
      ↔ (outcomes.filter fun o => decide (o.kind = kind)) ≠ [] := by
    refine not_congr ?_
    rw [← List.map_eq_nil_iff (f := QueryOutcome.untargeted), hkind, List.map_eq_nil_iff]
  rw [hnil, aggregateMetrics_agree hkind fun o ho => hlabels o (List.mem_of_mem_filter ho)]

section Calibrate

-- `f"{score:.6f}"` and the candidate
variable (fixed6 : R → String) (candidate : SemanticCandidate)

/-- `outcome_at_threshold` of a query, with its ranking. -/
def rankedOutcome (input : CalibrationInput R) (threshold : R) (query : EpisodeQuery) :
    Except PyError QueryOutcome :=
  match input.rankings.get? query.queryId with
  | none => .error .keyError
  | some ranked =>
    .ok (outcomeAtThreshold fixed6 query.toQuery ranked candidate.resultLimit threshold)

/-- The outcomes of some queries, with their target metadata. -/
def outcomesAt (input : CalibrationInput R) (queries : List EpisodeQuery) (threshold : R) :
    Except PyError (List QueryOutcome) := do
  let outcomes ← queries.mapM (rankedOutcome fixed6 candidate input threshold)
  withTargetMetadata input.memoryById input.relevance outcomes

/-- One threshold of the grid: what is appended to `eligible`. -/
def tryThreshold (input : CalibrationInput R) (calibrationQueries : List EpisodeQuery)
    (threshold : R) : Except PyError (Option (R × Metrics R)) := do
  let outcomes ← outcomesAt fixed6 candidate input calibrationQueries threshold
  let calibrationMetrics ← aggregateMetrics outcomes input.relevance
  let calibrationSlices ← sliceMetrics outcomes input.relevance
  pure (if meetsConstraints calibrationMetrics calibrationSlices then
    some (threshold, calibrationMetrics) else none)

/-- The selected threshold and its metrics. -/
def selectThreshold (input : CalibrationInput R) (calibrationQueries : List EpisodeQuery) :
    Except PyError (Option (R × Metrics R)) := do
  let tried ← thresholds.mapM (tryThreshold fixed6 candidate input calibrationQueries)
  pure (bestOf (tried.filterMap id))

/-! ## The folds -/

/-- An entry of `folds`. -/
structure FoldReport (R : Type) where
  fold : Nat
  calibrationEpisodeCount : Nat := 16
  validationEpisodeCount : Nat := 4
  selectedThreshold : Option R
  selection : Option String := none
  calibrationMetrics : Option (Metrics R) := none
  validationMetrics : Option (Metrics R) := none

/-- The entry of a fold for which no threshold is eligible. -/
def FoldReport.unselected (fold : Nat) : FoldReport R where
  fold := fold
  selectedThreshold := none
  selection := some "no threshold satisfies preregistered calibration constraints"

/-- `folds` and `oof`. -/
structure Calibration (R : Type) where
  folds : List (FoldReport R) := []
  oof : List QueryOutcome := []

/-- One round of the loop. -/
def calibrateFold (input : CalibrationInput R) (state : Calibration R) (fold : Nat) :
    Except PyError (Calibration R) := do
  let calibrationQueries ← input.queries.filterM fun query => do
    let own ← episodeFold query.episodeId
    pure (decide (own ≠ fold))
  let validationQueries ← input.queries.filterM fun query => do
    let own ← episodeFold query.episodeId
    pure (decide (own = fold))
  match ← selectThreshold fixed6 candidate input calibrationQueries with
  | none =>
    pure { state with folds := state.folds ++ [FoldReport.unselected fold] }
  | some (selectedThreshold, selectedMetrics) =>
    let validationOutcomes ← outcomesAt fixed6 candidate input validationQueries selectedThreshold
    let validationMetrics ← aggregateMetrics validationOutcomes input.relevance
    let entry : FoldReport R :=
      { fold
        selectedThreshold := some selectedThreshold
        calibrationMetrics := some selectedMetrics
        validationMetrics := some validationMetrics }
    pure { folds := state.folds ++ [entry], oof := state.oof ++ validationOutcomes }

/-- `for fold in range(5): …`. -/
def calibrate (input : CalibrationInput R) : Except PyError (Calibration R) :=
  (List.range 5).foldlM (calibrateFold fixed6 candidate input) {}

/-- `protocol`. -/
structure Protocol (R : Type) where
  folds : Nat := 5
  unit : String := "episode"
  thresholdGrid : List R
  selection : String := "abstention, intrusion, lifecycle/isolation and slice floor; " ++
    "then max precision@5; then higher threshold"

/-- What `_calibration_artifact` returns. -/
structure CalibrationArtifact (R : Type) where
  protocol : Protocol R
  folds : List (FoldReport R)
  outOfFoldMetrics : Option (Metrics R)
  outOfFoldSlices : Option (Dimension → List (String × Metrics R))
  decision : Decision
  reasons : List String

/-- `value if complete else None`. -/
def ifComplete {α : Type} (complete : Bool) (value : Except PyError α) :
    Except PyError (Option α) :=
  if complete then value.map some else pure none

/-- `_calibration_artifact`. -/
def calibrationArtifact (input : CalibrationInput R) : Except PyError (CalibrationArtifact R) := do
  let state ← calibrate fixed6 candidate input
  let complete := decide (state.oof.length = input.queries.length)
  let oofMetrics ← ifComplete complete (aggregateMetrics state.oof input.relevance)
  let oofSlices ← ifComplete complete (sliceMetrics state.oof input.relevance)
  let (decision, reasons) := match oofMetrics, oofSlices with
    | some metrics, some slices => Evals.decision metrics slices input.p95 candidate.p95BudgetMs
    | _, _ => (.noGo, ["one or more calibration folds had no eligible threshold"])
  pure
    { protocol := { thresholdGrid := thresholds }
      folds := state.folds
      outOfFoldMetrics := oofMetrics
      outOfFoldSlices := oofSlices
      decision
      reasons }

/-! ## What the selection reads -/

omit [Python R] [Ratio R] in
theorem withTargetMetadata_untargeted {memoryById : Dict String (Record R)} {relevance : Relevance}
    {outcomes outcomes' : List QueryOutcome}
    (h : withTargetMetadata memoryById relevance outcomes = .ok outcomes') :
    outcomes'.map QueryOutcome.untargeted = outcomes.map QueryOutcome.untargeted := by
  have hpairs := mapM_ok.mp h
  clear h
  induction hpairs with
  | nil => rfl
  | @cons o o' outcomes outcomes' hone _ ih =>
    obtain ⟨_, _, hone⟩ := except_bind_ok.mp hone
    obtain ⟨_, _, hone⟩ := except_bind_ok.mp hone
    obtain rfl := except_pure_ok.mp hone
    rw [List.map_cons, List.map_cons, ih]
    rfl

variable {fixed6 candidate}

/-- The outcome of one query at a threshold. -/
def EvaluatesTo (fixed6 : R → String) (candidate : SemanticCandidate) (input : CalibrationInput R)
    (threshold : R) (query : EpisodeQuery) (outcome : QueryOutcome) : Prop :=
  outcomesAt fixed6 candidate input [query] threshold = .ok [outcome]

omit [Ratio R] in
theorem outcomesAt_ok {input : CalibrationInput R} {queries : List EpisodeQuery} {threshold : R}
    {outcomes : List QueryOutcome}
    (h : outcomesAt fixed6 candidate input queries threshold = .ok outcomes) :
    List.Forall₂ (EvaluatesTo fixed6 candidate input threshold) queries outcomes := by
  obtain ⟨ranked, hranked, htargets⟩ := except_bind_ok.mp h
  have hpairs := mapM_ok.mp hranked
  have hall := mapM_ok.mp htargets
  clear h hranked htargets
  induction hpairs generalizing outcomes with
  | nil =>
    rw [List.forall₂_nil_left_iff.mp hall]
    exact .nil
  | @cons query first queries ranked hfirst _ ih =>
    obtain ⟨outcome, rest, hone, hrest, rfl⟩ := List.forall₂_cons_left_iff.mp hall
    refine .cons ?_ (ih hrest)
    exact except_bind_ok.mpr
      ⟨[first], mapM_ok.mpr (.cons hfirst .nil), mapM_ok.mpr (.cons hone .nil)⟩

omit [Ratio R] in
/-- An outcome is about its query. -/
theorem EvaluatesTo.queryId {input : CalibrationInput R} {threshold : R} {query : EpisodeQuery}
    {outcome : QueryOutcome} (h : EvaluatesTo fixed6 candidate input threshold query outcome) :
    outcome.queryId = query.queryId := by
  obtain ⟨ranked, hranked, htargets⟩ := except_bind_ok.mp h
  obtain ⟨first, _, hfirst, hnil, rfl⟩ := List.forall₂_cons_left_iff.mp (mapM_ok.mp hranked)
  obtain rfl := List.forall₂_nil_left_iff.mp hnil
  have hsame : outcome.untargeted = first.untargeted :=
    (List.cons.inj (withTargetMetadata_untargeted htargets)).1
  have hid : outcome.untargeted.queryId = first.untargeted.queryId := by rw [hsame]
  refine hid.trans ?_
  unfold rankedOutcome at hfirst
  cases hget : input.rankings.get? query.queryId with
  | none =>
    rw [hget] at hfirst
    cases hfirst
  | some ranked =>
    rw [hget] at hfirst
    rw [← Except.ok.inj hfirst]
    rfl

omit [Ratio R] in
/-- Outcomes of queries, each at some threshold, are about these queries. -/
theorem map_queryId_of_evaluatesTo {input : CalibrationInput R} {queries : List EpisodeQuery}
    {outcomes : List QueryOutcome}
    (h : List.Forall₂ (fun q o => ∃ t, EvaluatesTo fixed6 candidate input t q o) queries outcomes) :
    outcomes.map QueryOutcome.queryId = queries.map fun q => q.queryId := by
  induction h with
  | nil => rfl
  | @cons q o queries outcomes hone _ ih =>
    obtain ⟨t, ht⟩ := hone
    rw [List.map_cons, List.map_cons, ih, ht.queryId]

/-- One threshold, for two inputs that agree on the queries it is tried on. -/
theorem tryThreshold_agree {a b : CalibrationInput R} {queries : List EpisodeQuery}
    (hrankings : ∀ q ∈ queries, a.rankings.get? q.queryId = b.rankings.get? q.queryId)
    (hlabels : ∀ q ∈ queries, a.relevance q.queryId = b.relevance q.queryId) {threshold : R}
    {x y : Option (R × Metrics R)} (ha : tryThreshold fixed6 candidate a queries threshold = .ok x)
    (hb : tryThreshold fixed6 candidate b queries threshold = .ok y) : x = y := by
  obtain ⟨outcomes, houtcomes, ha⟩ := except_bind_ok.mp ha
  obtain ⟨metrics, hmetrics, ha⟩ := except_bind_ok.mp ha
  obtain ⟨slices, hslices, ha⟩ := except_bind_ok.mp ha
  obtain rfl := except_pure_ok.mp ha
  obtain ⟨outcomes', houtcomes', hb⟩ := except_bind_ok.mp hb
  obtain ⟨metrics', hmetrics', hb⟩ := except_bind_ok.mp hb
  obtain ⟨slices', hslices', hb⟩ := except_bind_ok.mp hb
  obtain rfl := except_pure_ok.mp hb
  have hsame : outcomes'.map QueryOutcome.untargeted = outcomes.map QueryOutcome.untargeted := by
    obtain ⟨ranked, hranked, htargets⟩ := except_bind_ok.mp houtcomes
    obtain ⟨ranked', hranked', htargets'⟩ := except_bind_ok.mp houtcomes'
    have hcongr : queries.mapM (rankedOutcome fixed6 candidate a threshold)
        = queries.mapM (rankedOutcome fixed6 candidate b threshold) := by
      refine mapM_congr fun q hq => ?_
      unfold rankedOutcome
      rw [hrankings q hq]
    rw [hcongr, hranked'] at hranked
    obtain rfl := Except.ok.inj hranked
    rw [withTargetMetadata_untargeted htargets, withTargetMetadata_untargeted htargets']
  have hrelevance : ∀ o ∈ outcomes, a.relevance o.queryId = b.relevance o.queryId := by
    intro o ho
    have hids := map_queryId_of_evaluatesTo ((outcomesAt_ok houtcomes).imp fun q o h => ⟨_, h⟩)
    obtain ⟨q, hq, hid⟩ := List.mem_map.mp (hids ▸ List.mem_map_of_mem ho)
    rw [← hid]
    exact hlabels q hq
  rw [aggregateMetrics_agree hsame hrelevance, hmetrics] at hmetrics'
  obtain rfl := Except.ok.inj hmetrics'
  unfold meetsConstraints
  rw [sliceFloorPasses_agree hsame hrelevance hslices hslices']

/-- What is selected depends on the rankings and the labels of the queries it is selected on, and
not on the memories. -/
theorem selectThreshold_agree {a b : CalibrationInput R} {queries : List EpisodeQuery}
    (hrankings : ∀ q ∈ queries, a.rankings.get? q.queryId = b.rankings.get? q.queryId)
    (hlabels : ∀ q ∈ queries, a.relevance q.queryId = b.relevance q.queryId)
    {x y : Option (R × Metrics R)} (ha : selectThreshold fixed6 candidate a queries = .ok x)
    (hb : selectThreshold fixed6 candidate b queries = .ok y) : x = y := by
  obtain ⟨tried, htried, ha⟩ := except_bind_ok.mp ha
  obtain ⟨tried', htried', hb⟩ := except_bind_ok.mp hb
  have hmap := mapM_agree (r := id) (s := id) htried htried' fun t _ _ _ ha hb =>
    tryThreshold_agree hrankings hlabels ha hb
  rw [List.map_id, List.map_id] at hmap
  rw [except_pure_ok.mp ha, except_pure_ok.mp hb, hmap]

/-! ## What the folds contribute -/

theorem episodeFold_lt {episodeId : String} {fold : Nat} (h : episodeFold episodeId = .ok fold) :
    fold < 5 := by
  unfold episodeFold at h
  cases hdigits : episodeDigits episodeId with
  | none =>
    rw [hdigits] at h
    cases h
  | some digits =>
    rw [hdigits] at h
    dsimp only at h
    split at h
    · cases h
    · cases h
      omega

theorem EpisodeQuery.fold_eq_some {query : EpisodeQuery} {fold : Nat} :
    query.fold = some fold ↔ episodeFold query.episodeId = .ok fold := by
  unfold EpisodeQuery.fold
  cases episodeFold query.episodeId <;> simp [Except.toOption]

/-- The comprehensions over the queries, by the fold of each. -/
theorem filterM_episodeFold {queries : List EpisodeQuery}
    (hnumbered : ∀ q ∈ queries, ∃ own, episodeFold q.episodeId = .ok own) (test : Nat → Bool) :
    (queries.filterM fun query => do
        let own ← episodeFold query.episodeId
        pure (test own))
      = .ok (queries.filter fun query => (query.fold.map test).getD false) := by
  refine filterM_ok fun q hq => ?_
  obtain ⟨own, hown⟩ := hnumbered q hq
  rw [hown, EpisodeQuery.fold_eq_some.mpr hown]
  rfl

/-- The fold selected this, on the queries of the other folds. -/
def Selects (fixed6 : R → String) (candidate : SemanticCandidate) (input : CalibrationInput R)
    (fold : Nat) (threshold : Option R) : Prop :=
  ∃ selected, selectThreshold fixed6 candidate input
      (outside EpisodeQuery.fold (some fold) input.queries) = .ok selected ∧
    threshold = selected.map Prod.fst

/-- What a round of the loop adds. -/
structure Round (fixed6 : R → String) (candidate : SemanticCandidate) (input : CalibrationInput R)
    (fold : Nat) (entry : FoldReport R) (part : List QueryOutcome) : Prop where
  fold_eq : entry.fold = fold
  selects : Selects fixed6 candidate input fold entry.selectedThreshold
  skipped : entry.selectedThreshold = none → part = []
  evaluated : ∀ t, entry.selectedThreshold = some t →
    List.Forall₂ (EvaluatesTo fixed6 candidate input t)
      (inside EpisodeQuery.fold (some fold) input.queries) part

theorem calibrateFold_ok {input : CalibrationInput R} {state state' : Calibration R} {fold : Nat}
    (h : calibrateFold fixed6 candidate input state fold = .ok state') :
    (∀ q ∈ input.queries, ∃ own, episodeFold q.episodeId = .ok own) ∧
      ∃ entry part, Round fixed6 candidate input fold entry part ∧
        state' = { folds := state.folds ++ [entry], oof := state.oof ++ part } := by
  obtain ⟨calibrationQueries, hcalibration, h⟩ := except_bind_ok.mp h
  obtain ⟨validationQueries, hvalidation, h⟩ := except_bind_ok.mp h
  obtain ⟨selected, hselected, hround⟩ := except_bind_ok.mp h
  have hnumbered : ∀ q ∈ input.queries, ∃ own, episodeFold q.episodeId = .ok own := by
    intro q hq
    obtain ⟨_, htest⟩ := forall_of_filterM_ok hcalibration q hq
    obtain ⟨own, hown, -⟩ := except_bind_ok.mp htest
    exact ⟨own, hown⟩
  have hfold : ∀ q ∈ input.queries, ∃ own, q.fold = some own := fun q hq =>
    (hnumbered q hq).imp fun _ => EpisodeQuery.fold_eq_some.mpr
  rw [filterM_episodeFold hnumbered fun own => decide (own ≠ fold)] at hcalibration
  rw [filterM_episodeFold hnumbered fun own => decide (own = fold)] at hvalidation
  have hout : calibrationQueries = outside EpisodeQuery.fold (some fold) input.queries := by
    rw [← Except.ok.inj hcalibration]
    refine List.filter_congr fun q hq => ?_
    obtain ⟨own, hown⟩ := hfold q hq
    simp [hown]
  have hin : validationQueries = inside EpisodeQuery.fold (some fold) input.queries := by
    rw [← Except.ok.inj hvalidation]
    refine List.filter_congr fun q hq => ?_
    obtain ⟨own, hown⟩ := hfold q hq
    simp [hown]
  subst hout hin
  refine ⟨hnumbered, ?_⟩
  match selected, hselected, hround with
  | none, hselected, hround =>
    obtain rfl := except_pure_ok.mp hround
    refine ⟨FoldReport.unselected fold, [],
      ⟨rfl, ⟨none, hselected, rfl⟩, fun _ => rfl, fun t ht => ?_⟩, ?_⟩
    · cases ht
    · rw [List.append_nil]
  | some (threshold, metrics), hselected, hround =>
    obtain ⟨part, hpart, hround⟩ := except_bind_ok.mp hround
    obtain ⟨validationMetrics, _, hround⟩ := except_bind_ok.mp hround
    obtain rfl := except_pure_ok.mp hround
    refine ⟨_, part, ?_, rfl⟩
    refine ⟨rfl, ⟨_, hselected, rfl⟩, fun hnone => ?_, fun t ht => ?_⟩
    · cases hnone
    · obtain rfl := Option.some.inj ht
      exact outcomesAt_ok hpart

/-- The threshold of a fold, by what the loop reported. -/
def thresholdOf (folds : List (FoldReport R)) (fold : Nat) : Option R :=
  (folds.find? fun entry => decide (entry.fold = fold)).bind FoldReport.selectedThreshold

/-- What the loop collects over some folds: an entry for each, and the outcomes that are held out,
for every table of thresholds that has these entries. -/
theorem foldlM_calibrateFold {input : CalibrationInput R} {folds : List Nat}
    {state state' : Calibration R}
    (h : folds.foldlM (calibrateFold fixed6 candidate input) state = .ok state') :
    ∃ entries results, state'.folds = state.folds ++ entries ∧ state'.oof = state.oof ++ results ∧
      List.Forall₂ (fun fold entry => entry.fold = fold ∧
        Selects fixed6 candidate input fold entry.selectedThreshold) folds entries ∧
      ∀ table : Option Nat → Option R,
        (∀ entry ∈ entries, table (some entry.fold) = entry.selectedThreshold) →
        HeldOut EpisodeQuery.fold table (EvaluatesTo fixed6 candidate input) input.queries
          (folds.map some) results := by
  induction folds generalizing state with
  | nil =>
    obtain rfl := except_pure_ok.mp h
    exact ⟨[], [], by simp, by simp, .nil, fun _ _ => .nil⟩
  | cons fold folds ih =>
    rw [List.foldlM_cons] at h
    obtain ⟨next, hnext, h⟩ := except_bind_ok.mp h
    obtain ⟨-, entry, part, hround, rfl⟩ := calibrateFold_ok hnext
    obtain ⟨entries, results, hfolds, hoof, hall, hheld⟩ := ih h
    refine ⟨entry :: entries, part ++ results, ?_, ?_, .cons ⟨hround.fold_eq, hround.selects⟩ hall,
      fun table htable => ?_⟩
    · rw [hfolds, List.append_assoc, List.singleton_append]
    · rw [hoof, List.append_assoc]
    · obtain ⟨hown, hrest⟩ := List.forall_mem_cons.mp htable
      rw [hround.fold_eq] at hown
      cases hselected : entry.selectedThreshold with
      | none =>
        rw [hround.skipped hselected, List.nil_append]
        exact .skip (hown.trans hselected) (hheld table hrest)
      | some t =>
        exact .add (hown.trans hselected) (hround.evaluated t hselected) (hheld table hrest)

omit [Python R] [Ratio R] in
theorem map_fold_of_forall₂ {P : Nat → Option R → Prop} {folds : List Nat}
    {entries : List (FoldReport R)}
    (h : List.Forall₂ (fun fold entry => entry.fold = fold ∧ P fold entry.selectedThreshold)
      folds entries) : entries.map FoldReport.fold = folds := by
  induction h with
  | nil => rfl
  | cons hone _ ih => rw [List.map_cons, ih, hone.1]

omit [Python R] [Ratio R] in
/-- With one entry for each fold, the table has the threshold of every entry. -/
theorem thresholdOf_of_forall₂ {P : Nat → Option R → Prop} {folds : List Nat}
    {entries : List (FoldReport R)}
    (h : List.Forall₂ (fun fold entry => entry.fold = fold ∧ P fold entry.selectedThreshold)
      folds entries) (hfolds : folds.Nodup) :
    (∀ entry ∈ entries, thresholdOf entries entry.fold = entry.selectedThreshold) ∧
      ∀ fold ∈ folds, P fold (thresholdOf entries fold) := by
  have hmap := map_fold_of_forall₂ h
  have hentries : ∀ entry ∈ entries, thresholdOf entries entry.fold = entry.selectedThreshold := by
    intro entry hentry
    unfold thresholdOf
    rw [find?_of_nodup (hmap ▸ hfolds) hentry]
    rfl
  refine ⟨hentries, fun fold hfold => ?_⟩
  obtain ⟨entry, hentry, rfl⟩ := List.mem_map.mp (hmap ▸ hfold)
  obtain ⟨fold, -, rfl, hP⟩ := exists_of_forall₂_right h hentry
  rw [hentries entry hentry]
  exact hP

/-! ## The artifact -/

/-- The threshold selected for a fold. -/
def CalibrationArtifact.selectedThreshold (artifact : CalibrationArtifact R) (fold : Nat) :
    Option R :=
  thresholdOf artifact.folds fold

/-- Two inputs that agree on the queries, the rankings and the labels outside of a fold. -/
structure AgreeOutside (fold : Nat) (a b : CalibrationInput R) : Prop where
  queries : outside EpisodeQuery.fold (some fold) a.queries
    = outside EpisodeQuery.fold (some fold) b.queries
  rankings : ∀ q ∈ outside EpisodeQuery.fold (some fold) a.queries,
    a.rankings.get? q.queryId = b.rankings.get? q.queryId
  labels : ∀ q ∈ outside EpisodeQuery.fold (some fold) a.queries,
    a.relevance q.queryId = b.relevance q.queryId

theorem calibrate_numbered {input : CalibrationInput R} {state : Calibration R}
    (h : calibrate fixed6 candidate input = .ok state) :
    ∀ q ∈ input.queries, q.fold ∈ (List.range 5).map some := by
  have hrange : List.range 5 = 0 :: [1, 2, 3, 4] := rfl
  unfold calibrate at h
  rw [hrange, List.foldlM_cons] at h
  obtain ⟨next, hnext, -⟩ := except_bind_ok.mp h
  intro q hq
  obtain ⟨own, hown⟩ := (calibrateFold_ok hnext).1 q hq
  rw [EpisodeQuery.fold_eq_some.mpr hown]
  exact List.mem_map_of_mem (List.mem_range.mpr (episodeFold_lt hown))

/-- What an artifact is made of: the entries of the five folds, what they held out, and the
metrics of the outcomes if there are as many as queries. -/
theorem calibrationArtifact_ok {input : CalibrationInput R} {artifact : CalibrationArtifact R}
    (h : calibrationArtifact fixed6 candidate input = .ok artifact) :
    ∃ oof, calibrate fixed6 candidate input = .ok { folds := artifact.folds, oof := oof } ∧
      (∀ fold < 5, Selects fixed6 candidate input fold (artifact.selectedThreshold fold)) ∧
      (artifact.folds.map FoldReport.fold = List.range 5) ∧
      HeldOut EpisodeQuery.fold (fun fold => fold.bind artifact.selectedThreshold)
        (EvaluatesTo fixed6 candidate input) input.queries ((List.range 5).map some) oof ∧
      ∀ metrics, artifact.outOfFoldMetrics = some metrics →
        oof.length = input.queries.length ∧ aggregateMetrics oof input.relevance = .ok metrics := by
  obtain ⟨state, hstate, h⟩ := except_bind_ok.mp h
  obtain ⟨oofMetrics, hmetrics, h⟩ := except_bind_ok.mp h
  obtain ⟨oofSlices, _, h⟩ := except_bind_ok.mp h
  obtain rfl := except_pure_ok.mp h
  obtain ⟨entries, results, hfolds, hoof, hall, hheld⟩ := foldlM_calibrateFold hstate
  obtain rfl : entries = state.folds := hfolds.symm
  obtain rfl : results = state.oof := hoof.symm
  obtain ⟨htable, hselects⟩ := thresholdOf_of_forall₂ hall List.nodup_range
  refine ⟨state.oof, hstate, fun fold hfold => hselects fold (List.mem_range.mpr hfold), ?_,
    hheld _ htable, fun metrics hsome => ?_⟩
  · exact map_fold_of_forall₂ hall
  · obtain rfl : oofMetrics = some metrics := hsome
    unfold ifComplete at hmetrics
    by_cases hcomplete : state.oof.length = input.queries.length
    · rw [if_pos (decide_eq_true hcomplete)] at hmetrics
      refine ⟨hcomplete, ?_⟩
      obtain ⟨aggregated, haggregated, hsome⟩ := except_map_ok.mp hmetrics
      rw [haggregated, Option.some.inj hsome]
    · rw [if_neg (by simpa using hcomplete)] at hmetrics
      cases hmetrics

theorem selectedThreshold_agree {a b : CalibrationInput R}
    {artifact artifact' : CalibrationArtifact R} {fold : Nat} (hfold : fold < 5)
    (h : AgreeOutside fold a b)
    (ha : calibrationArtifact fixed6 candidate a = .ok artifact)
    (hb : calibrationArtifact fixed6 candidate b = .ok artifact') :
    artifact.selectedThreshold fold = artifact'.selectedThreshold fold := by
  obtain ⟨_, -, hselects, -⟩ := calibrationArtifact_ok ha
  obtain ⟨_, -, hselects', -⟩ := calibrationArtifact_ok hb
  obtain ⟨selected, hselected, hthreshold⟩ := hselects fold hfold
  obtain ⟨selected', hselected', hthreshold'⟩ := hselects' fold hfold
  rw [← h.queries] at hselected'
  rw [hthreshold, hthreshold',
    selectThreshold_agree h.rankings h.labels hselected hselected']

/-- The threshold of a fold is the same for inputs that agree outside of the fold; an outcome that
is held out has the threshold of the fold of its query; and published metrics are those of one
outcome for each query. -/
theorem calibration_does_not_leak {a : CalibrationInput R}
    (hids : (a.queries.map fun q => q.queryId).Nodup) {artifact : CalibrationArtifact R}
    (ha : calibrationArtifact fixed6 candidate a = .ok artifact) :
    (∀ fold < 5, ∀ b artifact', AgreeOutside fold a b →
      calibrationArtifact fixed6 candidate b = .ok artifact' →
      artifact.selectedThreshold fold = artifact'.selectedThreshold fold) ∧
    artifact.folds.map FoldReport.fold = List.range 5 ∧
    ∃ oof, calibrate fixed6 candidate a = .ok { folds := artifact.folds, oof := oof } ∧
      (∀ o ∈ oof, ∃ q ∈ a.queries, o.queryId = q.queryId ∧ ∃ fold t, q.fold = some fold ∧
        artifact.selectedThreshold fold = some t ∧ EvaluatesTo fixed6 candidate a t q o) ∧
      ∀ metrics, artifact.outOfFoldMetrics = some metrics →
        aggregateMetrics oof a.relevance = .ok metrics ∧
          (oof.map QueryOutcome.queryId).Nodup ∧
          (oof.map QueryOutcome.queryId).Perm (a.queries.map fun q => q.queryId) := by
  obtain ⟨oof, hcalibrate, -, hfolds, hheld, hpublished⟩ := calibrationArtifact_ok ha
  have hrange : ((List.range 5).map some).Nodup :=
    List.nodup_range.map (Option.some_injective Nat)
  refine ⟨fun fold hfold b artifact' hagree hb => selectedThreshold_agree hfold hagree ha hb,
    hfolds, oof, hcalibrate, fun o ho => ?_, fun metrics hmetrics => ?_⟩
  · obtain ⟨chosen, hsub, hall⟩ := hheld.evaluated hrange
    obtain ⟨q, hq, t, ht, heval⟩ := exists_of_forall₂_right hall ho
    obtain ⟨hmem, hdealt⟩ := List.mem_filter.mp (hsub.subset hq)
    have hin : q.fold ∈ (List.range 5).map some := by simpa only [decide_eq_true_eq] using hdealt
    obtain ⟨fold, -, hfold⟩ := List.mem_map.mp hin
    rw [← hfold] at ht
    exact ⟨q, hmem, heval.queryId, fold, t, hfold.symm, ht, heval⟩
  · obtain ⟨hlength, haggregate⟩ := hpublished metrics hmetrics
    obtain ⟨chosen, hperm, hall⟩ := hheld.complete hrange (calibrate_numbered hcalibrate) hlength
    have hmap := map_queryId_of_evaluatesTo (hall.imp fun q o h => h.imp fun _ h => h.2)
    have hpermIds : (oof.map QueryOutcome.queryId).Perm (a.queries.map fun q => q.queryId) :=
      hmap ▸ hperm.map _
    exact ⟨haggregate, hpermIds.nodup_iff.mpr hids, hpermIds⟩

end Calibrate

/-- Three episodes: one query for tea, with the similarity of its only memory, and two queries of
`bob`. -/
def teaCalibration (similarity : ℚ) : CalibrationInput ℚ where
  queries :=
    [{ teaQuery with episodeId := "episode-1" }, { absentQuery with episodeId := "episode-2" },
      { absentQuery with queryId := "q3", episodeId := "episode-3" }]
  rankings := (((∅ : Dict String (List (ℚ × Record ℚ))).set "q1" [(similarity, teaRecord)]).set "q2"
    []).set "q3" []
  relevance := teaLabels
  memoryById := teaRecords
  p95 := 40

/-- The model of these episodes. -/
def teaCandidate : SemanticCandidate where
  resultLimit := 5
  p95BudgetMs := 2500

/-- The first fold does not see the similarity of its own query, the second one does. -/
theorem calibration_does_not_leak_tea :
    ∃ artifact artifact',
      calibrationArtifact (fixedDecimal 6) teaCandidate (teaCalibration (9 / 10)) = .ok artifact ∧
      calibrationArtifact (fixedDecimal 6) teaCandidate (teaCalibration (7 / 10)) = .ok artifact' ∧
      artifact.selectedThreshold 0 = artifact'.selectedThreshold 0 ∧
      artifact.selectedThreshold 1 = some (9 / 10) ∧
      artifact'.selectedThreshold 1 = some (7 / 10) := by
  have hselected : ∀ similarity : ℚ, similarity ∈ [9 / 10, 7 / 10] →
      ∃ artifact, calibrationArtifact (fixedDecimal 6) teaCandidate (teaCalibration similarity)
          = .ok artifact ∧ artifact.selectedThreshold 1 = some similarity := by
    have hall : ∀ similarity : ℚ, similarity ∈ [9 / 10, 7 / 10] →
        (calibrationArtifact (fixedDecimal 6) teaCandidate (teaCalibration similarity)).map
          (fun artifact => artifact.selectedThreshold 1) = .ok (some similarity) := by
      decide +kernel
    exact fun similarity hsimilarity => except_map_ok.mp (hall similarity hsimilarity)
  obtain ⟨artifact, hartifact, hsecond⟩ := hselected (9 / 10) (by simp)
  obtain ⟨artifact', hartifact', hsecond'⟩ := hselected (7 / 10) (by simp)
  have hagree : AgreeOutside 0 (teaCalibration (9 / 10)) (teaCalibration (7 / 10)) := by
    refine ⟨rfl, fun q hq => ?_, fun _ _ => rfl⟩
    have hother : q.queryId ≠ "q1" := by
      revert q
      decide +kernel
    unfold teaCalibration
    simp only [Dict.get?_set, if_neg hother]
  exact ⟨artifact, artifact', hartifact, hartifact',
    (calibration_does_not_leak (by decide) hartifact).1 0 (by decide) _ artifact' hagree hartifact',
    hsecond, hsecond'⟩

end OpenMemory.Evals
