import OpenMemory.Evals.Harness

/-!
# Repeated runs (`_run_split` and `_decision` of `evals/runner.py`, `evaluate_candidate`)

Both loops run every query several times and keep the latest outcome of each (`measure`). An
outcome that returned other ids than the one before it is marked `nondeterministic`; the runner
adds the mark to its failures, the harness replaces them by it.

What is reported for a query depends on its last two outcomes alone (`get?_measure`): a difference
between earlier runs is forgotten. `nondeterminism_remembered_iff` says when none is, and that the
gate then refuses; `difference_forgotten` is a report of `GO` after three runs, of which the first
differs from the others.
-/

namespace OpenMemory.Evals

open Lib

variable {R : Type} [Python R]

/-! ## A search of the runner -/

/-- An item of a response of the gateway, its score printed with six decimals. -/
structure ServedItem where
  memoryId : String
  ownerId : String
  memoryType : String
  space : Option String
  state : String
  score : String
  profileId : String
  profileVersion : String
  deriving DecidableEq

/-- A response of the gateway. -/
structure ServedResponse where
  items : List ServedItem
  profileId : String
  profileVersion : String
  deriving DecidableEq

/-- The configuration, as far as the loops and the gate read it. -/
structure EvalConfig where
  profileId : String
  profileVersion : String
  runs : Int
  p95BudgetMs : ℚ
  deriving DecidableEq

/-- `memory["space"] or "none"`. -/
def spaceOr (space : Option String) : String :=
  match space with
  | none => "none"
  | some space => if space = "" then "none" else space

/-- The profile is not the configured one. -/
def otherProfile (config : EvalConfig) (profileId profileVersion : String) : List String :=
  if profileId = config.profileId ∧ profileVersion = config.profileVersion then [] else ["profile"]

/-- What is wrong with an item. -/
def itemFailures (config : EvalConfig) (query : Query) (item : ServedItem) : List String :=
  (if item.ownerId = query.ownerId then [] else ["owner"]) ++
    (if item.state = query.expectedState then [] else ["state"]) ++
    (match query.filters.space with
      | none => []
      | some wanted => if wanted = "" ∨ item.space = some wanted then [] else ["space"]) ++
    otherProfile config item.profileId item.profileVersion

/-- `search`, the outcome of a query with the response of the gateway. -/
def servedOutcome (config : EvalConfig) (reverseIds : Dict String String) (query : Query)
    (response : ServedResponse) : QueryOutcome where
  queryId := query.queryId
  split := query.split
  kind := query.kind
  expectedBehavior := query.expectedBehavior
  returnedIds := response.items.map fun item => (reverseIds.get? item.memoryId).getD "unknown"
  returnedMetadata := response.items.map fun item =>
    ((((∅ : Dict String String).set "memory_type" item.memoryType).set "space"
      (spaceOr item.space)).set "state" item.state).set "score" item.score
  deterministicFailures := sortedSet (response.items.flatMap (itemFailures config query) ++
    otherProfile config response.profileId response.profileVersion)

/-! ## The loops -/

/-- `for _ in range(runs): for query in queries: …`, one outcome for each. -/
def searched (runs : Int) (queries : List Query) (search : Nat → Nat → Query → QueryOutcome) :
    List QueryOutcome :=
  (List.range runs.toNat).flatMap fun round => queries.mapIdx fun i query => search round i query

/-- One outcome: marked if the one before it returned other ids, and kept in place of it. -/
def remember (mark : List String → List String) (measured : Dict String QueryOutcome)
    (outcome : QueryOutcome) : Dict String QueryOutcome :=
  let outcome := match measured.get? outcome.queryId with
    | none => outcome
    | some prior =>
      if prior.returnedIds = outcome.returnedIds then outcome
      else { outcome with deterministicFailures := mark outcome.deterministicFailures }
  measured.set outcome.queryId outcome

/-- `measured`, after all outcomes. -/
def measure (mark : List String → List String) (outcomes : List QueryOutcome) :
    Dict String QueryOutcome :=
  outcomes.foldl (remember mark) ∅

/-- The runner adds `nondeterministic` to the failures of the outcome. -/
def runnerMark (failures : List String) : List String :=
  sortedSet (failures ++ ["nondeterministic"])

/-- The harness leaves nothing else. -/
def harnessMark (_failures : List String) : List String := ["nondeterministic"]

/-- The queries of a split, the ids of its memories, and the response of each search. -/
structure Split where
  queries : List Query
  reverseIds : Dict String String
  answers : Nat → Nat → ServedResponse

/-- The outcomes of the measured searches of a split, in order. -/
def Split.searched (split : Split) (config : EvalConfig) : List QueryOutcome :=
  Evals.searched config.runs split.queries fun round i query =>
    servedOutcome config split.reverseIds query (split.answers round i)

/-- `_run_split`: the outcomes it reports. -/
def runSplit (config : EvalConfig) (split : Split) : List QueryOutcome :=
  (measure runnerMark (split.searched config)).values

/-- The measured retrievals of `evaluate_candidate`, with the similarities that the local model
gives in each. -/
def retrieved (fixed6 : R → String) (runs : Int) (queries : List Query) (records : List (Record R))
    (similarity : Nat → Nat → Record R → R) (candidateLimit resultLimit : Int) (threshold : R) :
    List QueryOutcome :=
  searched runs queries fun round i query =>
    retrieve fixed6 query records (similarity round i) candidateLimit resultLimit threshold

/-! ## The gate -/

inductive Decision
  | go | noGo
  deriving DecidableEq, Repr

section Gate

variable {F : Type} [Ratio F]

/-- The slice is positive and red. -/
def redSlice (slice : String × Metrics F) : List String :=
  if 5 ≤ slice.2.positiveQueries ∧ Ratio.lt slice.2.precisionAt5 (Ratio.percent 60) then
    ["red positive slice query_kind=" ++ slice.1] else []

/-- The reasons of `_decision`. -/
def reasonsOf (metrics : Metrics F) (slices : Dimension → List (String × Metrics F)) (p95 : ℚ)
    (p95BudgetMs : ℚ) : List String :=
  (if Ratio.lt metrics.precisionAt5 (Ratio.percent 80) then ["precision_at_5 < 0.80"] else []) ++
    (if Ratio.lt (Ratio.percent 10) metrics.intrusionAt5 then ["intrusion_at_5 > 0.10"] else []) ++
    (if Ratio.lt metrics.abstentionRate (Ratio.percent 90) then ["abstention_rate < 0.90"]
      else []) ++
    (if Ratio.eq metrics.lifecycleIsolationCorrectness (Ratio.percent 100) then []
      else ["deterministic lifecycle/isolation/profile failure"]) ++
    (if p95BudgetMs ≤ p95 then ["p95 exceeds provisional budget"] else []) ++
    (slices .queryKind).flatMap redSlice

/-- `_decision`. -/
def decision (metrics : Metrics F) (slices : Dimension → List (String × Metrics F)) (p95 : ℚ)
    (p95BudgetMs : ℚ) : Decision × List String :=
  let reasons := reasonsOf metrics slices p95 p95BudgetMs
  (if reasons = [] then .go else .noGo, reasons)

/-- `_with_target_metadata`: the metadata of the relevant memories of each query. -/
def withTargetMetadata (memoryById : Dict String (Record R)) (relevance : Relevance)
    (outcomes : List QueryOutcome) : Except PyError (List QueryOutcome) :=
  outcomes.mapM fun outcome => do
    let relevantIds ← graded relevance outcome.queryId fun grade => decide (0 < grade)
    let targets ← relevantIds.mapM fun memoryId =>
      match memoryById.get? memoryId with
      | none => .error .keyError
      | some memory => .ok (metadataOf memory)
    pure { outcome with targetMetadata := targets }

/-- What an evaluation reports. -/
structure Report (F : Type) where
  outcomes : List QueryOutcome
  metrics : Metrics F
  decision : Decision
  reasons : List String

/-- The end of `run` and of `evaluate_candidate`: metrics, slices and decision for the outcomes. -/
def report (memoryById : Dict String (Record R)) (relevance : Relevance) (p95 p95BudgetMs : ℚ)
    (outcomes : List QueryOutcome) : Except PyError (Report F) := do
  let outcomes ← withTargetMetadata memoryById relevance outcomes
  let metrics ← aggregateMetrics outcomes relevance
  let slices ← sliceMetrics outcomes relevance
  let (decision, reasons) := decision metrics slices p95 p95BudgetMs
  pure { outcomes, metrics, decision, reasons }

/-- `run`, for the selected splits. -/
def run (config : EvalConfig) (memoryById : Dict String (Record R)) (relevance : Relevance)
    (p95 : ℚ) (splits : List Split) : Except PyError (Report F) :=
  report memoryById relevance p95 config.p95BudgetMs (splits.flatMap (runSplit config))

/-- `evaluate_candidate`. -/
def evaluateCandidate (fixed6 : R → String) (runs : Int) (queries : List Query)
    (records : List (Record R)) (memoryById : Dict String (Record R)) (relevance : Relevance)
    (similarity : Nat → Nat → Record R → R) (candidateLimit resultLimit : Int) (threshold : R)
    (p95 p95BudgetMs : ℚ) : Except PyError (Report F) :=
  report memoryById relevance p95 p95BudgetMs
    (measure harnessMark (retrieved fixed6 runs queries records similarity candidateLimit
      resultLimit threshold)).values

end Gate

/-! ## What is reported for a query -/

/-- The outcomes of a query. -/
def runsOf (outcomes : List QueryOutcome) (queryId : String) : List QueryOutcome :=
  outcomes.filter fun o => decide (o.queryId = queryId)

/-- What is reported for the outcomes of a query, given latest first. -/
def reportedFor (mark : List String → List String) : List QueryOutcome → Option QueryOutcome
  | [] => none
  | [only] => some only
  | last :: prior :: _ =>
    some (if prior.returnedIds = last.returnedIds then last
      else { last with deterministicFailures := mark last.deterministicFailures })

theorem reportedFor_cons {mark : List String → List String} {last o : QueryOutcome}
    {rest : List QueryOutcome} (h : reportedFor mark (last :: rest) = some o) :
    o.queryId = last.queryId ∧ o.returnedIds = last.returnedIds := by
  cases rest with
  | nil =>
    obtain rfl := Option.some.inj h
    exact ⟨rfl, rfl⟩
  | cons prior rest =>
    obtain rfl := Option.some.inj h
    split <;> exact ⟨rfl, rfl⟩

/-- One outcome more: it is marked or not, under its own id. -/
theorem get?_remember (mark : List String → List String) (measured : Dict String QueryOutcome)
    (o : QueryOutcome) (queryId : String) :
    (remember mark measured o).get? queryId =
      if queryId = o.queryId then
        match measured.get? o.queryId with
        | none => some o
        | some prior => some (if prior.returnedIds = o.returnedIds then o
            else { o with deterministicFailures := mark o.deterministicFailures })
      else measured.get? queryId := by
  unfold remember
  cases measured.get? o.queryId with
  | none => exact Dict.get?_set _ _ _ _
  | some prior => by_cases h : prior.returnedIds = o.returnedIds <;> simp [h, Dict.get?_set]

theorem mem_runsOf {outcomes : List QueryOutcome} {queryId : String} {o : QueryOutcome} :
    o ∈ runsOf outcomes queryId ↔ o ∈ outcomes ∧ o.queryId = queryId := by
  unfold runsOf
  rw [List.mem_filter, decide_eq_true_eq]

theorem runsOf_append_singleton (outcomes : List QueryOutcome) (o : QueryOutcome)
    (queryId : String) :
    runsOf (outcomes ++ [o]) queryId
      = runsOf outcomes queryId ++ if queryId = o.queryId then [o] else [] := by
  unfold runsOf
  rw [List.filter_append, List.filter_cons, List.filter_nil]
  by_cases h : queryId = o.queryId
  · rw [if_pos h, if_pos (decide_eq_true h.symm)]
  · rw [if_neg h, if_neg fun heq => h (of_decide_eq_true heq).symm]

/-- The loop keeps, of every query, what its last two outcomes make. -/
theorem get?_measure (mark : List String → List String) (outcomes : List QueryOutcome)
    (queryId : String) :
    (measure mark outcomes).get? queryId = reportedFor mark (runsOf outcomes queryId).reverse := by
  induction outcomes using List.reverseRecOn with
  | nil => rfl
  | append_singleton outcomes o ih =>
    have hstep : measure mark (outcomes ++ [o]) = remember mark (measure mark outcomes) o :=
      List.foldl_append
    rw [hstep, get?_remember, runsOf_append_singleton]
    by_cases h : queryId = o.queryId
    · subst h
      rw [if_pos rfl, if_pos rfl, ih, List.reverse_append]
      cases (runsOf outcomes o.queryId).reverse with
      | nil => rfl
      | cons last rest =>
        cases hreport : reportedFor mark (last :: rest) with
        | none => cases rest <;> cases hreport
        | some prior =>
          -- marking the one before it has left its ids as they were
          show some (if prior.returnedIds = o.returnedIds then o else _) = _
          rw [(reportedFor_cons hreport).2]
          rfl
    · rw [if_neg h, if_neg h, ih, List.append_nil]

/-- What the loops report of a query. -/
theorem mem_values_measure {mark : List String → List String} {outcomes : List QueryOutcome}
    {o : QueryOutcome} :
    o ∈ (measure mark outcomes).values ↔
      reportedFor mark (runsOf outcomes o.queryId).reverse = some o := by
  rw [Dict.mem_values_iff]
  simp only [get?_measure]
  constructor
  · rintro ⟨queryId, h⟩
    cases hruns : (runsOf outcomes queryId).reverse with
    | nil =>
      rw [hruns] at h
      cases h
    | cons last rest =>
      have hlast : last ∈ runsOf outcomes queryId :=
        List.mem_reverse.mp (hruns ▸ List.mem_cons_self)
      rw [hruns] at h
      obtain rfl : queryId = o.queryId :=
        (mem_runsOf.mp hlast).2.symm.trans (reportedFor_cons h).1.symm
      rw [hruns]
      exact h
  · exact fun h => ⟨o.queryId, h⟩

/-! ## What is remembered -/

/-- Two runs of a query returned different ids. -/
def Differ (runs : List QueryOutcome) : Prop :=
  ∃ a ∈ runs, ∃ b ∈ runs, a.returnedIds ≠ b.returnedIds

/-- The last two runs did. -/
def LastTwoDiffer (runs : List QueryOutcome) : Prop :=
  match runs.reverse with
  | last :: prior :: _ => prior.returnedIds ≠ last.returnedIds
  | _ => False

/-- Every failure of a run is one of the last run. -/
def FailuresLast (runs : List QueryOutcome) : Prop :=
  ∀ a ∈ runs, ∀ failure ∈ a.deterministicFailures,
    ∃ last ∈ runs.getLast?, failure ∈ last.deterministicFailures

/-- Of every query with two runs that differ, an outcome is reported that is marked and has the
failures of all its runs. -/
def Remembers (searched reported : List QueryOutcome) : Prop :=
  ∀ queryId, Differ (runsOf searched queryId) →
    ∃ o ∈ reported, o.queryId = queryId ∧ "nondeterministic" ∈ o.deterministicFailures ∧
      ∀ a ∈ runsOf searched queryId, ∀ failure ∈ a.deterministicFailures,
        failure ∈ o.deterministicFailures

/-- The gate does not say `GO` when two runs of a query differ. -/
def Refuses (searched : List QueryOutcome) (reported : Except PyError (Report ℚ)) : Prop :=
  (∃ queryId, Differ (runsOf searched queryId)) →
    ∀ r, reported = .ok r → r.decision = .noGo

/-- Two runs that differ are two runs. -/
theorem reverse_of_differ {runs : List QueryOutcome} (h : Differ runs) :
    ∃ last prior rest, runs.reverse = last :: prior :: rest := by
  obtain ⟨a, ha, b, hb, hne⟩ := h
  rw [← List.mem_reverse] at ha hb
  match hruns : runs.reverse with
  | [] =>
    rw [hruns] at ha
    exact absurd ha List.not_mem_nil
  | [only] =>
    rw [hruns, List.mem_singleton] at ha hb
    exact absurd (ha ▸ hb ▸ rfl) hne
  | last :: prior :: rest => exact ⟨last, prior, rest, rfl⟩

theorem remembers_iff {mark : List String → List String} {outcomes : List QueryOutcome}
    (hmark : ∀ failures, "nondeterministic" ∈ mark failures)
    (hraw : ∀ o ∈ outcomes, "nondeterministic" ∉ o.deterministicFailures) :
    Remembers outcomes (measure mark outcomes).values ↔
      ∀ queryId, Differ (runsOf outcomes queryId) →
        LastTwoDiffer (runsOf outcomes queryId) ∧
          ∀ a ∈ runsOf outcomes queryId, ∀ failure ∈ a.deterministicFailures,
            ∃ last ∈ (runsOf outcomes queryId).getLast?,
              failure ∈ mark last.deterministicFailures := by
  refine forall_congr' fun queryId => imp_congr_right fun hdiffer => ?_
  obtain ⟨last, prior, rest, hruns⟩ := reverse_of_differ hdiffer
  have hlast : (runsOf outcomes queryId).getLast? = some last := by
    rw [← List.head?_reverse, hruns]
    rfl
  have hmem := mem_runsOf.mp (List.mem_of_getLast? hlast)
  have hreported : ∀ o, (o ∈ (measure mark outcomes).values ∧ o.queryId = queryId) ↔
      reportedFor mark (last :: prior :: rest) = some o := by
    intro o
    rw [mem_values_measure]
    constructor
    · rintro ⟨h, rfl⟩
      rwa [hruns] at h
    · intro h
      obtain rfl : o.queryId = queryId := (reportedFor_cons h).1.trans hmem.2
      rw [hruns]
      exact ⟨h, rfl⟩
  have htwo : LastTwoDiffer (runsOf outcomes queryId) ↔ prior.returnedIds ≠ last.returnedIds := by
    unfold LastTwoDiffer
    rw [hruns]
  rw [htwo, hlast]
  constructor
  · rintro ⟨o, ho, hid, hnd, hall⟩
    have hreport := (hreported o).mp ⟨ho, hid⟩
    by_cases hsame : prior.returnedIds = last.returnedIds
    · -- not marked, and the search itself does not fail so
      obtain rfl : last = o := by simpa [reportedFor, hsame] using hreport
      exact absurd hnd (hraw _ hmem.1)
    · obtain rfl := Option.some.inj hreport
      rw [if_neg hsame] at hall
      exact ⟨hsame, fun a ha failure hf => ⟨last, rfl, hall a ha failure hf⟩⟩
  · rintro ⟨hsame, hall⟩
    obtain ⟨ho, hid⟩ := (hreported { last with
      deterministicFailures := mark last.deterministicFailures }).mpr
        (congrArg some (if_neg hsame))
    refine ⟨_, ho, hid, hmark _, fun a ha failure hf => ?_⟩
    obtain ⟨_, hlast', hin⟩ := hall a ha failure hf
    obtain rfl := Option.some.inj hlast'
    exact hin

/-! ## The gate refuses -/

theorem aggregateMetrics_lifecycle {outcomes : List QueryOutcome} {relevance : Relevance}
    {metrics : Metrics ℚ} (h : aggregateMetrics outcomes relevance = .ok metrics) :
    metrics.lifecycleIsolationCorrectness = (if outcomes.length = 0 then 0
      else (outcomes.countP fun item => decide (item.deterministicFailures = [])) /
        outcomes.length : ℚ) := by
  obtain ⟨precisions, -, h⟩ := except_bind_ok.mp h
  obtain ⟨intrusions, -, h⟩ := except_bind_ok.mp h
  obtain rfl := except_pure_ok.mp h
  rfl

/-- One failure is enough. -/
theorem lifecycle_ne_one {outcomes : List QueryOutcome} {relevance : Relevance}
    {metrics : Metrics ℚ}
    (h : aggregateMetrics outcomes relevance = .ok metrics) {o : QueryOutcome} (ho : o ∈ outcomes)
    (hfailed : o.deterministicFailures ≠ []) :
    Ratio.eq metrics.lifecycleIsolationCorrectness (Ratio.percent 100) = false := by
  have hlt : (outcomes.countP fun item => decide (item.deterministicFailures = []))
      < outcomes.length := by
    refine lt_of_le_of_ne List.countP_le_length fun heq => hfailed ?_
    exact of_decide_eq_true (List.countP_eq_length.mp heq o ho)
  have hpos : (0 : ℚ) < outcomes.length := by exact_mod_cast Nat.zero_lt_of_lt hlt
  have hone : (Ratio.percent 100 : ℚ) = 1 := by
    show ((100 : Nat) : ℚ) / 100 = 1
    norm_num
  rw [aggregateMetrics_lifecycle h, if_neg (Nat.ne_zero_of_lt hlt), hone, Bool.eq_false_iff]
  intro heq
  rw [Ratio.eq_iff_of_rat, div_eq_one_iff_eq hpos.ne'] at heq
  exact absurd (Nat.cast_injective heq) hlt.ne

omit [Python R] in
theorem report_refuses {memoryById : Dict String (Record R)} {relevance : Relevance}
    {p95 p95BudgetMs : ℚ} {outcomes : List QueryOutcome} {r : Report ℚ}
    (h : report memoryById relevance p95 p95BudgetMs outcomes = .ok r) {o : QueryOutcome}
    (ho : o ∈ outcomes) (hfailed : o.deterministicFailures ≠ []) : r.decision = .noGo := by
  obtain ⟨targeted, htargeted, h⟩ := except_bind_ok.mp h
  obtain ⟨metrics, hmetrics, h⟩ := except_bind_ok.mp h
  obtain ⟨slices, -, h⟩ := except_bind_ok.mp h
  obtain rfl := except_pure_ok.mp h
  -- the target metadata leave the failures as they were
  obtain ⟨o', ho', hsame⟩ : ∃ o' ∈ targeted,
      o'.deterministicFailures = o.deterministicFailures := by
    obtain ⟨o', hone⟩ := exists_mapM_ok.mp ⟨targeted, htargeted⟩ o ho
    refine ⟨o', (mem_mapM_ok htargeted o').mpr ⟨o, ho, hone⟩, ?_⟩
    obtain ⟨relevantIds, -, hone⟩ := except_bind_ok.mp hone
    obtain ⟨targets, -, hone⟩ := except_bind_ok.mp hone
    obtain rfl := except_pure_ok.mp hone
    rfl
  have hred := lifecycle_ne_one hmetrics ho' (hsame ▸ hfailed)
  show (if reasonsOf metrics slices p95 p95BudgetMs = [] then Decision.go else .noGo) = .noGo
  refine if_neg fun hnil => ?_
  unfold reasonsOf at hnil
  simp [hred] at hnil

/-- What is remembered is refused. -/
theorem refuses_of_remembers {searched reported : List QueryOutcome}
    {result : Except PyError (Report ℚ)} (h : Remembers searched reported)
    (hresult : ∀ r, result = .ok r → ∀ o ∈ reported, o.deterministicFailures ≠ [] →
      r.decision = .noGo) : Refuses searched result := by
  rintro ⟨queryId, hdiffer⟩ r hr
  obtain ⟨o, ho, -, hmarked, -⟩ := h queryId hdiffer
  exact hresult r hr o ho (List.ne_nil_of_mem hmarked)

/-! ## When differences are remembered -/

theorem mem_searched {runs : Int} {queries : List Query}
    {search : Nat → Nat → Query → QueryOutcome} {o : QueryOutcome}
    (h : o ∈ searched runs queries search) : ∃ round i query, o = search round i query := by
  obtain ⟨round, -, h⟩ := List.mem_flatMap.mp h
  obtain ⟨i, hi, rfl⟩ := List.mem_mapIdx.mp h
  exact ⟨round, i, _, rfl⟩

theorem not_mem_servedOutcome (config : EvalConfig) (reverseIds : Dict String String)
    (query : Query) (response : ServedResponse) :
    "nondeterministic" ∉
      (servedOutcome config reverseIds query response).deterministicFailures := by
  have hother : ∀ profileId profileVersion,
      "nondeterministic" ∉ otherProfile config profileId profileVersion := by
    intro profileId profileVersion
    unfold otherProfile
    split <;> simp
  intro h
  rcases List.mem_append.mp (mem_sortedSet.mp h) with h | h
  · obtain ⟨item, -, h⟩ := List.mem_flatMap.mp h
    unfold itemFailures at h
    simp only [List.mem_append] at h
    rcases h with ((h | h) | h) | h
    · split at h <;> simp at h
    · split at h <;> simp at h
    · split at h
      · simp at h
      · split at h <;> simp at h
    · exact hother _ _ h
  · exact hother _ _ h

theorem mem_runnerMark {failures : List String} {failure : String} :
    failure ∈ runnerMark failures ↔ failure ∈ failures ∨ failure = "nondeterministic" := by
  unfold runnerMark
  rw [mem_sortedSet, List.mem_append, List.mem_singleton]

theorem runSplit_remembers_iff (config : EvalConfig) (split : Split) :
    Remembers (split.searched config) (runSplit config split) ↔
      ∀ queryId, Differ (runsOf (split.searched config) queryId) →
        LastTwoDiffer (runsOf (split.searched config) queryId) ∧
          FailuresLast (runsOf (split.searched config) queryId) := by
  have hraw : ∀ o ∈ split.searched config, "nondeterministic" ∉ o.deterministicFailures := by
    intro o ho
    obtain ⟨round, i, query, rfl⟩ := mem_searched ho
    exact not_mem_servedOutcome _ _ _ _
  unfold runSplit
  rw [remembers_iff (fun failures => mem_runnerMark.mpr (.inr rfl)) hraw]
  refine forall_congr' fun queryId => imp_congr_right fun _ => and_congr_right fun _ => ?_
  refine forall₂_congr fun a ha => forall₂_congr fun failure hfailure => exists_congr fun last =>
    and_congr_right fun _ => ?_
  rw [mem_runnerMark, or_iff_left]
  rintro rfl
  exact hraw a (mem_runsOf.mp ha).1 hfailure

theorem evaluateCandidate_remembers_iff (fixed6 : R → String) (runs : Int) (queries : List Query)
    (records : List (Record R)) (similarity : Nat → Nat → Record R → R)
    (candidateLimit resultLimit : Int) (threshold : R) :
    let outcomes := retrieved fixed6 runs queries records similarity candidateLimit resultLimit
      threshold
    Remembers outcomes (measure harnessMark outcomes).values ↔
      ∀ queryId, Differ (runsOf outcomes queryId) → LastTwoDiffer (runsOf outcomes queryId) := by
  intro outcomes
  have hraw : ∀ o ∈ outcomes, o.deterministicFailures = [] := by
    intro o ho
    obtain ⟨round, i, query, rfl⟩ := mem_searched ho
    exact retrieve_failures _ _ _ _ _ _ _
  have hmark : ∀ failures, "nondeterministic" ∈ harnessMark failures := fun _ =>
    List.mem_singleton_self _
  rw [remembers_iff hmark fun o ho => by simp [hraw o ho]]
  refine forall_congr' fun queryId => imp_congr_right fun _ => and_iff_left ?_
  intro a ha failure hf
  rw [hraw a (mem_runsOf.mp ha).1] at hf
  exact absurd hf List.not_mem_nil

/-- The runner remembers that runs of a query differ, and refuses, just when the last two runs
differ and no failure is missing from the last; the harness just when the last two runs differ. -/
theorem nondeterminism_remembered_iff :
    (∀ (config : EvalConfig) (memoryById : Dict String (Record R)) (relevance : Relevance)
        (p95 : ℚ) (splits : List Split),
      (∀ split ∈ splits, Remembers (split.searched config) (runSplit config split) ∧
          Refuses (split.searched config) (run config memoryById relevance p95 splits)) ↔
        ∀ split ∈ splits, ∀ queryId, Differ (runsOf (split.searched config) queryId) →
          LastTwoDiffer (runsOf (split.searched config) queryId) ∧
            FailuresLast (runsOf (split.searched config) queryId)) ∧
    ∀ (fixed6 : R → String) (runs : Int) (queries : List Query) (records : List (Record R))
        (memoryById : Dict String (Record R)) (relevance : Relevance)
        (similarity : Nat → Nat → Record R → R) (candidateLimit resultLimit : Int) (threshold : R)
        (p95 p95BudgetMs : ℚ),
      let outcomes := retrieved fixed6 runs queries records similarity candidateLimit resultLimit
        threshold
      (Remembers outcomes (measure harnessMark outcomes).values ∧
          Refuses outcomes (evaluateCandidate fixed6 runs queries records memoryById relevance
            similarity candidateLimit resultLimit threshold p95 p95BudgetMs)) ↔
        ∀ queryId, Differ (runsOf outcomes queryId) →
          LastTwoDiffer (runsOf outcomes queryId) := by
  constructor
  · intro config memoryById relevance p95 splits
    constructor
    · exact fun h split hsplit => (runSplit_remembers_iff config split).mp (h split hsplit).1
    · intro h split hsplit
      have hremembers := (runSplit_remembers_iff config split).mpr (h split hsplit)
      refine ⟨hremembers, refuses_of_remembers hremembers fun r hr o ho hfailed => ?_⟩
      exact report_refuses hr (List.mem_flatMap.mpr ⟨split, hsplit, ho⟩) hfailed
  · intro fixed6 runs queries records memoryById relevance similarity candidateLimit resultLimit
      threshold p95 p95BudgetMs outcomes
    have hiff := evaluateCandidate_remembers_iff fixed6 runs queries records similarity
      candidateLimit resultLimit threshold
    refine ⟨fun h => hiff.mp h.1, fun h => ?_⟩
    have hremembers := hiff.mpr h
    exact ⟨hremembers, refuses_of_remembers hremembers fun r hr o ho hfailed =>
      report_refuses hr ho hfailed⟩

/-! ## A forgotten difference -/

/-- A fact of `alice`. -/
def teaRecord : Record ℚ where
  memoryId := "m1"
  ownerId := "alice"
  memoryType := "fact"
  space := "work"
  state := "active"
  importance := 1 / 2
  confidence := 1 / 2

/-- A query of `bob`, who has no memories. -/
def absentQuery : Query where
  queryId := "q2"
  split := "development"
  kind := "negative"
  expectedBehavior := "abstain"
  ownerId := "bob"
  query := "tea"

def teaRecords : Dict String (Record ℚ) := (∅ : Dict String (Record ℚ)).set "m1" teaRecord

def teaLabels : Relevance :=
  labelled ((∅ : Dict String (Dict String Int)).set "q1" ((∅ : Dict String Int).set "m1" 2))

def threeRuns : EvalConfig where
  profileId := "hash"
  profileVersion := "v1"
  runs := 3
  p95BudgetMs := 2500

/-- The first search for tea finds nothing, the others find the fact. -/
def teaSplit : Split where
  queries := [teaQuery, absentQuery]
  reverseIds := (∅ : Dict String String).set "7" "m1"
  answers round i :=
    { items := if round = 0 ∨ i = 1 then [] else
        [{ memoryId := "7", ownerId := "alice", memoryType := "fact", space := some "work"
           state := "active", score := "0.800000", profileId := "hash", profileVersion := "v1" }]
      profileId := "hash"
      profileVersion := "v1" }

/-- So it is for the local model. -/
def teaSimilarity (round _i : Nat) (_memory : Record ℚ) : ℚ := if round = 0 then 0 else 9 / 10

instance (runs : List QueryOutcome) : Decidable (Differ runs) :=
  inferInstanceAs (Decidable (∃ a ∈ runs, ∃ b ∈ runs, a.returnedIds ≠ b.returnedIds))

/-- Both loops report `GO` for three runs of which the first differs from the others. -/
theorem difference_forgotten :
    (Differ (runsOf (teaSplit.searched threeRuns) "q1") ∧
      (run (F := ℚ) threeRuns teaRecords teaLabels 40 [teaSplit]).map Report.decision
        = .ok .go) ∧
    Differ (runsOf (retrieved (fixedDecimal 6) 3 [teaQuery, absentQuery] [teaRecord] teaSimilarity
        50 5 (78 / 100)) "q1") ∧
      (evaluateCandidate (F := ℚ) (fixedDecimal 6) 3 [teaQuery, absentQuery] [teaRecord] teaRecords
        teaLabels teaSimilarity 50 5 (78 / 100) 40 2500).map Report.decision = .ok .go := by
  refine ⟨⟨?_, ?_⟩, ?_, ?_⟩ <;> decide +kernel

end OpenMemory.Evals
