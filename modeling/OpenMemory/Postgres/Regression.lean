import OpenMemory.Postgres.Reembedding

/-!
# Runs of re-embedding batches and updates

What a batch and an update keep, statement by statement (`Reembedding.lean`), put together over
the runs of any number of them. While a batch is between its check of a memory and its upsert,
another transaction may commit a newer row of the index (`reembedding_regresses`); in the runs
where none does, the index moves forward only (`reembedding_advances`).
-/

namespace OpenMemory.Postgres

open Lib Lib.Prog

variable {R : Type} [Python R]

/-! ## Runs -/

/-- The version at which the batch has just found the memory; its upsert comes next. -/
def checkedAt (p : Participant R) (i : UUID) : Option Int :=
  match p.trace.getLast? with
  | some (.selectCurrentVersion j v, s) =>
    if p.isRunning && decide (j = i) && atVersion p.agent.tenant j v s then some v else none
  | _ => none

/-- No transaction commits a row of the index while a batch is between its check of the memory and
its upsert, unless the memory is still at the version that was checked. -/
def uncrossed (cl : Cluster R) : Action (Transaction R) → Bool
  | .finish n =>
    match cl.processes[n]? with
    | none => true
    | some p => !commits p || cl.processes.all fun p' =>
        p.held.all fun k => match k with
          | .semantic key =>
            match checkedAt p' key.1 with
            | none => true
            | some v => someAnd (fun row : MemoryRow R => decide (row.version = v))
                ((p.view (engine R) cl.committed).memories.get? key.1)
          | _ => true
  | _ => true

/-- Updates, and batches of the re-embedding job, by services of one profile. -/
def ofProfile (profile : EmbeddingProfile) (_ : Cluster R) : Action (Transaction R) → Bool
  | .begin t => decide (t.profile = profile) &&
    match t.work with
    | .request (.update _) => true
    | .batch _ _ _ _ => true
    | _ => false
  | _ => true

section Runs

variable {encryptor : Option TenantEnvelopeEncryptor} {profile : EmbeddingProfile}

theorem checkedAt_eq {p : Participant R} {i : UUID} {v : Int} {s : Database R}
    (hrunning : p.isRunning = true)
    (hlast : p.trace.getLast? = some (.selectCurrentVersion i v, s))
    (hfound : atVersion p.agent.tenant i v s = true) : checkedAt p i = some v := by
  unfold checkedAt
  rw [hlast]
  simp [hrunning, hfound]

theorem version_of_uncrossed {cl : Cluster R} {n m : Nat} {p p' : Participant R}
    {outcome : Outcome R} {k : SemanticKey} {v : Int} {row : MemoryRow R}
    (h : uncrossed cl (.finish n) = true) (hp : cl.processes[n]? = some p)
    (hstatus : p.status = .running (.done (.ok outcome))) (hp' : cl.processes[m]? = some p')
    (hheld : RowKey.semantic k ∈ p.held) (hchecked : checkedAt p' k.1 = some v)
    (hrow : (p.view (engine R) cl.committed).memories.get? k.1 = some row) : row.version = v := by
  simp only [uncrossed, hp] at h
  rw [commits_iff.mpr ⟨_, hstatus⟩, Bool.not_true, Bool.false_or, List.all_eq_true] at h
  have hkeys := List.all_eq_true.mp (h p' (List.mem_of_getElem? hp')) _ hheld
  dsimp only at hkeys
  rw [hchecked] at hkeys
  dsimp only at hkeys
  rw [hrow] at hkeys
  exact of_decide_eq_true hkeys

/-- What holds of each transaction of a run. -/
structure IndexInv (encryptor : Option TenantEnvelopeEncryptor) (profile : EmbeddingProfile)
    (c : Database R) (p : Participant R) : Prop where
  ofProfile : p.agent.profile = profile
  ready : p.isRunning = true → Ready encryptor profile c p
  kinds : (∃ o cursor batchSize dryRun, p.agent.work = .batch o cursor batchSize dryRun ∧
      BatchInv encryptor c p) ∨
    ∃ cmd rev, p.agent.work = .request (.update cmd) ∧ p.agent.revision = some rev ∧
      UpdateInv encryptor c p rev

theorem Ready.start (t : Transaction R) (program : DbProg R (Outcome R)) (c : Database R) :
    Ready encryptor profile c (.start t program c) := by
  constructor
  · intro i hi
    cases hi
  · intro k hk
    cases hk

theorem revision_of_update {t : Transaction R} {cmd : UpdateMemoryCommand R}
    (hwork : t.work = .request (.update cmd)) : ∃ rev, t.revision = some rev := by
  unfold Transaction.revision
  rw [hwork]
  exact ⟨_, rfl⟩

/-- A transaction that has ended. -/
theorem IndexInv.ended {c c' : Database R} {p : Participant R} {status : Status (Statement R)
    Statement.Result PyError (Outcome R)} (h : IndexInv encryptor profile c p)
    (hstatus : ∀ program, status ≠ .running program) :
    IndexInv encryptor profile c' { p with status := status } := by
  have hnot : ¬ ({ p with status := status } : Participant R).isRunning = true := by
    intro hrunning
    obtain ⟨program, hprogram⟩ := Process.isRunning_iff.mp hrunning
    exact hstatus program hprogram
  refine ⟨h.ofProfile, fun hrunning => absurd hrunning hnot, ?_⟩
  rcases h.kinds with ⟨o, cursor, batchSize, dryRun, hwork, -⟩ | ⟨cmd, rev, hwork, hrev, -⟩
  · exact .inl ⟨o, cursor, batchSize, dryRun, hwork,
      fun program hprogram => absurd hprogram (hstatus program),
      fun hrunning => absurd hrunning hnot, fun hrunning => absurd hrunning hnot,
      fun hrunning => absurd hrunning hnot⟩
  · exact .inr ⟨cmd, rev, hwork, hrev, fun program hprogram => absurd hprogram (hstatus program),
      fun hrunning => absurd hrunning hnot, fun hrunning => absurd hrunning hnot⟩

/-- Another transaction commits: the rows of the index that it brings are not ahead of their
memories, and these are still at the version that the batch has checked. -/
theorem BatchInv.other {c : Database R} {p p' : Participant R} (h : BatchInv encryptor c p')
    (hready : Ready encryptor profile c p) (hprofile : p'.agent.profile = profile)
    (hchecked : ∀ k v row, RowKey.semantic k ∈ p.held → checkedAt p' k.1 = some v →
      (p.view (engine R) c).memories.get? k.1 = some row → row.version = v) :
    BatchInv encryptor (p.view (engine R) c) p' where
  meets := h.meets
  indexOnly := h.indexOnly
  grown hrunning e he := (h.grown hrunning e he).trans hready.grows
  asChecked hrunning i v s hlast hfound e he := by
    rw [hprofile] at he
    by_cases hheld : RowKey.semantic (semanticKey profile i) ∈ p.held
    · obtain ⟨e', row, hown, hrow, hle, -⟩ := stores_profile.mp (hready.semantic _ hheld)
      rw [view_semantic_of_mem hheld] at he
      obtain rfl := Option.some.inj (hown.symm.trans he)
      have hversion := hchecked _ v row hheld (checkedAt_eq hrunning hlast hfound) hrow
      exact hle.trans (le_of_eq hversion)
    · rw [view_semantic_of_not_mem hheld] at he
      refine h.asChecked hrunning i v s hlast hfound e ?_
      rw [hprofile]
      exact he

theorem UpdateInv.other {c : Database R} {p p' : Participant R} {rev : Revision R}
    (h : UpdateInv encryptor c p' rev) (hex : p'.isRunning = true → ∀ k ∈ p'.held, k ∉ p.held) :
    UpdateInv encryptor (p.view (engine R) c) p' rev where
  meets := h.meets
  untouched := h.untouched
  replaced hrunning m' row hrevised := by
    obtain ⟨hheld, old, hold, hrest⟩ := h.replaced hrunning m' row hrevised
    exact ⟨hheld, old, (view_memories_of_not_mem (hex hrunning _ hheld)).trans hold, hrest⟩

theorem index_stable (hrevers : Reversible encryptor) (profile : EmbeddingProfile) :
    System.Stable (engine R) (Transaction.program encryptor)
      (fun cl action => ofProfile profile cl action = true ∧ uncrossed cl action = true)
      Database.Bounded (IndexInv encryptor profile) where
  begin cl t hok _ := by
    have hbegins := hok.1
    unfold ofProfile at hbegins
    rw [Bool.and_eq_true] at hbegins
    refine ⟨of_decide_eq_true hbegins.1, fun _ => .start t _ _, ?_⟩
    have hwork := hbegins.2
    split at hwork
    · rename_i cmd hupdate
      obtain ⟨rev, hrev⟩ := revision_of_update hupdate
      exact .inr ⟨cmd, rev, hupdate, hrev, .start hupdate hrev⟩
    · rename_i o cursor batchSize dryRun hbatch
      exact .inl ⟨o, cursor, batchSize, dryRun, hbatch, .start hbatch⟩
    · cases hwork
  execute cl n p q next r after _ hc hp hstatus _ hrun hinv := by
    have h := hinv n p hp
    have hrunning : p.isRunning = true := Process.isRunning_iff.mpr ⟨_, hstatus⟩
    have hready := h.ready hrunning
    rcases h.kinds with ⟨o, cursor, batchSize, dryRun, hwork, hbatch⟩ |
      ⟨cmd, rev, hwork, hrev, hupdate⟩
    · exact ⟨h.ofProfile, fun _ => hbatch.ready hready h.ofProfile hstatus hrun,
        .inl ⟨o, cursor, batchSize, dryRun, hwork, hbatch.advance hc hstatus hrun⟩⟩
    · exact ⟨h.ofProfile,
        fun _ => hupdate.ready hrevers hc hready h.ofProfile hwork hrev hstatus hrun,
        .inr ⟨cmd, rev, hwork, hrev, hupdate.advance hstatus hrun⟩⟩
  ended c p status _ hends h := h.ended hends.ne_running
  commit cl n p outcome hok hex hc hp hstatus hinv := by
    have hrunning : p.isRunning = true := Process.isRunning_iff.mpr ⟨_, hstatus⟩
    have hready := (hinv n p hp).ready hrunning
    refine ⟨hready.bounded hc, ?_, ?_⟩
    · refine (hinv n p hp).ended fun program hprogram => ?_
      cases hprogram
    intro m p' hm hp'
    have h := hinv m p' hp'
    have hdisjoint : p'.isRunning = true → ∀ k ∈ p'.held, k ∉ p.held :=
      fun hrunning' => hex m n p' p hm hp' hp hrunning' hrunning
    refine ⟨h.ofProfile, fun hrunning' => (h.ready hrunning').other hready (hdisjoint hrunning'), ?_⟩
    rcases h.kinds with ⟨o, cursor, batchSize, dryRun, hwork, hbatch⟩ |
      ⟨cmd, rev, hwork, hrev, hupdate⟩
    · exact .inl ⟨o, cursor, batchSize, dryRun, hwork, hbatch.other hready h.ofProfile
        fun k v row hk hchecked hrow =>
          version_of_uncrossed hok.2 hp hstatus hp' hk hchecked hrow⟩
    · exact .inr ⟨cmd, rev, hwork, hrev, hupdate.other hdisjoint⟩

theorem Advances.refl (agents : List (Transaction R)) (c : Database R) :
    Advances encryptor profile agents c c where
  kept _ e he := ⟨e, he, le_refl _⟩
  others _ _ _ he := he
  current _ _ _ _ _ he _ he' hne := absurd (Option.some.inj (he'.symm.trans he)) hne

/-- One step of a run. -/
theorem advances_of_step (hrevers : Reversible encryptor) {db : Database R} (hdb : db.Bounded)
    {cl cl' : Cluster R}
    (hrun : Reaches (System.Steps (engine R) (Transaction.program encryptor) fun cl action =>
      ofProfile profile cl action = true ∧ uncrossed cl action = true) (.start db) cl)
    (hstep : System.Steps (engine R) (Transaction.program encryptor) (fun cl action =>
      ofProfile profile cl action = true ∧ uncrossed cl action = true) cl cl') :
    Advances encryptor profile cl.agents cl.committed cl'.committed := by
  obtain ⟨-, -, hinv⟩ := (index_stable hrevers profile).reaches hdb hrun
  obtain ⟨action, -, hstep⟩ := hstep
  rcases System.committed_of_step hstep with ⟨n, p, outcome, rfl, hp, hstatus, hcommitted⟩ |
    ⟨hcommitted, -⟩
  · rw [hcommitted]
    have h := hinv n p hp
    refine (h.ready (Process.isRunning_iff.mpr ⟨_, hstatus⟩)).advances h.ofProfile ?_
    exact List.mem_map.mpr ⟨p, List.mem_of_getElem? hp, rfl⟩
  · rw [hcommitted]
    exact .refl _ _

/-- Rows of the profile stay and do not fall behind, and rows of other profiles are not written. -/
structure Forward (profile : EmbeddingProfile) (c c' : Database R) : Prop where
  kept : ∀ i e, c.semantic.get? (semanticKey profile i) = some e →
    ∃ e', c'.semantic.get? (semanticKey profile i) = some e' ∧ e.sourceVersion ≤ e'.sourceVersion
  others : ∀ k e, k ≠ semanticKey profile k.1 → c'.semantic.get? k = some e →
    c.semantic.get? k = some e

omit [Python R] in
theorem Forward.trans {c c₁ c' : Database R} (h : Forward profile c c₁)
    (h' : Forward profile c₁ c') : Forward profile c c' where
  kept i e he := by
    obtain ⟨e₁, he₁, hle⟩ := h.kept i e he
    obtain ⟨e', he', hle'⟩ := h'.kept i e₁ he₁
    exact ⟨e', he', hle.trans hle'⟩
  others k e hk he := h.others k e hk (h'.others k e hk he)

omit [Python R] in
theorem Forward.sourceVersion_le {c c' : Database R} (h : Forward profile c c') {k : SemanticKey}
    {e e' : SemanticRow R} (he : c.semantic.get? k = some e) (he' : c'.semantic.get? k = some e') :
    e.sourceVersion ≤ e'.sourceVersion := by
  by_cases hk : k = semanticKey profile k.1
  · rw [hk] at he he'
    obtain ⟨e₁, he₁, hle⟩ := h.kept _ e he
    obtain rfl := Option.some.inj (he'.symm.trans he₁)
    exact hle
  · obtain rfl := Option.some.inj (he.symm.trans (h.others k e' hk he'))
    exact le_refl _

/-- In every run of updates and re-embedding batches, by services of one profile, in which no
transaction commits a row of the index while a batch is between its check of the memory and its
upsert, unless the memory is still at the version that was checked: source versions of the index
never decrease, and a row that is current is only replaced by one that is current again, with the
vector of the content that the memory then has. -/
theorem reembedding_advances (hrevers : Reversible encryptor) (ts : List (Transaction R))
    {cl cl' : Cluster R}
    (hrun : Reaches (System.Steps (engine R) (Transaction.program encryptor) fun cl action =>
      ofProfile profile cl action = true ∧ uncrossed cl action = true)
      (.start (afterAll encryptor ts)) cl)
    (hlater : Reaches (System.Steps (engine R) (Transaction.program encryptor) fun cl action =>
      ofProfile profile cl action = true ∧ uncrossed cl action = true) cl cl') :
    (∀ k e e', cl.committed.semantic.get? k = some e → cl'.committed.semantic.get? k = some e' →
      e.sourceVersion ≤ e'.sourceVersion) ∧
    ∀ cl'', System.Steps (engine R) (Transaction.program encryptor) (fun cl action =>
      ofProfile profile cl action = true ∧ uncrossed cl action = true) cl' cl'' →
      Advances encryptor profile cl'.agents cl'.committed cl''.committed := by
  have hbounded := bounded_afterAll encryptor ts
  constructor
  · -- induction on the run between the two databases
    have hforward : Forward profile cl.committed cl'.committed := by
      induction hlater with
      | refl => exact ⟨fun _ e he => ⟨e, he, le_refl _⟩, fun _ _ _ he => he⟩
      | tail hbefore hstep ih =>
        have hadvances := advances_of_step hrevers hbounded (hrun.trans hbefore) hstep
        exact ih.trans ⟨hadvances.kept, hadvances.others⟩
    intro k e e' he he'
    exact hforward.sourceVersion_le he he'
  · intro cl'' hstep
    exact advances_of_step hrevers hbounded (hrun.trans hlater) hstep

end Runs

/-! ### A batch that overwrites a newer vector -/

/-- The index holds the memory's first version, though the memory is still under the profile of 64
dimensions: a batch has run, and no cutover. -/
def listedTwice : List (Transaction ℚ) :=
  [{ service := constantService 64 1 7
     work := .request (.write (noteCommand "alice" "likes tea" none none)) },
   { service := constantService 384 2 0, work := .batch "alice" none 10 false }]

def reembedAgain : Transaction ℚ where
  service := constantService 384 3 0
  work := .batch "alice" none 10 false

def updateMeanwhile : Transaction ℚ where
  service := constantService 384 3 0
  work := .request (.update
    { ownerId := "alice", memoryId := ⟨7⟩, expectedVersion := 1, content := some "likes coffee" })

/-- The source version of the memory's row. -/
def noteSource (db : Database ℚ) : Option Int :=
  (db.semantic.get? (⟨7⟩, "constant", "v1")).map SemanticRow.sourceVersion

theorem sourceVersion_of_noteSource {db : Database ℚ} {v : Int} (h : noteSource db = some v) :
    ∃ e, db.semantic.get? (⟨7⟩, "constant", "v1") = some e ∧ e.sourceVersion = v :=
  Option.map_eq_some_iff.mp h

/-- The source versions before and after a schedule that goes on from another. -/
def sourcesAlong (check : Cluster ℚ → Action (Transaction ℚ) → Bool)
    (first second : List (Action (Transaction ℚ))) : Option (Option Int × Option Int) :=
  (System.runs (engine ℚ) (Transaction.program none) check (.start (afterAll none listedTwice))
    first).bind fun cl =>
      (System.runs (engine ℚ) (Transaction.program none) check cl second).map fun cl' =>
        (noteSource cl.committed, noteSource cl'.committed)

theorem reaches_of_sourcesAlong {check : Cluster ℚ → Action (Transaction ℚ) → Bool}
    {first second : List (Action (Transaction ℚ))} {v v' : Int}
    (h : sourcesAlong check first second = some (some v, some v')) :
    ∃ cl cl', Reaches (System.Steps (engine ℚ) (Transaction.program none)
        fun cl action => check cl action = true) (.start (afterAll none listedTwice)) cl ∧
      Reaches (System.Steps (engine ℚ) (Transaction.program none)
        fun cl action => check cl action = true) cl cl' ∧
      noteSource cl.committed = some v ∧ noteSource cl'.committed = some v' := by
  obtain ⟨cl, hfirst, hmap⟩ := Option.bind_eq_some_iff.mp h
  obtain ⟨cl', hsecond, hsources⟩ := Option.map_eq_some_iff.mp hmap
  obtain ⟨hbefore, hafter⟩ := Prod.mk.inj hsources
  exact ⟨cl, cl', System.reaches_of_runs hfirst, System.reaches_of_runs hsecond, hbefore, hafter⟩

/-- The profile of the services. -/
abbrev wideProfile : EmbeddingProfile := (constantService 384 3 0).embeddingProvider.profile

/-- The update commits after the batch has listed the memory and before it checks it. -/
theorem reembedding_advances_stale :
    Reversible none ∧ ∃ cl cl', Reaches (System.Steps (engine ℚ) (Transaction.program none)
        fun cl action => ofProfile wideProfile cl action = true ∧ uncrossed cl action = true)
        (.start (afterAll none listedTwice)) cl ∧
      Reaches (System.Steps (engine ℚ) (Transaction.program none)
        fun cl action => ofProfile wideProfile cl action = true ∧ uncrossed cl action = true)
        cl cl' ∧
      noteSource cl.committed = some 1 ∧ noteSource cl'.committed = some 2 ∧
      (∀ k e e', cl.committed.semantic.get? k = some e → cl'.committed.semantic.get? k = some e' →
        e.sourceVersion ≤ e'.sourceVersion) ∧
      ∀ cl'', System.Steps (engine ℚ) (Transaction.program none) (fun cl action =>
        ofProfile wideProfile cl action = true ∧ uncrossed cl action = true) cl' cl'' →
        Advances none wideProfile cl'.agents cl'.committed cl''.committed := by
  have hrev : Reversible none := fun e he => by cases he
  have hsources : sourcesAlong (fun cl action => ofProfile wideProfile cl action &&
      uncrossed cl action) ([.begin reembedAgain, .begin updateMeanwhile] ++ executes 0 1)
      (executes 1 4 ++ [.finish 1] ++ executes 0 1 ++ [.finish 0]) = some (some 1, some 2) := by
    decide +kernel
  obtain ⟨cl, cl', hrun, hlater, hbefore, hafter⟩ := reaches_of_sourcesAlong hsources
  simp only [Bool.and_eq_true] at hrun hlater
  exact ⟨hrev, cl, cl', hrun, hlater, hbefore, hafter,
    reembedding_advances hrev listedTwice hrun hlater⟩

/-- The update commits between the check of the batch and its upsert. -/
theorem reembedding_regresses :
    ¬ ∀ (ts : List (Transaction ℚ)) (profile : EmbeddingProfile) (cl cl' : Cluster ℚ),
      profile.dimension = 384 →
      Reaches (System.Steps (engine ℚ) (Transaction.program none)
        fun cl action => ofProfile profile cl action = true) (.start (afterAll none ts)) cl →
      Reaches (System.Steps (engine ℚ) (Transaction.program none)
        fun cl action => ofProfile profile cl action = true) cl cl' →
      ∀ k e e', cl.committed.semantic.get? k = some e → cl'.committed.semantic.get? k = some e' →
        e.sourceVersion ≤ e'.sourceVersion := by
  intro hclaim
  have hsources : sourcesAlong (ofProfile wideProfile)
      ([.begin reembedAgain, .begin updateMeanwhile] ++ executes 0 2 ++ executes 1 4 ++ [.finish 1])
      (executes 0 1 ++ [.finish 0]) = some (some 2, some 1) := by
    decide +kernel
  obtain ⟨cl, cl', hrun, hlater, hbefore, hafter⟩ := reaches_of_sourcesAlong hsources
  obtain ⟨e, he, hnewer⟩ := sourceVersion_of_noteSource hbefore
  obtain ⟨e', he', holder⟩ := sourceVersion_of_noteSource hafter
  have hle := hclaim listedTwice wideProfile cl cl' rfl hrun hlater _ e e' he he'
  omega

end OpenMemory.Postgres
