import OpenMemory.Postgres.Programs

/-!
# Discarding candidates, among other transactions

`discard_candidate` reads the memory, checks that it is a candidate at the expected version, and
then deletes it by owner and id alone. Another transaction can commit a new version between the
read and the `DELETE`, which then removes a confirmed memory (`discards_confirmed`). That is the
only way: in every run in which no transaction that holds the memory's row commits while a
discard is between its read and its `DELETE`, a discard that reports `forgotten` deleted a
candidate at the expected version (`discards_candidate`).
-/

namespace OpenMemory.Postgres

open Lib Lib.Prog
open MonadExcept (ofExcept)
open MemoryApplicationService

variable {R : Type} [Python R]

/-! ## The body of a discard -/

/-- Statements that write to `memories`. -/
def Statement.writesMemories : Statement R → Bool
  | .insertMemory _ _ _ => true
  | .updateMemory _ _ _ _ => true
  | .deleteMemory _ _ => true
  | .cutover _ _ => true
  | .rewrapMemory _ _ => true
  | _ => false

omit [Python R] in
/-- Other statements hold no row of `memories`. -/
theorem memory_not_mem_locks {tenant : Option UUID} {q : Statement R}
    (hq : q.writesMemories = false) (db : Database R) (i : UUID) :
    RowKey.memory i ∉ q.locks tenant db := by
  refine not_mem_locks ?_
  cases q with
  | insertMemory | updateMemory | deleteMemory | cutover | rewrapMemory => cases hq
  | insertEmbedding table j values => cases table <;> simp [Statement.kinds, RowKey.kind]
  | updateEmbedding table j values => cases table <;> simp [Statement.kinds, RowKey.kind]
  | _ => simp [Statement.kinds, RowKey.kind]

section Body

variable {tenant : Option UUID} {encryptor : Option TenantEnvelopeEncryptor}
  {c : DiscardCandidateCommand} {trace : Trace R}

/-- The discard read the memory as a candidate at the version that it expects. -/
def ReadCandidate (tenant : Option UUID) (c : DiscardCandidateCommand) (trace : Trace R) : Prop :=
  ∃ s row, (Statement.selectMemory c.ownerId c.memoryId, s) ∈ trace ∧
    s.owned tenant c.ownerId c.memoryId = some row ∧ row.version = c.expectedVersion ∧
    row.state = .candidate

/-- The discard has issued its `DELETE`. -/
def Deleting (c : DiscardCandidateCommand) (trace : Trace R) : Prop :=
  ∃ s, (Statement.deleteMemory c.ownerId c.memoryId, s) ∈ trace

/-- The ledger already had the discard as done. -/
def Replayed (tenant : Option UUID) (c : DiscardCandidateCommand) (trace : Trace R) : Prop :=
  ∃ s row, (Statement.selectOperation (c.ownerId, .discard, c.idempotencyKey), s) ∈ trace ∧
    s.operation tenant (c.ownerId, .discard, c.idempotencyKey) = some row ∧
    row.status = .completed ∧ row.resultStatus = some "forgotten"

/-- The only write to `memories` is the `DELETE`, once, after the read. -/
def DiscardIssues (tenant : Option UUID) (c : DiscardCandidateCommand) (trace : Trace R)
    (q : Statement R) : Prop :=
  q.writesMemories = true → q = .deleteMemory c.ownerId c.memoryId ∧ ReadCandidate tenant c trace ∧
    ¬ Deleting c trace

/-- A discard that reports `forgotten` is a replay, or its `DELETE` found a row. -/
def DiscardEnds (tenant : Option UUID) (c : DiscardCandidateCommand) (trace : Trace R)
    (r : Except PyError ForgetMemoryResult) : Prop :=
  ∀ result, r = .ok result → result.forgotten = true → Replayed tenant c trace ∨
    ∃ s row, (Statement.deleteMemory c.ownerId c.memoryId, s) ∈ trace ∧
      s.owned tenant c.ownerId c.memoryId = some row

omit [Python R] in
theorem discardEnds_error (e : PyError) : DiscardEnds tenant c trace (.error e) :=
  fun result hresult => by cases hresult

/-- The ledger entry that a replayed claim comes from. -/
theorem replayed_of_claims {t : Trace R} {claim : IdempotencyClaim}
    (h : Claims tenant c.ownerId .discard c.idempotencyKey (fingerprintDiscardCommand R c) trace t
      (.ok claim)) (hreplay : claim.replay = true)
    (hstatus : claim.resultStatus = some "forgotten") : Replayed tenant c t := by
  generalize hr : (Except.ok claim : Except PyError IdempotencyClaim) = r at h
  cases h with
  | seen s _ =>
    obtain ⟨-, row, hrow, -, hcompleted, -, -, hresult⟩ := claimOf_ok hr.symm
    exact ⟨s, row, List.mem_append_right _ (List.mem_singleton_self _), hrow, hcompleted,
      hresult ▸ hstatus⟩
  | inserted =>
    obtain rfl := Except.ok.inj hr
    cases hreplay
  | waited _ _ s _ _ =>
    obtain ⟨-, row, hrow, -, hcompleted, -, -, hresult⟩ := claimOf_ok hr.symm
    exact ⟨s, row, List.mem_append_right _ (List.mem_singleton_self _), hrow, hcompleted,
      hresult ▸ hstatus⟩

omit [Python R] in
/-- A claim from an empty trace leaves ledger statements only. -/
theorem not_deleting_of_claims {o k fp : String} {op : IdempotencyOperationType} {t : Trace R}
    {r : Except PyError IdempotencyClaim} (h : Claims tenant o op k fp [] t r) :
    ¬ Deleting c t := by
  rintro ⟨s, hs⟩
  cases h <;> simp at hs

theorem meets_discardCandidate :
    Meets (fun q => q.run tenant) (DiscardIssues tenant c) (DiscardEnds tenant c) []
      (discardCandidate (postgresUnitOfWork (Session.interleaved R tenant encryptor)) c) := by
  have hfree : ∀ (t : Trace R) {q : Statement R}, q.writesMemories = false →
      DiscardIssues tenant c t q := by
    intro t q hq htrue
    rw [hq] at htrue
    cases htrue
  refine meets_raiseIf_bind (fun _ => discardEnds_error _) fun _ => ?_
  refine meets_validateMutationScope_bind (fun e => discardEnds_error e) ?_
  refine (meets_claim (hfree _ rfl) (fun _ _ => hfree _ rfl) fun _ _ _ _ => hfree _ rfl).bind ?_
    fun t e _ => discardEnds_error e
  intro t claim hclaims
  refine meets_ite (fun hreplay => meets_pure.mpr ?_) fun _ => ?_
  · intro result hresult hforgotten
    obtain rfl := Except.ok.inj hresult
    exact .inl (replayed_of_claims hclaims hreplay (of_decide_eq_true hforgotten))
  refine (meets_currentAt (hfree t rfl)).bind ?_ fun t e _ => discardEnds_error e
  intro t₁ m hcurrents
  refine meets_raiseIf_bind (fun _ => discardEnds_error _) fun hstate => ?_
  obtain ⟨s, row, rfl, hrow, hmemory, hversion⟩ := hcurrents.of_ok
  -- the row that was read, on the trace
  have hcandidate : ReadCandidate tenant c
      (t ++ [(Statement.selectMemory c.ownerId c.memoryId, s)]) := by
    refine ⟨s, row, List.mem_append_right _ (List.mem_singleton_self _), hrow, ?_, ?_⟩
    · rw [← (memoryFromRow_ok hmemory).2.1]
      exact hversion
    · rw [← memoryFromRow_state hmemory]
      exact not_not.mp (of_decide_eq_false hstate)
  have hnot : ¬ Deleting c (t ++ [(Statement.selectMemory c.ownerId c.memoryId, s)]) := by
    rintro ⟨s', hs'⟩
    rcases List.mem_append.mp hs' with hs' | hs'
    · exact not_deleting_of_claims hclaims ⟨s', hs'⟩
    · simp at hs'
  refine (meets_forget (fun _ => ⟨rfl, hcandidate, hnot⟩) fun t => hfree t rfl).bind ?_
    fun t e _ => discardEnds_error e
  intro t₂ forgotten hforgets
  refine (meets_complete (hfree _ rfl)).bind ?_ fun t e _ => discardEnds_error e
  intro t₃ u hcompletes
  refine meets_pure.mpr fun result hresult hforgotten => ?_
  obtain rfl := Except.ok.inj hresult
  obtain ⟨s₁, row₁, hdelete, hrow₁⟩ := hforgets.of_true hforgotten
  exact .inr ⟨s₁, row₁, hcompletes.mem hdelete, hrow₁⟩

end Body

/-! ## Runs -/

/-- The statement reads the row of the memory. -/
def Statement.readsMemory (o : String) (i : UUID) : Statement R → Bool
  | .selectMemory o' i' => decide (o' = o) && decide (i' = i)
  | _ => false

/-- The statement deletes the row of the memory. -/
def Statement.deletesMemory (o : String) (i : UUID) : Statement R → Bool
  | .deleteMemory o' i' => decide (o' = o) && decide (i' = i)
  | _ => false

/-- The transaction is a discard of the memory, between its read and its `DELETE`. -/
def deciding (p : Participant R) (i : UUID) : Bool :=
  match p.agent.work with
  | .request (.discardCandidate c) => p.isRunning && decide (c.memoryId = i) &&
      p.trace.any (fun e => e.1.readsMemory c.ownerId c.memoryId) &&
      !p.trace.any fun e => e.1.deletesMemory c.ownerId c.memoryId
  | _ => false

/-- The transaction is about to commit. -/
def commits (p : Participant R) : Bool :=
  match p.status with
  | .running (.done (.ok _)) => true
  | _ => false

theorem commits_iff {p : Participant R} :
    commits p = true ↔ ∃ outcome, p.status = .running (.done (.ok outcome)) := by
  unfold commits
  constructor
  · intro h
    split at h
    · exact ⟨_, by assumption⟩
    · cases h
  · rintro ⟨outcome, h⟩
    rw [h]

/-- No transaction that holds the row of a memory commits while a discard of that memory is
between its read and its `DELETE`. -/
def undisturbed (cl : Cluster R) : Action (Transaction R) → Bool
  | .finish n =>
    match cl.processes[n]? with
    | none => true
    | some p => !commits p || cl.processes.all fun p' =>
        p.held.all fun k => match k with
          | .memory i => !deciding p' i
          | _ => true
  | _ => true

theorem not_deciding_of_undisturbed {cl : Cluster R} {n m : Nat} {p p' : Participant R}
    {outcome : Outcome R} {i : UUID} (h : undisturbed cl (.finish n) = true)
    (hp : cl.processes[n]? = some p) (hstatus : p.status = .running (.done (.ok outcome)))
    (hp' : cl.processes[m]? = some p') (hheld : RowKey.memory i ∈ p.held) :
    deciding p' i = false := by
  have hcommits : commits p = true := by
    unfold commits
    rw [hstatus]
  unfold undisturbed at h
  simp only [hp, hcommits, Bool.not_true, Bool.false_or, List.all_eq_true] at h
  simpa using h p' (List.mem_of_getElem? hp') _ hheld

/-- What holds of a discard in the course of a run: until the `DELETE` it does not hold the row,
which stays as it was read, so that what the `DELETE` removes is a candidate. -/
structure DiscardInv (c : Database R) (p : Participant R) (cmd : DiscardCandidateCommand) :
    Prop where
  meets : ∀ program, p.status = .running program →
    Meets (fun q => q.run p.agent.tenant) (DiscardIssues p.agent.tenant cmd)
      (fun trace r => ∀ result, r = .ok (.answered (.forgotten result)) →
        DiscardEnds p.agent.tenant cmd trace (.ok result)) p.trace program
  unheld : p.isRunning = true → ¬ Deleting cmd p.trace → RowKey.memory cmd.memoryId ∉ p.held
  asRead : p.isRunning = true → ¬ Deleting cmd p.trace → ∀ s,
    (Statement.selectMemory cmd.ownerId cmd.memoryId, s) ∈ p.trace →
    c.memories.get? cmd.memoryId = s.memories.get? cmd.memoryId
  deleted : ∀ s row, (Statement.deleteMemory cmd.ownerId cmd.memoryId, s) ∈ p.trace →
    s.owned p.agent.tenant cmd.ownerId cmd.memoryId = some row →
    row.state = .candidate ∧ row.version = cmd.expectedVersion
  ends : ∀ result, p.status = .committed (.answered (.forgotten result)) →
    DiscardEnds p.agent.tenant cmd p.trace (.ok result)

omit [Python R] in
theorem owned_congr {db db' : Database R} {i : UUID}
    (h : db.memories.get? i = db'.memories.get? i) (tenant : Option UUID) (o : String) :
    db.owned tenant o i = db'.owned tenant o i := by
  unfold Database.owned Database.visible
  rw [h]

theorem DiscardInv.start (encryptor : Option TenantEnvelopeEncryptor) (c : Database R)
    {t : Transaction R} {cmd : DiscardCandidateCommand}
    (hwork : t.work = .request (.discardCandidate cmd)) :
    DiscardInv c (.start t (t.program encryptor) c) cmd where
  meets program hprogram := by
    obtain rfl := Status.running.inj hprogram
    show Meets _ _ _ [] (t.body (Session.interleaved R t.tenant encryptor))
    unfold Transaction.body
    rw [hwork]
    refine Meets.map (Meets.map meets_discardCandidate (fun _ r hr => ?_)) fun _ r hr => hr
    intro result hresult
    cases r with
    | error e => cases hresult
    | ok result' =>
      cases hresult
      exact hr
  unheld _ _ hmem := by cases hmem
  asRead _ _ s hs := by cases hs
  deleted s row hs := by cases hs
  ends result hresult := by cases hresult

/-- The statement that a discard executes next keeps the invariant. -/
theorem DiscardInv.advance {c : Database R} {p : Participant R} {cmd : DiscardCandidateCommand}
    {q : Statement R} {next : Except PyError q.Result → DbProg R (Outcome R)} {r : q.Result}
    {after : Database R} (h : DiscardInv c p cmd) (hstatus : p.status = .running (.exec q next))
    (hrun : q.run p.agent.tenant (p.view (engine R) c) = .ok (r, after)) :
    DiscardInv c (p.advance (engine R) q (p.view (engine R) c) after (next (.ok r))) cmd := by
  obtain ⟨hissues, hnext⟩ := meets_exec.mp (h.meets _ hstatus)
  have hrunning : p.isRunning = true := Process.isRunning_iff.mpr ⟨_, hstatus⟩
  have hbefore : ∀ {e : Statement R × Database R}, ¬ Deleting cmd (p.trace ++ [e]) →
      ¬ Deleting cmd p.trace := by
    rintro e hnot ⟨s, hs⟩
    exact hnot ⟨s, List.mem_append_left _ hs⟩
  have hview : ¬ Deleting cmd p.trace →
      (p.view (engine R) c).memories.get? cmd.memoryId = c.memories.get? cmd.memoryId := by
    intro hnot
    have hsame : (p.view (engine R) c).SameAt c (.memory cmd.memoryId) :=
      view_of_not_mem (h.unheld hrunning hnot)
    exact hsame
  constructor
  · intro program hprogram
    obtain rfl := Status.running.inj hprogram
    exact hnext _ _ _ hrun
  · intro _ hnot hmem
    rcases List.mem_append.mp hmem with hlock | hheld
    · cases hwrites : q.writesMemories with
      | true =>
        obtain ⟨rfl, -, -⟩ := hissues hwrites
        exact hnot ⟨_, List.mem_append_right _ (List.mem_singleton_self _)⟩
      | false => exact memory_not_mem_locks hwrites _ _ hlock
    · exact h.unheld hrunning (hbefore hnot) hheld
  · intro _ hnot s hs
    rcases List.mem_append.mp hs with hs | hs
    · exact h.asRead hrunning (hbefore hnot) s hs
    · obtain ⟨-, rfl⟩ := Prod.mk.inj (List.mem_singleton.mp hs)
      exact (hview (hbefore hnot)).symm
  · intro s row hs hrow
    rcases List.mem_append.mp hs with hs | hs
    · exact h.deleted s row hs hrow
    · obtain ⟨rfl, rfl⟩ := Prod.mk.inj (List.mem_singleton.mp hs)
      -- the row is still the one that was read
      obtain ⟨-, ⟨s₀, row₀, hs₀, hrow₀, hversion, hstate⟩, hnot⟩ := hissues rfl
      have hsame : (p.view (engine R) c).memories.get? cmd.memoryId =
          s₀.memories.get? cmd.memoryId :=
        (hview hnot).trans (h.asRead hrunning hnot s₀ hs₀)
      replace hrow : (p.view (engine R) c).owned p.agent.tenant cmd.ownerId cmd.memoryId =
        some row := hrow
      rw [owned_congr hsame, hrow₀] at hrow
      obtain rfl := Option.some.inj hrow
      exact ⟨hstate, hversion⟩
  · intro result hresult
    cases hresult

theorem deciding_of_reading {p : Participant R} {cmd : DiscardCandidateCommand} {s : Database R}
    (hwork : p.agent.work = .request (.discardCandidate cmd)) (hrunning : p.isRunning = true)
    (hread : (Statement.selectMemory cmd.ownerId cmd.memoryId, s) ∈ p.trace)
    (hnot : ¬ Deleting cmd p.trace) : deciding p cmd.memoryId = true := by
  unfold deciding
  rw [hwork]
  simp only [hrunning, decide_true, Bool.true_and, Bool.and_eq_true, List.any_eq_true,
    Bool.not_eq_true', List.any_eq_false]
  refine ⟨⟨_, hread, by simp [Statement.readsMemory]⟩, ?_⟩
  rintro ⟨q, s'⟩ hs' hdeletes
  cases q with
  | deleteMemory o i =>
    simp only [Statement.deletesMemory, Bool.and_eq_true, decide_eq_true_eq] at hdeletes
    obtain ⟨rfl, rfl⟩ := hdeletes
    exact hnot ⟨s', hs'⟩
  | _ => cases hdeletes

theorem discard_stable (encryptor : Option TenantEnvelopeEncryptor) :
    System.Stable (engine R) (Transaction.program encryptor)
      (fun cl action => undisturbed cl action = true) (fun _ => True)
      (fun c p => ∀ cmd, p.agent.work = .request (.discardCandidate cmd) → DiscardInv c p cmd) where
  begin cl t _ _ cmd hwork := .start encryptor _ hwork
  execute cl n p q next r after _ _ hp hstatus _ hrun hinv cmd hwork :=
    (hinv n p hp cmd hwork).advance hstatus hrun
  ended c p status _ hends hinv cmd hwork := by
    have h := hinv cmd hwork
    refine ⟨fun program hprogram => absurd hprogram (hends.ne_running program), ?_, ?_, h.deleted,
      fun result hresult => absurd hresult (hends.ne_committed _)⟩
    · exact fun hrunning => absurd hrunning hends.not_running
    · exact fun hrunning => absurd hrunning hends.not_running
  commit cl n p outcome hok _ _ hp hstatus hinv := by
    refine ⟨trivial, ?_, ?_⟩
    · intro cmd hwork
      have h := hinv n p hp cmd hwork
      constructor
      · intro program hprogram
        cases hprogram
      · intro hrunning
        cases hrunning
      · intro hrunning
        cases hrunning
      · exact h.deleted
      · intro result hresult
        obtain rfl := Status.committed.inj hresult
        exact meets_done.mp (h.meets _ hstatus) result rfl
    · intro m p' _ hp' cmd hwork
      have h := hinv m p' hp' cmd hwork
      refine ⟨h.meets, h.unheld, ?_, h.deleted, h.ends⟩
      intro hrunning hnot s hs
      -- the commit does not touch the row, since the discard has read it
      have hfree : RowKey.memory cmd.memoryId ∉ p.held := by
        intro hheld
        have hdeciding := deciding_of_reading hwork hrunning hs hnot
        rw [not_deciding_of_undisturbed hok hp hstatus hp' hheld] at hdeciding
        cases hdeciding
      have hsame : (p.view (engine R) cl.committed).SameAt cl.committed (.memory cmd.memoryId) :=
        view_of_not_mem hfree
      exact hsame.trans (h.asRead hrunning hnot s hs)

/-- In every run, from any database and with any other transactions, in which no transaction that
holds the row of a memory commits while a discard of that memory is between its read and its
`DELETE`: a discard that commits with `forgotten` is a replay of one that the ledger has as done,
or its `DELETE` removed a row that was a candidate at the expected version. -/
theorem discards_candidate {encryptor : Option TenantEnvelopeEncryptor} {db : Database R}
    {cl : Cluster R} (hrun : Reaches (System.Steps (engine R) (Transaction.program encryptor)
      fun cl action => undisturbed cl action = true) (.start db) cl)
    {n : Nat} {p : Participant R} {cmd : DiscardCandidateCommand} {result : ForgetMemoryResult}
    (hp : cl.processes[n]? = some p) (hwork : p.agent.work = .request (.discardCandidate cmd))
    (hstatus : p.status = .committed (.answered (.forgotten result)))
    (hforgotten : result.forgotten = true) :
    Replayed p.agent.tenant cmd p.trace ∨
      ∃ s row, (Statement.deleteMemory cmd.ownerId cmd.memoryId, s) ∈ p.trace ∧
        s.owned p.agent.tenant cmd.ownerId cmd.memoryId = some row ∧
        row.state = .candidate ∧ row.version = cmd.expectedVersion := by
  have h := ((discard_stable encryptor).reaches trivial hrun).2.2 n p hp cmd hwork
  rcases h.ends result hstatus result rfl hforgotten with hreplayed | ⟨s, row, hs, hrow⟩
  · exact .inl hreplayed
  · exact .inr ⟨s, row, hs, hrow, h.deleted s row hs hrow⟩

/-! ### Two schedules -/

def discardOfCandidate : Transaction ℚ where
  service := constantService 64 2 0
  work := .request (.discardCandidate
    { tenantId := "acme", ownerId := "alice", memoryId := ⟨7⟩, expectedVersion := 1
      idempotencyKey := "discard-1" })

/-- Whether the first transaction committed with `forgotten`, and the rows that it deleted. -/
def discarded (cl : Cluster ℚ) : Option (Bool × List (MemoryState × Int)) :=
  cl.processes.head?.bind fun p =>
    match p.status with
    | .committed (.answered (.forgotten result)) =>
      some (result.forgotten, p.trace.filterMap fun e =>
        if e.1.deletesMemory "alice" ⟨7⟩ then
          (e.2.owned none "alice" ⟨7⟩).map fun row => (row.state, row.version)
        else none)
    | _ => none

theorem discarded_eq_some {cl : Cluster ℚ} {forgotten : Bool} {rows : List (MemoryState × Int)}
    (h : discarded cl = some (forgotten, rows)) : ∃ p result, cl.processes[0]? = some p ∧
      p.status = .committed (.answered (.forgotten result)) ∧ result.forgotten = forgotten ∧
      ∀ s row, (Statement.deleteMemory "alice" ⟨7⟩, s) ∈ p.trace →
        s.owned none "alice" ⟨7⟩ = some row → (row.state, row.version) ∈ rows := by
  obtain ⟨p, hp, hrows⟩ := Option.bind_eq_some_iff.mp h
  rw [List.head?_eq_getElem?] at hp
  split at hrows
  · rename_i result hstatus
    obtain ⟨rfl, rfl⟩ := Prod.mk.inj (Option.some.inj hrows)
    refine ⟨p, result, hp, hstatus, rfl, fun s row hs hrow => ?_⟩
    refine List.mem_filterMap.mpr ⟨_, hs, ?_⟩
    have hdeletes : Statement.deletesMemory (R := ℚ) "alice" ⟨7⟩ (.deleteMemory "alice" ⟨7⟩) = true :=
      rfl
    rw [if_pos hdeletes, hrow]
    rfl
  · cases hrows

/-- The first transaction of a schedule is the one that began first. -/
theorem agent_of_runs {check : Cluster ℚ → Action (Transaction ℚ) → Bool} {t : Transaction ℚ}
    {actions : List (Action (Transaction ℚ))} {db : Database ℚ} {cl : Cluster ℚ}
    {p : Participant ℚ}
    (h : System.runs (engine ℚ) (Transaction.program none) check (.start db) (.begin t :: actions)
      = some cl) (hp : cl.processes[0]? = some p) : p.agent = t := by
  have hagents := congrArg List.head? (System.agents_of_runs h)
  rw [System.agents, List.head?_map, List.head?_eq_getElem?, hp] at hagents
  exact Option.some.inj hagents

/-- The confirmation has claimed its key, and waits. -/
def discardedFirst : List (Action (Transaction ℚ)) :=
  [.begin discardOfCandidate, .begin confirmOfCandidate] ++ executes 1 2 ++ executes 0 6 ++
    [.finish 0]

theorem discards_candidate_first :
    (∃ cl p result, Reaches (System.Steps (engine ℚ) (Transaction.program none)
        fun cl action => undisturbed cl action = true) (.start captured) cl ∧
      cl.processes[0]? = some p ∧ p.status = .committed (.answered (.forgotten result)) ∧
      result.forgotten = true ∧ (Replayed p.agent.tenant
          { tenantId := "acme", ownerId := "alice", memoryId := ⟨7⟩, expectedVersion := 1
            idempotencyKey := "discard-1" } p.trace ∨
        ∃ s row, (Statement.deleteMemory "alice" ⟨7⟩, s) ∈ p.trace ∧
          s.owned p.agent.tenant "alice" ⟨7⟩ = some row ∧ row.state = .candidate ∧
          row.version = 1)) := by
  have hrun : ((System.runs (engine ℚ) (Transaction.program none) undisturbed (.start captured)
      discardedFirst).bind discarded) = some (true, [(.candidate, 1)]) := by
    decide +kernel
  obtain ⟨cl, hruns, hdiscarded⟩ := Option.bind_eq_some_iff.mp hrun
  have hreaches := System.reaches_of_runs hruns
  obtain ⟨p, result, hp, hstatus, hforgotten, -⟩ := discarded_eq_some hdiscarded
  have hagent := agent_of_runs hruns hp
  have hwork : p.agent.work = discardOfCandidate.work := by rw [hagent]
  exact ⟨cl, p, result, hreaches, hp, hstatus, hforgotten,
    discards_candidate hreaches hp hwork hstatus hforgotten⟩

/-- The confirmation commits between the read of the discard and its `DELETE`. -/
def confirmedMeanwhile : List (Action (Transaction ℚ)) :=
  [.begin discardOfCandidate, .begin confirmOfCandidate] ++ executes 0 3 ++ executes 1 7 ++
    [.finish 1] ++ executes 0 3 ++ [.finish 0]

/-- Discards, confirmations, updates and pins. -/
def ofCandidates (_ : Cluster R) : Action (Transaction R) → Bool
  | .begin t =>
    match t.work with
    | .request (.discardCandidate _) => true
    | .request (.confirmCandidate _) => true
    | .request (.update _) => true
    | .request (.pin _) => true
    | _ => false
  | _ => true

theorem discards_confirmed :
    ¬ ∀ (db : Database ℚ) (cl : Cluster ℚ), Reaches (System.Steps (engine ℚ)
        (Transaction.program none) fun cl action => ofCandidates cl action = true) (.start db) cl →
      ∀ (n : Nat) (p : Participant ℚ) (cmd : DiscardCandidateCommand) (result : ForgetMemoryResult),
        cl.processes[n]? = some p → p.agent.work = .request (.discardCandidate cmd) →
        p.status = .committed (.answered (.forgotten result)) → result.forgotten = true →
        ∃ s row, (Statement.deleteMemory cmd.ownerId cmd.memoryId, s) ∈ p.trace ∧
          s.owned p.agent.tenant cmd.ownerId cmd.memoryId = some row ∧
          row.state = .candidate ∧ row.version = cmd.expectedVersion := by
  intro hclaim
  have hrun : ((System.runs (engine ℚ) (Transaction.program none) ofCandidates (.start captured)
      confirmedMeanwhile).bind discarded) = some (true, [(.confirmed, 2)]) := by
    decide +kernel
  obtain ⟨cl, hruns, hdiscarded⟩ := Option.bind_eq_some_iff.mp hrun
  obtain ⟨p, result, hp, hstatus, hforgotten, hrows⟩ := discarded_eq_some hdiscarded
  have hagent := agent_of_runs hruns hp
  have hwork : p.agent.work = discardOfCandidate.work := by rw [hagent]
  obtain ⟨s, row, hs, hrow, hstate, -⟩ := hclaim captured cl (System.reaches_of_runs hruns) 0 p _
    result hp hwork hstatus hforgotten
  rw [hagent] at hrow
  obtain ⟨hconfirmed, -⟩ := Prod.mk.inj (List.mem_singleton.mp (hrows s row hs hrow))
  rw [hstate] at hconfirmed
  cases hconfirmed

end OpenMemory.Postgres
