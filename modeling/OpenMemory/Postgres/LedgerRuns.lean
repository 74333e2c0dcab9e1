import OpenMemory.Postgres.Ledger

/-!
# The ledger in a run

The invariant of a transaction among others (`LedgerLaws`). With a claim it sees the committed
row of its key, or, once its `INSERT` found none, a row of its own that it holds until it ends
while the committed state has none. A row that it saw stays committed. Without a claim, and under
other keys, it touches nothing of the ledger. `ledger_stable`: every step of a run keeps this.
-/

namespace OpenMemory.Postgres

open Lib Lib.Prog
open MonadExcept (ofExcept)
open MemoryApplicationService

variable {R : Type} [Python R]

/-! ## Programs -/

section Program

variable {encryptor : Option TenantEnvelopeEncryptor} {t : Transaction R} {c : LedgerClaim}

omit [Python R] in
theorem LedgerEnds.map {α β : Type} {f : α → Option (UUID × Option Int)}
    {g : β → Option (UUID × Option Int)} {h : α → β} {tenant : Option UUID} {trace : Trace R}
    {r : Except PyError α} (hends : LedgerEnds f tenant c trace r) (hsame : ∀ a, g (h a) = f a) :
    LedgerEnds g tenant c trace (r.map h) := by
  cases r with
  -- an error claims nothing of the ledger but the errors that it may be
  | error e =>
    constructor
    · intro b hb
      cases hb
    · intro b hb
      cases hb
    · intro e' he'
      obtain rfl := Except.error.inj he'
      exact hends.raises e rfl
  | ok a =>
    -- a result is renamed, and names the same memory and version
    constructor
    · intro b _
      exact hends.agrees a rfl
    · intro b hb
      obtain rfl := Except.ok.inj hb
      rw [hsame]
      exact hends.returns a rfl
    · intro e he
      cases he

/-- The answer of a service is the outcome of its unit of work. -/
theorem meets_answered {α : Type} {f : α → Option (UUID × Option Int)} {g : α → Response R}
    {x : DbProg R α}
    (h : Meets (fun q => q.run t.tenant) (Issues t.tenant c) (LedgerEnds f t.tenant c) [] x)
    (hresult : ∀ a, Outcome.result (.answered (g a)) = f a) :
    Meets (fun q => q.run t.tenant) (Issues t.tenant c) (LedgerEnds Outcome.result t.tenant c) []
      (Outcome.answered <$> g <$> x) := by
  have hresponse : Meets (fun q => q.run t.tenant) (Issues t.tenant c)
      (LedgerEnds (fun response => Outcome.result (.answered response)) t.tenant c) [] (g <$> x) :=
    Meets.map h fun _ _ hr => hr.map hresult
  exact Meets.map hresponse fun _ _ hr => hr.map fun _ => rfl

/-- A unit of work with a claim is one of the five operations. -/
theorem meets_program (h : t.work.claims = some c) :
    Meets (fun q => q.run t.tenant) (Issues t.tenant c) (LedgerEnds Outcome.result t.tenant c) []
      (t.program encryptor) := by
  unfold Transaction.program Transaction.body
  cases hwork : t.work with
  | batch o cursor size dryRun =>
    rw [hwork] at h
    cases h
  | cutover o =>
    rw [hwork] at h
    cases h
  | rotation k =>
    rw [hwork] at h
    cases h
  | request request =>
    rw [hwork] at h
    cases request with
    -- the five mutations with a key end by completing their claim
    | update cmd =>
      obtain ⟨key, hkey, rfl⟩ := Option.map_eq_some_iff.mp h
      exact meets_answered (meets_update hkey) fun _ => rfl
    | forget cmd =>
      obtain ⟨key, hkey, rfl⟩ := Option.map_eq_some_iff.mp h
      exact meets_answered (meets_serviceForget hkey) fun _ => rfl
    | confirmCandidate cmd =>
      obtain rfl := Option.some.inj h
      exact meets_answered meets_confirmCandidate fun _ => rfl
    | pin cmd =>
      obtain rfl := Option.some.inj h
      exact meets_answered meets_pin fun _ => rfl
    | discardCandidate cmd =>
      obtain rfl := Option.some.inj h
      exact meets_answered meets_discard fun _ => rfl
    -- no other request claims
    | _ => cases h

/-- A unit of work without a claim leaves the ledger alone. -/
theorem ledgerFree_program (h : t.work.claims = none) : LedgerFree (t.program encryptor) := by
  unfold Transaction.program Transaction.body
  cases hwork : t.work with
  | batch o cursor size dryRun => exact (ledgerFree_batch _ _ _ _ _).map
  | cutover o => exact (ledgerFree_cutoverEmbeddingProfile _ _).map
  | rotation k => exact (ledgerFree_rewrapEnvelopes _).map
  | request request =>
    rw [hwork] at h
    refine Within.map ?_
    cases request with
    -- mutations that claim are excluded, optional keys are absent, and the rest never touches the
    -- ledger
    | write cmd => exact (ledgerFree_write _ _).map
    | capture cmd => exact (ledgerFree_capture _ _).map
    | listInbox cmd => exact (ledgerFree_listInbox _).map
    | confirmCandidate cmd => cases h
    | pin cmd => cases h
    | discardCandidate cmd => cases h
    | «recall» cmd => exact (ledgerFree_recall _ _).map
    | search cmd => exact (ledgerFree_search _ _).map
    | update cmd =>
      refine Within.map (within_ofExcept.bind fun _ => ?_)
      rw [Option.map_eq_none_iff.mp h]
      exact ledgerFree_updateBody _ _
    | forget cmd =>
      refine Within.map (within_ofExcept.bind fun _ => ?_)
      rw [Option.map_eq_none_iff.mp h]
      exact (ledgerFree_forget _ _).bind fun _ => within_pure
    | relate cmd => exact (ledgerFree_relate _ _).map
    | exportMemories o includeEmbeddings =>
      exact Within.map (within_ofExcept.bind fun _ => ledgerFree_exportMemories _ _)
    | importMemories o records => exact (ledgerFree_serviceImport _ _ _).map

end Program

/-! ## One transaction in a run -/

omit [Python R] in
/-- Statements that are not about the key do not hold its row. -/
theorem operation_not_mem_locks {tenant : Option UUID} {q : Statement R} {key : OperationKey}
    (hq : q.ledgerKey ≠ some key) (db : Database R) : RowKey.operation key ∉ q.locks tenant db := by
  cases q with
  -- a select waits for the row of its own key only
  | selectOperation key' =>
    intro hmem
    have hawaits := Statement.locks_subset tenant _ db hmem
    simp only [Statement.awaits] at hawaits
    split at hawaits
    · cases hawaits
    · exact hq (congrArg some (RowKey.operation.inj (List.mem_singleton.mp hawaits)).symm)
  | insertOperation key' fp =>
    intro hmem
    have hawaits := Statement.locks_subset tenant _ db hmem
    exact hq (congrArg some (RowKey.operation.inj (List.mem_singleton.mp hawaits)).symm)
  -- so does the completing update
  | completeOperation key' fp i v status =>
    intro hmem
    have hawaits := Statement.locks_subset tenant _ db hmem
    simp only [Statement.awaits] at hawaits
    split at hawaits
    · cases hawaits
    · exact hq (congrArg some (RowKey.operation.inj (List.mem_singleton.mp hawaits)).symm)
  -- statements on the other tables lock no ledger row
  | insertEmbedding table i values =>
    refine not_mem_locks ?_
    cases table <;> simp [Statement.kinds, RowKey.kind]
  | updateEmbedding table i values =>
    refine not_mem_locks ?_
    cases table <;> simp [Statement.kinds, RowKey.kind]
  | _ => exact not_mem_locks (by simp [Statement.kinds, RowKey.kind])

/-- The row of a claim, in the hands of the transaction that inserted it. -/
structure LedgerRow (tenant : Option UUID) (c : LedgerClaim) (trace : Trace R)
    (row : OperationRow) : Prop where
  fingerprint : row.fingerprint = c.fingerprint
  tenantId : row.tenantId = tenant
  inProgress : ¬ Completing c.key trace → row.status = .inProgress
  completed : ∀ fp i v status s, (Statement.completeOperation c.key fp i v status, s) ∈ trace →
    row.status = .completed ∧ row.memoryId = i ∧ row.resultVersion = v ∧ Recordable c i v

/-- What a running transaction sees of its key: the committed row, or one of its own that nobody
else has. -/
structure LedgerView (db : Database R) (p : Participant R) (c : LedgerClaim) : Prop where
  shared : ¬ Claimed c.key p.trace →
    (p.view (engine R) db).operations.get? c.key = db.operations.get? c.key
  locked : ¬ Claimed c.key p.trace → RowKey.operation c.key ∈ p.held →
    db.operations.get? c.key ≠ none
  owned : Claimed c.key p.trace → db.operations.get? c.key = none ∧
    RowKey.operation c.key ∈ p.held ∧
    ∃ row, p.own.operations.get? c.key = some row ∧ LedgerRow p.agent.tenant c p.trace row

/-- What its statements tell of the ledger. -/
structure LedgerTrace (db : Database R) (p : Participant R) (c : LedgerClaim) : Prop where
  completing : Completing c.key p.trace → Claimed c.key p.trace
  observed : ∀ row, Observed p.agent.tenant c.key row p.trace →
    db.operations.get? c.key = some row
  mutating : ∀ e ∈ p.trace, e.1.mutates = true → Claimed c.key p.trace

/-- The invariant of a transaction with a claim. -/
structure LedgerInv (db : Database R) (p : Participant R) (c : LedgerClaim) : Prop where
  meets : ∀ program, p.status = .running program →
    Meets (fun q => q.run p.agent.tenant) (Issues p.agent.tenant c)
      (LedgerEnds Outcome.result p.agent.tenant c) p.trace program
  view : p.isRunning = true → LedgerView db p c
  trace : LedgerTrace db p c
  committed : ∀ outcome, p.status = .committed outcome →
    LedgerEnds Outcome.result p.agent.tenant c p.trace (.ok outcome)
  raised : ∀ e, p.status = .raised e →
    LedgerEnds (Outcome.result (R := R)) p.agent.tenant c p.trace (.error e)
  recorded : ∀ outcome, p.status = .committed outcome → Claimed c.key p.trace →
    ∃ row i v, db.operations.get? c.key = some row ∧ row.fingerprint = c.fingerprint ∧
      row.status = .completed ∧ Recordable c row.memoryId row.resultVersion ∧
      outcome.result = some (i, v) ∧ row.memoryId = some i ∧ row.resultVersion = v

section Step

variable {db : Database R} {p : Participant R} {c : LedgerClaim} {q : Statement R} {r : q.Result}
  {after : Database R} {program : DbProg R (Outcome R)}

/-- What the transaction sees of a row after a statement. -/
theorem view_operation_advance {key : OperationKey}
    (hrun : q.run p.agent.tenant (p.view (engine R) db) = .ok (r, after)) :
    ((p.advance (engine R) q (p.view (engine R) db) after program).view (engine R)
      db).operations.get? key = after.operations.get? key := by
  have hsame : ((p.advance (engine R) q (p.view (engine R) db) after program).view (engine R)
      db).SameAt after (.operation key) := view_advance hrun
  exact hsame

/-- A statement off the ledger leaves the transaction's view of its key. -/
theorem LedgerView.advance_free (h : LedgerView db p c)
    (hrun : q.run p.agent.tenant (p.view (engine R) db) = .ok (r, after))
    (hq : q.ledgerKey = none) :
    LedgerView db (p.advance (engine R) q (p.view (engine R) db) after program) c := by
  have hlocks : RowKey.operation c.key ∉ q.locks p.agent.tenant (p.view (engine R) db) :=
    operation_not_mem_locks (by simp [hq]) _
  -- a statement without a ledger key leaves the row as it saw it
  have hafter : after.operations.get? c.key =
      (p.view (engine R) db).operations.get? c.key := by
    have hsame : after.SameAt (p.view (engine R) db) (.operation c.key) := run_sameAt hrun hlocks
    exact hsame
  -- so the trace claims and completes what it did before
  have hext : Extends (fun q : Statement R => q.ledgerKey = none) p.trace
      (p.trace ++ [(q, p.view (engine R) db)]) := by
    refine ⟨_, rfl, fun e he => ?_⟩
    rw [List.mem_singleton.mp he]
    exact hq
  obtain ⟨hclaimed, hcompleting, -⟩ := ledger_extends p.agent.tenant c.key hext
  constructor
  -- not claimed: the view is still the shared row
  · intro hnot
    rw [view_operation_advance hrun, hafter]
    exact h.shared fun hc => hnot (hclaimed.mpr hc)
  -- not claimed, and so not held
  · intro hnot hheld
    refine h.locked (fun hc => hnot (hclaimed.mpr hc)) ?_
    exact (List.mem_append.mp hheld).resolve_left hlocks
  -- claimed: the row is held, and nobody else has written it
  · intro hc
    obtain ⟨hnone, hheld, row, hrow, hledger⟩ := h.owned (hclaimed.mp hc)
    refine ⟨hnone, List.mem_append_right _ hheld, row, ?_, ?_⟩
    · have hview : (p.view (engine R) db).SameAt p.own (.operation c.key) := view_of_mem hheld
      exact hafter.trans (Eq.trans hview hrow)
    · refine ⟨hledger.fingerprint, hledger.tenantId,
        fun hopen => hledger.inProgress fun hdone => hopen (hcompleting.mpr hdone), ?_⟩
      intro fp i v status s hs
      rcases List.mem_append.mp hs with hs | hs
      · exact hledger.completed fp i v status s hs
      · obtain ⟨rfl, -⟩ := Prod.mk.inj (List.mem_singleton.mp hs)
        cases hq

/-- A select sees the committed row. -/
theorem LedgerView.advance_select (h : LedgerView db p c)
    (hnot : ¬ Claimed c.key p.trace) {r : (Statement.selectOperation (R := R) c.key).Result}
    (hrun : (Statement.selectOperation c.key).run p.agent.tenant (p.view (engine R) db) =
      .ok (r, after)) :
    LedgerView db (p.advance (engine R) (.selectOperation c.key) (p.view (engine R) db) after
      program) c := by
  obtain ⟨-, rfl⟩ := Prod.mk.inj (Except.ok.inj hrun)
  have hunclaimed : ¬ Claimed c.key (p.trace ++ [(.selectOperation c.key, p.view (engine R) db)]) := by
    intro hclaimed
    rcases claimed_append.mp hclaimed with hclaimed | ⟨⟨fp, heq⟩, -⟩
    · exact hnot hclaimed
    · cases heq
  refine ⟨fun _ => ?_, fun _ hheld => ?_, fun hclaimed => absurd hclaimed hunclaimed⟩
  · rw [view_operation_advance hrun]
    exact h.shared hnot
  · rcases List.mem_append.mp hheld with hlock | hheld
    · replace hlock : RowKey.operation c.key ∈ Statement.awaits p.agent.tenant
        (.selectOperation c.key) (p.view (engine R) db) := hlock
      rw [← h.shared hnot]
      intro hnone
      simp only [Statement.awaits, hnone] at hlock
      cases hlock
    · exact h.locked hnot hheld

/-- An insert finds the committed row, or takes the key. -/
theorem LedgerView.advance_insert (h : LedgerView db p c) (htrace : LedgerTrace db p c)
    (hnot : ¬ Claimed c.key p.trace)
    {r : (Statement.insertOperation (R := R) c.key c.fingerprint).Result}
    (hrun : (Statement.insertOperation c.key c.fingerprint).run p.agent.tenant
      (p.view (engine R) db) = .ok (r, after)) :
    LedgerView db (p.advance (engine R) (.insertOperation c.key c.fingerprint)
      (p.view (engine R) db) after program) c := by
  have hafter : ((p.view (engine R) db).insertOperation p.agent.tenant c.key c.fingerprint).2 =
      after := (Prod.mk.inj (Except.ok.inj hrun)).2
  have hshared := h.shared hnot
  by_cases htaken : (p.view (engine R) db).operations.contains c.key = true
  · -- somebody else's row: nothing changes
    have hunclaimed : ¬ Claimed c.key (p.trace ++
        [(.insertOperation c.key c.fingerprint, p.view (engine R) db)]) := by
      intro hclaimed
      rcases claimed_append.mp hclaimed with hclaimed | ⟨-, habsent⟩
      · exact hnot hclaimed
      · rw [htaken] at habsent
        cases habsent
    have hlocks : RowKey.operation c.key ∉ Statement.locks p.agent.tenant
        (.insertOperation c.key c.fingerprint) (p.view (engine R) db) := by
      simp only [Statement.locks, htaken, if_true]
      exact List.not_mem_nil
    refine ⟨fun _ => ?_, fun _ hheld => ?_, fun hclaimed => absurd hclaimed hunclaimed⟩
    · rw [view_operation_advance hrun, ← hafter]
      unfold Database.insertOperation
      rw [if_pos htaken]
      exact hshared
    · exact h.locked hnot ((List.mem_append.mp hheld).resolve_left hlocks)
  -- the key was free: from here on the row is this transaction's
  · have hclaimed : Claimed c.key (p.trace ++
        [(.insertOperation c.key c.fingerprint, p.view (engine R) db)]) :=
      claimed_append.mpr (.inr ⟨⟨_, rfl⟩, Bool.eq_false_iff.mpr htaken⟩)
    have hopen : ¬ Completing c.key (p.trace ++
        [(.insertOperation c.key c.fingerprint, p.view (engine R) db)]) := by
      intro hdone
      rcases completing_append.mp hdone with hdone | ⟨_, _, _, _, heq⟩
      · exact hnot (htrace.completing hdone)
      · cases heq
    refine ⟨fun hn => absurd hclaimed hn, fun hn => absurd hclaimed hn, fun _ => ⟨?_, ?_, ?_⟩⟩
    · rw [← hshared]
      exact (Dict.contains_eq_false_iff _ _).mp (Bool.eq_false_iff.mpr htaken)
    · refine List.mem_append_left _ ?_
      show RowKey.operation c.key ∈ Statement.locks p.agent.tenant
        (.insertOperation c.key c.fingerprint) (p.view (engine R) db)
      simp only [Statement.locks]
      rw [if_neg htaken]
      exact List.mem_singleton_self _
    · refine ⟨{ fingerprint := c.fingerprint, tenantId := p.agent.tenant }, ?_, rfl, rfl,
        fun _ => rfl, fun fp i v status s hs => absurd ⟨fp, i, v, status, s, hs⟩ hopen⟩
      -- in progress, under its own fingerprint
      show after.operations.get? c.key = _
      rw [← hafter]
      unfold Database.insertOperation
      rw [if_neg htaken]
      exact Dict.get?_set_self _ _ _

/-- `complete` finds the row in progress and records the result. -/
theorem LedgerView.advance_complete {i : Option UUID} {v : Option Int} {status : String}
    (h : LedgerView db p c) (hclaimed : Claimed c.key p.trace)
    (hopen : ¬ Completing c.key p.trace) (hrecord : Recordable c i v)
    {r : (Statement.completeOperation (R := R) c.key c.fingerprint i v status).Result}
    (hrun : (Statement.completeOperation c.key c.fingerprint i v status).run p.agent.tenant
      (p.view (engine R) db) = .ok (r, after)) :
    LedgerView db (p.advance (engine R) (.completeOperation c.key c.fingerprint i v status)
      (p.view (engine R) db) after program) c := by
  have hafter : ((p.view (engine R) db).completeOperation p.agent.tenant c.key c.fingerprint i v
      status).2 = after := (Prod.mk.inj (Except.ok.inj hrun)).2
  obtain ⟨hnone, hheld, row, hrow, hledger⟩ := h.owned hclaimed
  -- the row that it inserted is the one that it sees
  have hview : (p.view (engine R) db).operations.get? c.key = some row := by
    have hsame : (p.view (engine R) db).SameAt p.own (.operation c.key) := view_of_mem hheld
    exact Eq.trans hsame hrow
  -- so the conditions of the UPDATE hold, and the row is completed
  have hfound : ((p.view (engine R) db).operations.get? c.key).filter (fun row =>
      decide (row.tenantId = p.agent.tenant) && decide (row.fingerprint = c.fingerprint) &&
        decide (row.status = .inProgress)) = some row := by
    rw [hview]
    refine Option.filter_some_pos ?_
    rw [decide_eq_true hledger.tenantId, decide_eq_true hledger.fingerprint,
      decide_eq_true (hledger.inProgress hopen)]
    rfl
  have hstill : Claimed c.key (p.trace ++
      [(.completeOperation c.key c.fingerprint i v status, p.view (engine R) db)]) :=
    claimed_append.mpr (.inl hclaimed)
  refine ⟨fun hn => absurd hstill hn, fun hn => absurd hstill hn, fun _ => ?_⟩
  refine ⟨hnone, List.mem_append_right _ hheld, { row with
    status := .completed, memoryId := i, resultVersion := v, resultStatus := some status }, ?_, ?_⟩
  · show after.operations.get? c.key = _
    rw [← hafter]
    unfold Database.completeOperation
    rw [hfound]
    exact Dict.get?_set_self _ _ _
  · refine ⟨hledger.fingerprint, hledger.tenantId, fun hn => ?_, ?_⟩
    · exact absurd (completing_append.mpr (.inr ⟨_, _, _, _, rfl⟩)) hn
    -- it completes once: an earlier completion is excluded
    · intro fp i' v' status' s hs
      rcases List.mem_append.mp hs with hs | hs
      · exact absurd ⟨fp, i', v', status', s, hs⟩ hopen
      · obtain ⟨heq, -⟩ := Prod.mk.inj (List.mem_singleton.mp hs)
        obtain ⟨-, -, rfl, rfl, -⟩ := Statement.completeOperation.inj heq
        exact ⟨rfl, rfl, rfl, hrecord⟩

/-- Whatever the body issues, the transaction sees the committed row or its own. -/
theorem LedgerView.advance (h : LedgerView db p c) (htrace : LedgerTrace db p c)
    (hissues : Issues p.agent.tenant c p.trace q)
    (hrun : q.run p.agent.tenant (p.view (engine R) db) = .ok (r, after)) :
    LedgerView db (p.advance (engine R) q (p.view (engine R) db) after program) c := by
  cases hq : q.ledgerKey with
  | none => exact h.advance_free hrun hq
  | some key =>
    obtain rfl := hissues.own key hq
    cases q with
    | selectOperation key =>
      obtain rfl := Option.some.inj hq
      exact h.advance_select (hissues.selects rfl) hrun
    | insertOperation key fp =>
      obtain rfl := Option.some.inj hq
      obtain ⟨rfl, hnot⟩ := hissues.inserts fp rfl
      exact h.advance_insert htrace hnot hrun
    | completeOperation key fp i v status =>
      obtain rfl := Option.some.inj hq
      obtain ⟨rfl, hclaimed, hopen, hrecord⟩ := hissues.completes fp i v status rfl
      exact h.advance_complete hclaimed hopen hrecord hrun
    | _ => cases hq

theorem LedgerTrace.advance (h : LedgerTrace db p c) (hview : LedgerView db p c)
    (hissues : Issues p.agent.tenant c p.trace q) :
    LedgerTrace db (p.advance (engine R) q (p.view (engine R) db) after program) c := by
  have hstill : Claimed c.key p.trace →
      Claimed c.key (p.trace ++ [(q, p.view (engine R) db)]) :=
    fun hclaimed => claimed_append.mpr (.inl hclaimed)
  constructor
  · intro hdone
    rcases completing_append.mp hdone with hdone | ⟨fp, i, v, status, rfl⟩
    · exact hstill (h.completing hdone)
    · exact hstill (hissues.completes fp i v status rfl).2.1
  · intro row hrow
    rcases observed_append.mp hrow with hrow | ⟨rfl, hrow⟩
    · exact h.observed row hrow
    · rw [← hview.shared (hissues.selects rfl)]
      exact (Option.filter_eq_some_iff.mp hrow).1
  · intro e he hmutates
    rcases List.mem_append.mp he with he | he
    · exact hstill (h.mutating e he hmutates)
    · rw [List.mem_singleton.mp he] at hmutates
      exact hstill (hissues.mutates hmutates)

theorem LedgerInv.advance {next : Except PyError q.Result → DbProg R (Outcome R)}
    (h : LedgerInv db p c) (hstatus : p.status = .running (.exec q next))
    (hrun : q.run p.agent.tenant (p.view (engine R) db) = .ok (r, after)) :
    LedgerInv db (p.advance (engine R) q (p.view (engine R) db) after (next (.ok r))) c := by
  obtain ⟨hissues, hnext⟩ := meets_exec.mp (h.meets _ hstatus)
  have hview := h.view (Process.isRunning_iff.mpr ⟨_, hstatus⟩)
  constructor
  · intro program hprogram
    obtain rfl := Status.running.inj hprogram
    exact hnext _ _ _ hrun
  · intro _
    exact hview.advance h.trace hissues hrun
  · exact h.trace.advance hview hissues
  · intro outcome houtcome
    cases houtcome
  · intro e he
    cases he
  · intro outcome houtcome
    cases houtcome

end Step

/-! ## Runs -/

/-- The invariant of any transaction: with a claim it keeps to its own key, without one it leaves
the ledger alone. -/
structure LedgerLaws (db : Database R) (p : Participant R) : Prop where
  claim : ∀ c, p.agent.work.claims = some c → LedgerInv db p c
  free : p.agent.work.claims = none → ∀ program, p.status = .running program → LedgerFree program
  others : p.isRunning = true → ∀ key, (∀ c, p.agent.work.claims = some c → c.key ≠ key) →
    RowKey.operation key ∉ p.held

theorem LedgerLaws.start (encryptor : Option TenantEnvelopeEncryptor) (db : Database R)
    (t : Transaction R) : LedgerLaws db (.start t (t.program encryptor) db) := by
  have hempty : ∀ key, ¬ Claimed key ([] : Trace R) :=
    fun key => (undecided_nil key : Undecided none key _).unclaimed
  constructor
  -- nothing has been issued, so nothing is claimed, completed or held
  · intro c hc
    constructor
    · intro program hprogram
      obtain rfl := Status.running.inj hprogram
      exact meets_program hc
    · intro _
      refine ⟨fun _ => ?_, fun _ hheld => ?_, fun hclaimed => absurd hclaimed (hempty _)⟩
      · have hsame : (Process.view (engine R) (.start t (t.program encryptor) db) db).SameAt db
            (.operation c.key) := view_of_not_mem List.not_mem_nil
        exact hsame
      · cases hheld
    · refine ⟨?_, ?_, ?_⟩
      · rintro ⟨_, _, _, _, s, hs⟩
        cases hs
      · rintro row ⟨s, hs, -⟩
        cases hs
      · intro e he
        cases he
    · intro outcome houtcome
      cases houtcome
    · intro e he
      cases he
    · intro outcome houtcome
      cases houtcome
  -- work without a key never touches the ledger
  · intro hnone program hprogram
    obtain rfl := Status.running.inj hprogram
    exact ledgerFree_program hnone
  · intro _ key _ hheld
    cases hheld

theorem LedgerLaws.advance {db : Database R} {p : Participant R} {q : Statement R} {r : q.Result}
    {after : Database R} {next : Except PyError q.Result → DbProg R (Outcome R)}
    (h : LedgerLaws db p) (hstatus : p.status = .running (.exec q next))
    (hrun : q.run p.agent.tenant (p.view (engine R) db) = .ok (r, after)) :
    LedgerLaws db (p.advance (engine R) q (p.view (engine R) db) after (next (.ok r))) := by
  have hrunning : p.isRunning = true := Process.isRunning_iff.mpr ⟨_, hstatus⟩
  constructor
  -- the laws of the claim and of the free program are those of one statement
  · intro c hc
    exact (h.claim c hc).advance hstatus hrun
  · intro hnone program hprogram
    obtain rfl := Status.running.inj hprogram
    exact (within_exec.mp (h.free hnone _ hstatus)).2 _
  · intro _ key hkey hheld
    -- a ledger row locked now is the one that the statement is about
    rcases List.mem_append.mp hheld with hlock | hheld
    · refine operation_not_mem_locks ?_ _ hlock
      intro hq
      cases hclaims : p.agent.work.claims with
      | none =>
        have hfree := (within_exec.mp (h.free hclaims _ hstatus)).1
        rw [hq] at hfree
        cases hfree
      | some c =>
        obtain ⟨hissues, -⟩ := meets_exec.mp ((h.claim c hclaims).meets _ hstatus)
        exact hkey c hclaims (hissues.own key hq).symm
    · exact h.others hrunning key hkey hheld

theorem LedgerLaws.ended {db : Database R} {p : Participant R}
    {status : Status (Statement R) Statement.Result PyError (Outcome R)} (h : LedgerLaws db p)
    (hends : p.Ends status) : LedgerLaws db { p with status := status } := by
  constructor
  · intro c hc
    have hinv := h.claim c hc
    constructor
    · exact fun program hprogram => absurd hprogram (hends.ne_running program)
    · exact fun hrunning => absurd hrunning hends.not_running
    · exact ⟨hinv.trace.completing, hinv.trace.observed, hinv.trace.mutating⟩
    · exact fun outcome houtcome => absurd houtcome (hends.ne_committed outcome)
    · intro e he
      rcases hends with ⟨e', hstatus, hraised⟩ | ⟨e', haborted⟩
      · obtain rfl := Status.raised.inj (he.symm.trans hraised)
        exact meets_done.mp (hinv.meets _ hstatus)
      · cases he.symm.trans haborted
    · exact fun outcome houtcome => absurd houtcome (hends.ne_committed outcome)
  · exact fun _ program hprogram => absurd hprogram (hends.ne_running program)
  · exact fun hrunning => absurd hrunning hends.not_running

/-- A commit leaves the row of a key, or it is the commit of the transaction that claimed it. -/
theorem LedgerLaws.view_operation {db : Database R} {p : Participant R} (h : LedgerLaws db p)
    (hrunning : p.isRunning = true) (key : OperationKey) :
    (p.view (engine R) db).operations.get? key = db.operations.get? key ∨
      ∃ c, p.agent.work.claims = some c ∧ c.key = key ∧ Claimed key p.trace := by
  by_cases hkey : ∃ c, p.agent.work.claims = some c ∧ c.key = key
  · obtain ⟨c, hc, rfl⟩ := hkey
    by_cases hclaimed : Claimed c.key p.trace
    · exact .inr ⟨c, hc, rfl, hclaimed⟩
    · exact .inl (((h.claim c hc).view hrunning).shared hclaimed)
  · have hheld : RowKey.operation key ∉ p.held :=
      h.others hrunning key fun c hc heq => hkey ⟨c, hc, heq⟩
    have hsame : (p.view (engine R) db).SameAt db (.operation key) := view_of_not_mem hheld
    exact .inl hsame

/-- The transaction that commits has recorded what it returns. -/
theorem LedgerInv.commit {db : Database R} {p : Participant R} {c : LedgerClaim}
    {outcome : Outcome R} (h : LedgerInv db p c)
    (hstatus : p.status = .running (.done (.ok outcome))) :
    LedgerInv (p.view (engine R) db) { p with status := .committed outcome } c := by
  have hview := h.view (Process.isRunning_iff.mpr ⟨_, hstatus⟩)
  have hends := meets_done.mp (h.meets _ hstatus)
  constructor
  · intro program hprogram
    cases hprogram
  · intro hrunning
    cases hrunning
  · refine ⟨h.trace.completing, fun row hrow => ?_, h.trace.mutating⟩
    have hcommitted := h.trace.observed row hrow
    -- a row seen before the claim was somebody else's committed one
    by_cases hclaimed : Claimed c.key p.trace
    · rw [(hview.owned hclaimed).1] at hcommitted
      cases hcommitted
    · rw [hview.shared hclaimed]
      exact hcommitted
  · intro outcome' houtcome
    obtain rfl := Status.committed.inj houtcome
    exact hends
  · intro e he
    cases he
  · intro outcome' houtcome hclaimed
    obtain rfl := Status.committed.inj houtcome
    obtain ⟨-, hheld, row, hrow, hledger⟩ := hview.owned hclaimed
    -- it ends after completing its claim, or has none
    rcases hends.returns outcome rfl with ⟨-, i, v, status, s, hresult, hs⟩ | ⟨hnot, -⟩
    · obtain ⟨hstatus, hmemory, hversion, hrecord⟩ := hledger.completed _ _ _ _ _ hs
      have hsame : (p.view (engine R) db).SameAt p.own (.operation c.key) := view_of_mem hheld
      refine ⟨row, i, v, Eq.trans hsame hrow, hledger.fingerprint, hstatus, ?_, hresult, hmemory,
        hversion⟩
      rw [hmemory, hversion]
      exact hrecord
    · exact absurd hclaimed hnot

/-- What another transaction's commit does to the claims of this one. -/
theorem LedgerInv.commit_other {db : Database R} {p p' : Participant R} {c : LedgerClaim}
    (h : LedgerInv db p' c) (hp : LedgerLaws db p) (hrunning : p.isRunning = true)
    (hexclusive : p'.isRunning = true → ∀ k ∈ p.held, k ∉ p'.held) :
    LedgerInv (p.view (engine R) db) p' c := by
  -- the committed row stays, or there was none and another transaction inserted it
  have hrow : (p.view (engine R) db).operations.get? c.key = db.operations.get? c.key ∨
      db.operations.get? c.key = none ∧ RowKey.operation c.key ∈ p.held := by
    rcases hp.view_operation hrunning c.key with hsame | ⟨c', hc', hkey, hclaimed⟩
    · exact .inl hsame
    · rw [← hkey] at hclaimed ⊢
      obtain ⟨hnone, hheld, -⟩ := ((hp.claim c' hc').view hrunning).owned hclaimed
      exact .inr ⟨hnone, hheld⟩
  have hkeeps : ∀ row, db.operations.get? c.key = some row →
      (p.view (engine R) db).operations.get? c.key = some row := by
    intro row hcommitted
    rcases hrow with hsame | ⟨hnone, -⟩
    · rw [hsame]
      exact hcommitted
    · rw [hnone] at hcommitted
      cases hcommitted
  refine ⟨h.meets, fun hrunning' => ?_, ?_, h.committed, h.raised, ?_⟩
  · have hview := h.view hrunning'
    constructor
    · intro hnot
      by_cases hheld : RowKey.operation c.key ∈ p'.held
      · have hfree : RowKey.operation c.key ∉ p.held :=
          fun hmem => hexclusive hrunning' _ hmem hheld
        have hsame : (p.view (engine R) db).SameAt db (.operation c.key) := view_of_not_mem hfree
        have hstays : (p'.view (engine R) (p.view (engine R) db)).SameAt (p'.view (engine R) db)
            (.operation c.key) := view_commit hfree
        exact Eq.trans hstays ((hview.shared hnot).trans (Eq.symm hsame))
      · have hsame : (p'.view (engine R) (p.view (engine R) db)).SameAt (p.view (engine R) db)
            (.operation c.key) := view_of_not_mem hheld
        exact hsame
    · intro hnot hheld
      obtain ⟨row, hcommitted⟩ := Option.ne_none_iff_exists'.mp (hview.locked hnot hheld)
      rw [hkeeps row hcommitted]
      exact Option.some_ne_none row
    · intro hclaimed
      obtain ⟨hnone, hheld, hown⟩ := hview.owned hclaimed
      refine ⟨?_, hheld, hown⟩
      rcases hrow with hsame | ⟨-, hmem⟩
      · rw [hsame]
        exact hnone
      · exact absurd hheld (hexclusive hrunning' _ hmem)
  · exact ⟨h.trace.completing, fun row hobserved => hkeeps row (h.trace.observed row hobserved),
      h.trace.mutating⟩
  · intro outcome houtcome hclaimed
    obtain ⟨row, i, v, hcommitted, hrest⟩ := h.recorded outcome houtcome hclaimed
    exact ⟨row, i, v, hkeeps row hcommitted, hrest⟩

theorem ledger_stable (encryptor : Option TenantEnvelopeEncryptor) :
    System.Stable (engine R) (Transaction.program encryptor) (fun _ _ => True) (fun _ => True)
      LedgerLaws where
  begin cl t _ _ := .start encryptor _ t
  execute cl n p q next r after _ _ hp hstatus _ hrun hinv := (hinv n p hp).advance hstatus hrun
  ended db p status _ hends h := h.ended hends
  commit cl n p outcome _ hexclusive _ hp hstatus hinv := by
    have hrunning : p.isRunning = true := Process.isRunning_iff.mpr ⟨_, hstatus⟩
    have h := hinv n p hp
    refine ⟨trivial, ⟨fun c hc => (h.claim c hc).commit hstatus, ?_, ?_⟩, ?_⟩
    · intro _ program hprogram
      cases hprogram
    · intro hrunning'
      cases hrunning'
    · intro m p' hm hp'
      have h' := hinv m p' hp'
      refine ⟨fun c hc => ?_, h'.free, h'.others⟩
      exact (h'.claim c hc).commit_other h hrunning fun hrunning' =>
        hexclusive n m p p' (Ne.symm hm) hp hp' hrunning hrunning'

end OpenMemory.Postgres
