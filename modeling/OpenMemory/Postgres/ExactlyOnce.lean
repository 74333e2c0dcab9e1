import OpenMemory.Postgres.LedgerRuns

/-!
# Exactly once

What the ledger gives in every run, from a database in which the key is unused and with any other
transactions around (`ledger_exactlyOnce`). Two facts about the whole system carry it: the
committed row of a key was recorded by a committed transaction that inserted it, and no two
transactions inserted it, those that were rolled back aside (`LedgerSystem`).
-/

namespace OpenMemory.Postgres

open Lib Lib.Prog
open MonadExcept (ofExcept)
open MemoryApplicationService

variable {R : Type} [Python R]

/-! ## The whole system -/

/-- The transaction is an operation under the key, and inserted its row. -/
def Claimant (key : OperationKey) (p : Participant R) : Prop :=
  ∃ c, p.agent.work.claims = some c ∧ c.key = key ∧ Claimed key p.trace

/-- The transaction was not rolled back. -/
def Live (p : Participant R) : Prop :=
  p.isRunning = true ∨ ∃ outcome, p.status = .committed outcome

/-- The ledger row of the key comes from a committed transaction that claimed it, and no two
transactions claim it, those that were rolled back aside. -/
structure LedgerSystem (key : OperationKey) (cl : Cluster R) : Prop where
  source : ∀ row, cl.committed.operations.get? key = some row → ∃ (n : Nat) (p : Participant R)
    (outcome : Outcome R), cl.processes[n]? = some p ∧ Claimant key p ∧
      p.status = .committed outcome
  single : ∀ (n m : Nat) (p p' : Participant R), n ≠ m → cl.processes[n]? = some p →
    cl.processes[m]? = some p' → Live p → Live p' → Claimant key p → ¬ Claimant key p'

theorem not_claimant_start {key : OperationKey} {t : Transaction R}
    {program : DbProg R (Outcome R)} {db : Database R} :
    ¬ Claimant key (.start t program db : Participant R) := by
  rintro ⟨c, -, -, fp, s, hs, -⟩
  cases hs

/-- While a claimant runs, the committed state has no row and it holds the key. -/
theorem Claimant.running {key : OperationKey} {db : Database R} {p : Participant R}
    (h : Claimant key p) (hp : LedgerLaws db p) (hrunning : p.isRunning = true) :
    db.operations.get? key = none ∧ RowKey.operation key ∈ p.held := by
  obtain ⟨c, hc, rfl, hclaimed⟩ := h
  obtain ⟨hnone, hheld, -⟩ := ((hp.claim c hc).view hrunning).owned hclaimed
  exact ⟨hnone, hheld⟩

/-- A live claimant runs, or has its row committed. -/
theorem Claimant.live {key : OperationKey} {db : Database R} {p : Participant R}
    (h : Claimant key p) (hp : LedgerLaws db p) (hlive : Live p) :
    p.isRunning = true ∨ ∃ row, db.operations.get? key = some row := by
  obtain ⟨c, hc, rfl, hclaimed⟩ := h
  rcases hlive with hrunning | ⟨outcome, hcommitted⟩
  · exact .inl hrunning
  · obtain ⟨row, _, _, hrow, -⟩ := (hp.claim c hc).recorded outcome hcommitted hclaimed
    exact .inr ⟨row, hrow⟩

/-- A transaction that claims the key by its next statement finds nobody else who has it. -/
theorem Claimant.alone {key : OperationKey} {cl : Cluster R} {n m : Nat} {p p' : Participant R}
    {q : Statement R} {next : Except PyError q.Result → DbProg R (Outcome R)} {r : q.Result}
    {after : Database R} (hinv : System.Holds (fun _ => True) LedgerLaws cl)
    (hp : cl.processes[n]? = some p) (hstatus : p.status = .running (.exec q next))
    (hfree : ∀ (m : Nat) p', m ≠ n → cl.processes[m]? = some p' → p'.isRunning = true →
      ∀ k ∈ q.awaits p.agent.tenant (p.view (engine R) cl.committed), k ∉ p'.held)
    (hnew : Claimant key (p.advance (engine R) q (p.view (engine R) cl.committed) after
      (next (.ok r)))) (hold : ¬ Claimant key p)
    (hm : m ≠ n) (hp' : cl.processes[m]? = some p') (hlive : Live p') : ¬ Claimant key p' := by
  intro hclaimant
  obtain ⟨c, hc, rfl, hclaimed⟩ := hnew
  have hunclaimed : ¬ Claimed c.key p.trace := fun hclaimed => hold ⟨c, hc, rfl, hclaimed⟩
  rcases claimed_append.mp hclaimed with hclaimed | ⟨⟨fp, rfl⟩, habsent⟩
  · exact hunclaimed hclaimed
  · have hview := ((hinv.2.2 n p hp).claim c hc).view (Process.isRunning_iff.mpr ⟨_, hstatus⟩)
    have hnone : cl.committed.operations.get? c.key = none := by
      rw [← hview.shared hunclaimed]
      exact (Dict.contains_eq_false_iff _ _).mp habsent
    rcases hclaimant.live (hinv.2.2 m p' hp') hlive with hrunning | ⟨row, hrow⟩
    · exact hfree m p' hm hp' hrunning _ (List.mem_singleton_self _)
        (hclaimant.running (hinv.2.2 m p' hp') hrunning).2
    · rw [hnone] at hrow
      cases hrow

theorem LedgerSystem.moves {encryptor : Option TenantEnvelopeEncryptor} {key : OperationKey}
    {cl cl' : Cluster R} {action : Action (Transaction R)}
    (hinv : System.Holds (fun _ => True) LedgerLaws cl)
    (hmoves : System.Moves (engine R) (Transaction.program encryptor) cl action cl')
    (h : LedgerSystem key cl) : LedgerSystem key cl' := by
  constructor
  · intro row hrow
    by_cases hbefore : cl.committed.operations.get? key = some row
    · obtain ⟨n, p, outcome, hp, hclaimant, hstatus⟩ := h.source row hbefore
      exact ⟨n, p, outcome, hmoves.keeps_committed hp hstatus, hclaimant, hstatus⟩
    · -- only the commit of the claimant brings a row
      cases hmoves with
      | begin t => exact absurd hrow hbefore
      | executed here running free ran => exact absurd hrow hbefore
      | ended action here wasRunning why => exact absurd hrow hbefore
      | @committed n p outcome here running =>
        have hrunning : p.isRunning = true := Process.isRunning_iff.mpr ⟨_, running⟩
        rcases (hinv.2.2 n p here).view_operation hrunning key with hsame | ⟨c, hc, hkey, hclaimed⟩
        · exact absurd (hsame.symm.trans hrow) hbefore
        · exact ⟨n, _, outcome, (System.get_put cl ⟨p, here⟩).mpr (.inl ⟨rfl, rfl⟩),
            ⟨c, hc, hkey, hclaimed⟩, rfl⟩
  · cases hmoves with
    | begin t =>
      intro n m p p' hne hp hp' hlive hlive' hclaimant hclaimant'
      rcases (System.get_begin cl).mp hp with hp | ⟨-, rfl⟩
      · rcases (System.get_begin cl).mp hp' with hp' | ⟨-, rfl⟩
        · exact h.single n m p p' hne hp hp' hlive hlive' hclaimant hclaimant'
        · exact not_claimant_start hclaimant'
      · exact not_claimant_start hclaimant
    | @executed n₀ p₀ q next r after here running free ran =>
      have hlive₀ : Live p₀ := .inl (Process.isRunning_iff.mpr ⟨_, running⟩)
      -- the transaction that moves against any other
      have hpair : ∀ (m : Nat) (p' : Participant R), m ≠ n₀ → cl.processes[m]? = some p' →
          Live p' → Claimant key (p₀.advance (engine R) q (p₀.view (engine R) cl.committed) after
            (next (.ok r))) → ¬ Claimant key p' := by
        intro m p' hm hp' hlive' hclaimant
        by_cases hbefore : Claimant key p₀
        · exact h.single n₀ m p₀ p' (Ne.symm hm) here hp' hlive₀ hlive' hbefore
        · exact Claimant.alone hinv here running free hclaimant hbefore hm hp' hlive'
      intro n m p p' hne hp hp' hlive hlive' hclaimant hclaimant'
      rcases (System.get_put cl ⟨p₀, here⟩).mp hp with ⟨rfl, rfl⟩ | ⟨hn, hq⟩
      · rcases (System.get_put cl ⟨p₀, here⟩).mp hp' with ⟨rfl, -⟩ | ⟨hm, hq'⟩
        · exact hne rfl
        · exact hpair m p' hm hq' hlive' hclaimant hclaimant'
      · rcases (System.get_put cl ⟨p₀, here⟩).mp hp' with ⟨rfl, rfl⟩ | ⟨hm, hq'⟩
        · exact hpair n p hn hq hlive hclaimant' hclaimant
        · exact h.single n m p p' hne hq hq' hlive hlive' hclaimant hclaimant'
    | @ended n₀ p₀ status action here wasRunning why =>
      have hdead : ¬ Live { p₀ with status := status } := by
        rintro (hrunning | ⟨outcome, hcommitted⟩)
        · exact why.not_running hrunning
        · exact why.ne_committed outcome hcommitted
      intro n m p p' hne hp hp' hlive hlive' hclaimant hclaimant'
      rcases (System.get_put cl ⟨p₀, here⟩).mp hp with ⟨-, rfl⟩ | ⟨-, hp⟩
      · exact hdead hlive
      · rcases (System.get_put cl ⟨p₀, here⟩).mp hp' with ⟨-, rfl⟩ | ⟨-, hp'⟩
        · exact hdead hlive'
        · exact h.single n m p p' hne hp hp' hlive hlive' hclaimant hclaimant'
    | @committed n₀ p₀ outcome here running =>
      have hlive₀ : Live p₀ := .inl (Process.isRunning_iff.mpr ⟨_, running⟩)
      intro n m p p' hne hp hp' hlive hlive' hclaimant hclaimant'
      rcases (System.get_put cl ⟨p₀, here⟩).mp hp with ⟨rfl, rfl⟩ | ⟨hn, hq⟩
      · rcases (System.get_put cl ⟨p₀, here⟩).mp hp' with ⟨rfl, -⟩ | ⟨hm, hq'⟩
        · exact hne rfl
        · exact h.single n m p₀ p' hne here hq' hlive₀ hlive' hclaimant hclaimant'
      · rcases (System.get_put cl ⟨p₀, here⟩).mp hp' with ⟨rfl, rfl⟩ | ⟨hm, hq'⟩
        · exact h.single n m p p₀ hne hq here hlive hlive₀ hclaimant hclaimant'
        · exact h.single n m p p' hne hq hq' hlive hlive' hclaimant hclaimant'

theorem ledger_reaches {encryptor : Option TenantEnvelopeEncryptor} {key : OperationKey}
    {db : Database R} {cl : Cluster R} (hfresh : db.operations.get? key = none)
    (hrun : Reaches (System.Steps (engine R) (Transaction.program encryptor) fun _ _ => True)
      (.start db) cl) : System.Holds (fun _ => True) LedgerLaws cl ∧ LedgerSystem key cl := by
  refine (ledger_stable encryptor).reaches_with (fun cl action cl' hinv _ hmoves h =>
    h.moves hinv hmoves) trivial ⟨?_, ?_⟩ hrun
  · intro row hrow
    replace hrow : db.operations.get? key = some row := hrow
    rw [hfresh] at hrow
    cases hrow
  · intro n m p p' _ hp
    cases hp

/-! ## What the ledger gives -/

/-- The text that is digested for a forget or a discard. -/
def Work.removalText : Work R → Option String
  | .request (.forget c) => some (canonicalForgetCommand R c).dumps
  | .request (.discardCandidate c) => some (canonicalDiscardCommand R c).dumps
  | _ => none

/-- The texts of the removals of a run. -/
def removalTexts (cl : Cluster R) : Set String :=
  { text | ∃ (n : Nat) (p : Participant R), cl.processes[n]? = some p ∧
    p.agent.work.removalText = some text }

/-- Removals under one key with one fingerprint address one memory, if their texts do not
collide. -/
theorem memoryId_of_fingerprint {texts : Set String} {w w' : Work R} {c c' : LedgerClaim}
    (hdigest : Set.InjOn (Python.sha256Hexdigest R) texts)
    (htext : ∀ text, w.removalText = some text → text ∈ texts)
    (htext' : ∀ text, w'.removalText = some text → text ∈ texts)
    (hc : w.claims = some c) (hc' : w'.claims = some c') (hkey : c.key = c'.key)
    (hdeletes : c.deletes = true) (hfp : c.fingerprint = c'.fingerprint) :
    c.memoryId = c'.memoryId := by
  -- the other operations do not delete
  have hcases : ∀ (w : Work R) (c : LedgerClaim), w.claims = some c → c.deletes = true →
      (∃ cmd key, w = .request (.forget cmd) ∧ c = ⟨(cmd.ownerId, .forget, key),
        fingerprintForgetCommand R cmd, cmd.memoryId⟩) ∨
      ∃ cmd, w = .request (.discardCandidate cmd) ∧ c = ⟨(cmd.ownerId, .discard,
        cmd.idempotencyKey), fingerprintDiscardCommand R cmd, cmd.memoryId⟩ := by
    intro w c hc hdeletes
    cases w with
    | batch => cases hc
    | cutover => cases hc
    | rotation => cases hc
    | request request =>
      cases request with
      | update cmd =>
        obtain ⟨key, -, rfl⟩ := Option.map_eq_some_iff.mp hc
        cases hdeletes
      | forget cmd =>
        obtain ⟨key, -, rfl⟩ := Option.map_eq_some_iff.mp hc
        exact .inl ⟨cmd, key, rfl, rfl⟩
      | confirmCandidate cmd =>
        obtain rfl := Option.some.inj hc
        cases hdeletes
      | pin cmd =>
        obtain rfl := Option.some.inj hc
        cases hdeletes
      | discardCandidate cmd => exact .inr ⟨cmd, rfl, (Option.some.inj hc).symm⟩
      | _ => cases hc
  have hdeletes' : c'.deletes = true := by
    unfold LedgerClaim.deletes at hdeletes ⊢
    rw [← hkey]
    exact hdeletes
  rcases hcases w c hc hdeletes with ⟨cmd, key, rfl, rfl⟩ | ⟨cmd, rfl, rfl⟩
  · rcases hcases w' c' hc' hdeletes' with ⟨cmd', key', rfl, rfl⟩ | ⟨cmd', rfl, rfl⟩
    · exact canonicalForget_memoryId (hdigest (htext _ rfl) (htext' _ rfl) hfp)
    · cases (Prod.mk.inj (Prod.mk.inj hkey).2).1
  · rcases hcases w' c' hc' hdeletes' with ⟨cmd', key', rfl, rfl⟩ | ⟨cmd', rfl, rfl⟩
    · cases (Prod.mk.inj (Prod.mk.inj hkey).2).1
    · exact canonicalDiscard_memoryId (hdigest (htext _ rfl) (htext' _ rfl) hfp)

/-- The transaction answered with what the row records. -/
def Answers (outcome : Outcome R) (row : OperationRow) : Prop :=
  ∃ i v, outcome.result = some (i, v) ∧ row.memoryId = some i ∧ row.resultVersion = v

/-- The ledger in one state of a run. -/
structure ExactlyOnce (encryptor : Option TenantEnvelopeEncryptor) (key : OperationKey)
    (cl : Cluster R) : Prop where
  /-- At most one transaction that was not rolled back has inserted the row of the key. -/
  executor : ∀ (n m : Nat) (p p' : Participant R), n ≠ m → cl.processes[n]? = some p →
    cl.processes[m]? = some p' → Live p → Live p' → Claimant key p → ¬ Claimant key p'
  /-- The others mutate nothing. -/
  mutations : ∀ (n : Nat) (p : Participant R) (c : LedgerClaim), cl.processes[n]? = some p →
    p.agent.work.claims = some c → c.key = key → ∀ e ∈ p.trace, e.1.mutates = true → Claimant key p
  /-- A committed executor has recorded what it answered. -/
  records : ∀ (n : Nat) (p : Participant R) (c : LedgerClaim) (outcome : Outcome R),
    cl.processes[n]? = some p → p.agent.work.claims = some c → c.key = key →
    p.status = .committed outcome → Claimant key p →
    ∃ row, cl.committed.operations.get? key = some row ∧ row.status = .completed ∧
      row.fingerprint = c.fingerprint ∧ Answers outcome row
  /-- Any other committed transaction observed that row, and answers with what it records. -/
  replays : ∀ (n : Nat) (p : Participant R) (c : LedgerClaim) (outcome : Outcome R),
    cl.processes[n]? = some p → p.agent.work.claims = some c → c.key = key →
    p.status = .committed outcome → ¬ Claimant key p →
    ∃ row, Observed p.agent.tenant key row p.trace ∧
      cl.committed.operations.get? key = some row ∧ row.status = .completed ∧
      row.fingerprint = c.fingerprint ∧ Answers outcome row
  /-- A transaction that observed a row with another fingerprint raises a conflict. -/
  conflicts : ∀ (n : Nat) (p : Participant R) (c : LedgerClaim) (row : OperationRow),
    cl.processes[n]? = some p → p.agent.work.claims = some c → c.key = key →
    Observed p.agent.tenant key row p.trace → row.fingerprint ≠ c.fingerprint →
    (∀ outcome, p.status ≠ .committed outcome) ∧ (∀ e, p.status = .raised e → IsConflict e) ∧
      ∀ program, p.status = .running program → ∃ e, program = .done (.error e) ∧ IsConflict e
  /-- A row in progress is not committed, and only its inserter sees it. -/
  invisible : (∀ row, cl.committed.operations.get? key = some row → row.status = .completed) ∧
    ∀ (n : Nat) (p : Participant R) row, cl.processes[n]? = some p → p.isRunning = true →
      (p.view (engine R) cl.committed).operations.get? key = some row →
      row.status = .inProgress → Claimant key p
  /-- While an executor runs, the inserts of the others wait, and nothing is committed. -/
  waits : ∀ (n m : Nat) (p p' : Participant R), n ≠ m → cl.processes[n]? = some p →
    cl.processes[m]? = some p' → p'.isRunning = true → Claimant key p' →
    cl.committed.operations.get? key = none ∧
      ∀ fp next, p.status = .running (.exec (.insertOperation key fp) next) →
        cl.step (engine R) (Transaction.program encryptor) (.execute n) = none
  /-- When the executor is rolled back, there is no row and no executor. -/
  rollback : ∀ (n : Nat) (p : Participant R) action (cl' : Cluster R) (p' : Participant R),
    cl.processes[n]? = some p → p.isRunning = true → Claimant key p →
    cl.step (engine R) (Transaction.program encryptor) action = some cl' →
    cl'.processes[n]? = some p' → ¬ Live p' → cl'.committed.operations.get? key = none ∧
      ∀ (m : Nat) (p' : Participant R), cl'.processes[m]? = some p' → p'.isRunning = true →
        ¬ Claimant key p'
  /-- Then the insert of any waiter makes it the executor. -/
  takesOver : ∀ (n : Nat) (p : Participant R) fp next, cl.processes[n]? = some p →
    p.status = .running (.exec (.insertOperation key fp) next) →
    cl.committed.operations.get? key = none →
    (∀ (m : Nat) (p' : Participant R), cl.processes[m]? = some p' → p'.isRunning = true →
      ¬ Claimant key p') →
    ∃ (cl' : Cluster R) (p' : Participant R),
      cl.step (engine R) (Transaction.program encryptor) (.execute n) = some cl' ∧
      cl'.processes[n]? = some p' ∧ p'.isRunning = true ∧ Claimant key p'

section Laws

variable {encryptor : Option TenantEnvelopeEncryptor} {key : OperationKey} {cl : Cluster R}

/-- A running transaction whose next statement inserts under the key has claimed nothing yet. -/
theorem inserting {n : Nat} {p : Participant R} {fp : String}
    {next : Except PyError (Statement.insertOperation (R := R) key fp).Result →
      DbProg R (Outcome R)}
    (hinv : System.Holds (fun _ => True) LedgerLaws cl) (hp : cl.processes[n]? = some p)
    (hstatus : p.status = .running (.exec (.insertOperation key fp) next)) :
    ∃ c, p.agent.work.claims = some c ∧ c.key = key ∧ ¬ Claimed key p.trace := by
  have hlaws := hinv.2.2 n p hp
  cases hclaims : p.agent.work.claims with
  | none =>
    have hfree := (within_exec.mp (hlaws.free hclaims _ hstatus)).1
    cases hfree
  | some c =>
    obtain ⟨hissues, -⟩ := meets_exec.mp ((hlaws.claim c hclaims).meets _ hstatus)
    obtain rfl := hissues.own key rfl
    exact ⟨c, rfl, rfl, (hissues.inserts fp rfl).2⟩

theorem waits_for_claimant {n m : Nat} {p p' : Participant R} {fp : String}
    {next : Except PyError (Statement.insertOperation (R := R) key fp).Result →
      DbProg R (Outcome R)}
    (hinv : System.Holds (fun _ => True) LedgerLaws cl) (hne : n ≠ m)
    (hp : cl.processes[n]? = some p) (hp' : cl.processes[m]? = some p')
    (hrunning : p'.isRunning = true) (hclaimant : Claimant key p')
    (hstatus : p.status = .running (.exec (.insertOperation key fp) next)) :
    cl.step (engine R) (Transaction.program encryptor) (.execute n) = none := by
  have hheld : RowKey.operation key ∈ p'.held :=
    (hclaimant.running (hinv.2.2 m p' hp') hrunning).2
  have hbusy : ¬ cl.free n [RowKey.operation key] = true := by
    intro hfree
    exact System.free_iff.mp hfree m p' (Ne.symm hne) hp' hrunning _ (List.mem_singleton_self _) hheld
  unfold System.step
  simp only [hp, hstatus]
  exact if_neg hbusy

theorem takes_over {n : Nat} {p : Participant R} {fp : String}
    {next : Except PyError (Statement.insertOperation (R := R) key fp).Result →
      DbProg R (Outcome R)}
    (hinv : System.Holds (fun _ => True) LedgerLaws cl) (hp : cl.processes[n]? = some p)
    (hstatus : p.status = .running (.exec (.insertOperation key fp) next))
    (hnone : cl.committed.operations.get? key = none)
    (hnobody : ∀ (m : Nat) (p' : Participant R), cl.processes[m]? = some p' →
      p'.isRunning = true → ¬ Claimant key p') :
    ∃ (cl' : Cluster R) (p' : Participant R),
      cl.step (engine R) (Transaction.program encryptor) (.execute n) = some cl' ∧
      cl'.processes[n]? = some p' ∧ p'.isRunning = true ∧ Claimant key p' := by
  obtain ⟨c, hc, rfl, hunclaimed⟩ := inserting hinv hp hstatus
  have hrunning : p.isRunning = true := Process.isRunning_iff.mpr ⟨_, hstatus⟩
  -- the row that it sees is the committed one, so the key is free
  have habsent : (p.view (engine R) cl.committed).operations.contains c.key = false := by
    refine (Dict.contains_eq_false_iff _ _).mpr ?_
    rw [(((hinv.2.2 n p hp).claim c hc).view hrunning).shared hunclaimed]
    exact hnone
  -- nobody holds the row: who does has claimed it
  have hfree : cl.free n [RowKey.operation c.key] = true := by
    refine System.free_iff.mpr fun m p' hm hp' hrunning' k hk hheld => ?_
    obtain rfl := List.mem_singleton.mp hk
    have hlaws := hinv.2.2 m p' hp'
    by_cases hown : ∃ c', p'.agent.work.claims = some c' ∧ c'.key = c.key
    · obtain ⟨c', hc', hkey⟩ := hown
      have hnot : ¬ Claimed c'.key p'.trace :=
        fun hclaimed => hnobody m p' hp' hrunning' ⟨c', hc', hkey, hkey ▸ hclaimed⟩
      refine ((hlaws.claim c' hc').view hrunning').locked hnot ?_ ?_
      · rw [hkey]
        exact hheld
      · rw [hkey]
        exact hnone
    · exact hlaws.others hrunning' c.key (fun c' hc' heq => hown ⟨c', hc', heq⟩) hheld
  have hran : (Statement.insertOperation c.key fp).run p.agent.tenant
      (p.view (engine R) cl.committed) = .ok ((p.view (engine R) cl.committed).insertOperation
        p.agent.tenant c.key fp) := rfl
  refine ⟨_, p.advance (engine R) (.insertOperation c.key fp) (p.view (engine R) cl.committed)
    ((p.view (engine R) cl.committed).insertOperation p.agent.tenant c.key fp).2
    (next (.ok ((p.view (engine R) cl.committed).insertOperation p.agent.tenant c.key fp).1)),
    ?_, (System.get_put cl ⟨p, hp⟩).mpr (.inl ⟨rfl, rfl⟩), rfl, c, hc, rfl, ?_⟩
  · unfold System.step
    simp only [hp, hstatus]
    exact if_pos hfree
  · exact claimed_append.mpr (.inr ⟨⟨fp, rfl⟩, habsent⟩)

/-- A transaction that a step rolls back is the one that the step ended. -/
theorem rolled_back {cl' : Cluster R} {n : Nat} {p p' : Participant R}
    {action : Action (Transaction R)} (hinv : System.Holds (fun _ => True) LedgerLaws cl)
    (hsys : LedgerSystem key cl) (hp : cl.processes[n]? = some p) (hrunning : p.isRunning = true)
    (hclaimant : Claimant key p)
    (hstep : cl.step (engine R) (Transaction.program encryptor) action = some cl')
    (hp' : cl'.processes[n]? = some p') (hdead : ¬ Live p') :
    cl'.committed.operations.get? key = none ∧
      ∀ (m : Nat) (p' : Participant R), cl'.processes[m]? = some p' → p'.isRunning = true →
        ¬ Claimant key p' := by
  have hlive : Live p := .inl hrunning
  have hsame : ∀ p₁, cl.processes[n]? = some p₁ → p₁ = p :=
    fun p₁ hp₁ => Option.some.inj (hp₁.symm.trans hp)
  -- only an end that is no commit can take the life of the claimant
  cases System.moves_of_step hstep with
  | begin t =>
    rcases (System.get_begin cl).mp hp' with hp' | ⟨rfl, -⟩
    · exact absurd (hsame p' hp' ▸ hlive) hdead
    · rw [List.getElem?_eq_none le_rfl] at hp
      cases hp
  | executed here running free ran =>
    rcases (System.get_put cl ⟨_, here⟩).mp hp' with ⟨-, rfl⟩ | ⟨-, hp'⟩
    · exact absurd (.inl rfl) hdead
    · exact absurd (hsame p' hp' ▸ hlive) hdead
  | committed here running =>
    rcases (System.get_put cl ⟨_, here⟩).mp hp' with ⟨-, rfl⟩ | ⟨-, hp'⟩
    · exact absurd (.inr ⟨_, rfl⟩) hdead
    · exact absurd (hsame p' hp' ▸ hlive) hdead
  | @ended n₀ p₀ status action here wasRunning why =>
    rcases (System.get_put cl ⟨_, here⟩).mp hp' with ⟨rfl, rfl⟩ | ⟨-, hp'⟩
    -- its row was never committed
    · constructor
      · exact (hclaimant.running (hinv.2.2 n p hp) hrunning).1
      -- and nobody else claimed while it lived
      · intro m p₁ hp₁ hrunning₁ hclaimant₁
        rcases (System.get_put cl ⟨_, here⟩).mp hp₁ with ⟨-, rfl⟩ | ⟨hm, hp₁⟩
        · exact hdead (.inl hrunning₁)
        · exact hsys.single n m p p₁ (Ne.symm hm) hp hp₁ hlive (.inl hrunning₁) hclaimant hclaimant₁
    · exact absurd (hsame p' hp' ▸ hlive) hdead

/-- The row that the committed ledger has comes from an executor that recorded it. -/
theorem recorded_row {row : OperationRow} (hinv : System.Holds (fun _ => True) LedgerLaws cl)
    (hsys : LedgerSystem key cl) (hrow : cl.committed.operations.get? key = some row) :
    row.status = .completed ∧ ∃ (n : Nat) (p : Participant R) (c : LedgerClaim),
      cl.processes[n]? = some p ∧ p.agent.work.claims = some c ∧ c.key = key ∧
      row.fingerprint = c.fingerprint ∧ Recordable c row.memoryId row.resultVersion := by
  obtain ⟨n, p, outcome, hp, ⟨c, hc, rfl, hclaimed⟩, hstatus⟩ := hsys.source row hrow
  obtain ⟨row', _, _, hrow', hfp, hcompleted, hrecord, -⟩ :=
    ((hinv.2.2 n p hp).claim c hc).recorded outcome hstatus hclaimed
  obtain rfl := Option.some.inj (hrow'.symm.trans hrow)
  exact ⟨hcompleted, n, p, c, hp, hc, rfl, hfp, hrecord⟩

/-- A replay answers with what the executor recorded. -/
theorem replay_answers {n : Nat} {p : Participant R} {c : LedgerClaim} {row : OperationRow}
    {outcome : Outcome R} (hinv : System.Holds (fun _ => True) LedgerLaws cl)
    (hsys : LedgerSystem c.key cl)
    (hdigest : Set.InjOn (Python.sha256Hexdigest R) (removalTexts cl))
    (hp : cl.processes[n]? = some p) (hc : p.agent.work.claims = some c)
    (hrow : cl.committed.operations.get? c.key = some row)
    (hfp : row.fingerprint = c.fingerprint) (hreplays : Replays c row outcome.result) :
    Answers outcome row := by
  obtain ⟨-, m, p', c', hp', hc', hkey, hfp', hrecord⟩ := recorded_row hinv hsys hrow
  have hsame : c'.deletes = c.deletes := by
    unfold LedgerClaim.deletes
    rw [hkey]
  unfold Replays at hreplays
  unfold Recordable at hrecord
  rw [hsame] at hrecord
  -- an update names a memory and its version
  cases hdeletes : c.deletes with
  | false =>
    rw [hdeletes, if_neg Bool.false_ne_true] at hreplays hrecord
    obtain ⟨i, v, hi, hv, hne⟩ := hrecord
    exact ⟨i, some v, hreplays i v hi hv hne, hi, hv⟩
  -- a deletion names the memory that the fingerprint is of
  | true =>
    rw [hdeletes, if_pos rfl] at hreplays hrecord
    have hmemory : c'.memoryId = c.memoryId :=
      memoryId_of_fingerprint hdigest (fun text htext => ⟨m, p', hp', htext⟩)
        (fun text htext => ⟨n, p, hp, htext⟩) hc' hc hkey (hsame.trans hdeletes)
        (hfp'.symm.trans hfp)
    rw [hmemory] at hrecord
    exact ⟨c.memoryId, none, hreplays, hrecord⟩

/-- An observed row with another fingerprint leaves the body nothing but the conflict. -/
theorem conflict_of_observed {n : Nat} {p : Participant R} {c : LedgerClaim} {row : OperationRow}
    (hinv : System.Holds (fun _ => True) LedgerLaws cl) (hp : cl.processes[n]? = some p)
    (hc : p.agent.work.claims = some c) (hrow : Observed p.agent.tenant c.key row p.trace)
    (hne : row.fingerprint ≠ c.fingerprint) :
    (∀ outcome, p.status ≠ .committed outcome) ∧ (∀ e, p.status = .raised e → IsConflict e) ∧
      ∀ program, p.status = .running program → ∃ e, program = .done (.error e) ∧ IsConflict e := by
  have h := (hinv.2.2 n p hp).claim c hc
  refine ⟨fun outcome hstatus => ?_, fun e he => (h.raised e he).raises e rfl row hrow hne,
    fun program hprogram => ?_⟩
  · exact hne ((h.committed outcome hstatus).agrees outcome rfl row hrow)
  · have hmeets := h.meets program hprogram
    cases program with
    | exec q next => exact absurd ((meets_exec.mp hmeets).1.agrees row hrow) hne
    | done r =>
      have hends := meets_done.mp hmeets
      cases r with
      | ok outcome => exact absurd (hends.agrees outcome rfl row hrow) hne
      | error e => exact ⟨e, rfl, hends.raises e rfl row hrow hne⟩

/-- Who sees a row in progress has inserted it. -/
theorem claimant_of_inProgress {n : Nat} {p : Participant R} {row : OperationRow}
    (hinv : System.Holds (fun _ => True) LedgerLaws cl) (hsys : LedgerSystem key cl)
    (hp : cl.processes[n]? = some p) (hrunning : p.isRunning = true)
    (hrow : (p.view (engine R) cl.committed).operations.get? key = some row)
    (hstatus : row.status = .inProgress) : Claimant key p := by
  rcases (hinv.2.2 n p hp).view_operation hrunning key with hsame | ⟨c, hc, hkey, hclaimed⟩
  · rw [hsame] at hrow
    have hcompleted := (recorded_row hinv hsys hrow).1
    rw [hstatus] at hcompleted
    cases hcompleted
  · exact ⟨c, hc, hkey, hclaimed⟩

end Laws

/-- In every run, from a database in which the key is unused and with any transactions, the
ledger gives each key to one executor. The digests of the removals of the run must not collide,
or a replay would answer with its own command's memory. -/
theorem ledger_exactlyOnce {encryptor : Option TenantEnvelopeEncryptor} {key : OperationKey}
    {db : Database R} {cl : Cluster R} (hfresh : db.operations.get? key = none)
    (hrun : Reaches (System.Steps (engine R) (Transaction.program encryptor) fun _ _ => True)
      (.start db) cl)
    (hdigest : Set.InjOn (Python.sha256Hexdigest R) (removalTexts cl)) :
    ExactlyOnce encryptor key cl := by
  obtain ⟨hinv, hsys⟩ := ledger_reaches hfresh hrun
  constructor
  -- two live claimants of the key are one
  case executor => exact hsys.single
  -- who mutates has claimed
  case mutations =>
    rintro n p c hp hc rfl e he hmutates
    exact ⟨c, hc, rfl, ((hinv.2.2 n p hp).claim c hc).trace.mutating e he hmutates⟩
  -- a claim that commits has recorded the result
  case records =>
    rintro n p c outcome hp hc rfl hstatus ⟨c', hc', -, hclaimed⟩
    obtain ⟨row, i, v, hrow, hfp, hcompleted, -, hanswers⟩ :=
      ((hinv.2.2 n p hp).claim c hc).recorded outcome hstatus hclaimed
    exact ⟨row, hrow, hcompleted, hfp, i, v, hanswers⟩
  -- a commit without a claim has seen the row of another one
  case replays =>
    rintro n p c outcome hp hc rfl hstatus hnot
    have h := (hinv.2.2 n p hp).claim c hc
    rcases (h.committed outcome hstatus).returns outcome rfl with ⟨hclaimed, -⟩ | hreplayed
    · exact absurd ⟨c, hc, rfl, hclaimed⟩ hnot
    · obtain ⟨-, row, hobserved, hcompleted, hfp, hreplays⟩ := hreplayed
      have hrow := h.trace.observed row hobserved
      exact ⟨row, hobserved, hrow, hcompleted, hfp,
        replay_answers hinv hsys hdigest hp hc hrow hfp hreplays⟩
  -- another fingerprint is a conflict
  case conflicts =>
    rintro n p c row hp hc rfl hrow hne
    exact conflict_of_observed hinv hp hc hrow hne
  -- an open row is seen by its claimant only
  case invisible =>
    refine ⟨fun row hrow => (recorded_row hinv hsys hrow).1, ?_⟩
    intro n p row hp hrunning hrow hstatus
    exact claimant_of_inProgress hinv hsys hp hrunning hrow hstatus
  -- the INSERT of the others waits
  case waits =>
    intro n m p p' hne hp hp' hrunning hclaimant
    refine ⟨(hclaimant.running (hinv.2.2 m p' hp') hrunning).1, fun fp next hstatus => ?_⟩
    exact waits_for_claimant hinv hne hp hp' hrunning hclaimant hstatus
  -- a rolled back claim leaves nothing, and the next one takes over
  case rollback =>
    intro n p action cl' p' hp hrunning hclaimant hstep hp' hdead
    exact rolled_back hinv hsys hp hrunning hclaimant hstep hp' hdead
  case takesOver =>
    intro n p fp next hp hstatus hnone hnobody
    exact takes_over hinv hp hstatus hnone hnobody

/-- Two confirmations of one candidate under one key: the second finds no row, waits for the
first to commit, and replays. -/
def contended : List (Action (Transaction ℚ)) :=
  [.begin confirmOfCandidate, .begin confirmOfCandidate] ++ executes 0 2 ++ executes 1 1 ++
    executes 0 5 ++ [.finish 0] ++ executes 1 3 ++ [.finish 1]

/-- What the committed transactions answered. -/
def answers (cl : Cluster ℚ) : List (Option (UUID × Option Int)) :=
  cl.processes.map fun p =>
    match p.status with
    | .committed outcome => outcome.result
    | _ => none

theorem ledger_exactlyOnce_contended :
    (∃ cl : Cluster ℚ, Reaches (System.Steps (engine ℚ) (Transaction.program none)
        fun _ _ => True) (.start captured) cl ∧
      answers cl = [some (⟨7⟩, some 2), some (⟨7⟩, some 2)] ∧
      ExactlyOnce none ("alice", .confirm, "confirm-1") cl) := by
  have hrun : ((System.runs (engine ℚ) (Transaction.program none) (fun _ _ => true)
      (.start captured) contended).map answers) =
      some [some (⟨7⟩, some 2), some (⟨7⟩, some 2)] := by
    decide +kernel
  obtain ⟨cl, hruns, hanswers⟩ := Option.map_eq_some_iff.mp hrun
  have hreaches : Reaches (System.Steps (engine ℚ) (Transaction.program none) fun _ _ => True)
      (.start captured) cl := by
    refine Relation.ReflTransGen.mono ?_ _ _ (System.reaches_of_runs hruns)
    rintro cl₁ cl₂ ⟨action, -, hstep⟩
    exact ⟨action, trivial, hstep⟩
  have hfresh : captured.operations.get? ("alice", .confirm, "confirm-1") = none := by
    decide +kernel
  refine ⟨cl, hreaches, hanswers, ledger_exactlyOnce hfresh hreaches ?_⟩
  intro text _ text' _ heq
  exact heq

end OpenMemory.Postgres
