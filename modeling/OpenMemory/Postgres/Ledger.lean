import OpenMemory.Postgres.Bodies
import OpenMemory.Postgres.Programs

/-!
# The idempotency ledger, among other transactions

Updates, confirmations, pins, forgets and discards claim their key in `idempotency_operations`
before they touch a memory: they insert a row in progress, mutate, and complete the row, in one
transaction. A second claim of the key waits for the first one's transaction to end, and then
sees its completed row or inserts its own.

A transaction *claimed* a key if its `INSERT` found no row. The body of each of the five
operations is one program shape (`meets_ledgered`): it claims, and then replays what the ledger
has or executes the mutation and completes the row. From this one invariant of a run
(`LedgerInv`) gives that claims are exclusive, that committed rows never change and that nobody
sees a row in progress but its own.
-/

namespace OpenMemory.Postgres

open Lib Lib.Prog
open MonadExcept (ofExcept)
open MemoryApplicationService

variable {R : Type} [Python R]

/-! ## Claims -/

/-- A unit of work's entry in the ledger, with the memory that the command addresses. -/
structure LedgerClaim where
  key : OperationKey
  fingerprint : String
  memoryId : UUID

/-- The operation removes the memory, and records no version. -/
def LedgerClaim.deletes (c : LedgerClaim) : Bool :=
  match c.key.2.1 with
  | .forget => true
  | .discard => true
  | _ => false

/-- The claim that a unit of work makes, if it uses a key. -/
def Work.claims : Work R → Option LedgerClaim
  | .request (.update c) => (truthyKey c.idempotencyKey).map fun key =>
      { key := (c.ownerId, .update, key), fingerprint := fingerprintUpdateCommand c
        memoryId := c.memoryId }
  | .request (.forget c) => (truthyKey c.idempotencyKey).map fun key =>
      { key := (c.ownerId, .forget, key), fingerprint := fingerprintForgetCommand R c
        memoryId := c.memoryId }
  | .request (.confirmCandidate c) => some
      { key := (c.ownerId, .confirm, c.idempotencyKey)
        fingerprint := fingerprintConfirmCommand R c, memoryId := c.memoryId }
  | .request (.pin c) => some
      { key := (c.ownerId, .pin, c.idempotencyKey)
        fingerprint := fingerprintPinCommand R c, memoryId := c.memoryId }
  | .request (.discardCandidate c) => some
      { key := (c.ownerId, .discard, c.idempotencyKey)
        fingerprint := fingerprintDiscardCommand R c, memoryId := c.memoryId }
  | _ => none

/-- The memory id and version that an operation of the ledger answers with. -/
def Outcome.result : Outcome R → Option (UUID × Option Int)
  | .answered (.memory m) => some (m.id, some m.version)
  | .answered (.forgotten r) => some (r.memoryId, none)
  | _ => none

/-- The statements that write what the ledger protects. -/
def Statement.mutates : Statement R → Bool
  | .insertMemory _ _ _ => true
  | .updateMemory _ _ _ _ => true
  | .deleteMemory _ _ => true
  | .insertVersions _ => true
  | .insertEmbedding _ _ _ => true
  | .updateEmbedding _ _ _ => true
  | .insertTombstone _ _ => true
  | .insertRelation _ _ => true
  | .upsertSemantic _ _ _ _ => true
  | .cutover _ _ => true
  | .rewrapMemory _ _ => true
  | .rewrapVersion _ _ _ => true
  | _ => false

/-- `raise IdempotencyConflictError`. -/
def IsConflict (e : PyError) : Prop := ∃ message, e = .omp .idempotencyConflictError message

/-- The transaction inserted the row of the key. -/
def Claimed (key : OperationKey) (trace : Trace R) : Prop :=
  ∃ fp s, (Statement.insertOperation key fp, s) ∈ trace ∧ s.operations.contains key = false

/-- The transaction issued the `UPDATE` that completes the row of the key. -/
def Completing (key : OperationKey) (trace : Trace R) : Prop :=
  ∃ fp i v status s, (Statement.completeOperation key fp i v status, s) ∈ trace

/-- The transaction saw the row of the key. -/
def Observed (tenant : Option UUID) (key : OperationKey) (row : OperationRow) (trace : Trace R) :
    Prop :=
  ∃ s, (Statement.selectOperation key, s) ∈ trace ∧ s.operation tenant key = some row

/-- Every row that the transaction saw has its fingerprint. -/
def Agrees (tenant : Option UUID) (c : LedgerClaim) (trace : Trace R) : Prop :=
  ∀ row, Observed tenant c.key row trace → row.fingerprint = c.fingerprint

/-- What the operation may record. -/
def Recordable (c : LedgerClaim) (i : Option UUID) (v : Option Int) : Prop :=
  if c.deletes then i = some c.memoryId ∧ v = none
  else ∃ j n, i = some j ∧ v = some n ∧ n ≠ 0

/-- What the body of an operation may issue. -/
structure Issues (tenant : Option UUID) (c : LedgerClaim) (trace : Trace R) (q : Statement R) :
    Prop where
  agrees : Agrees tenant c trace
  own : ∀ k, q.ledgerKey = some k → k = c.key
  selects : q = .selectOperation c.key → ¬ Claimed c.key trace
  inserts : ∀ fp, q = .insertOperation c.key fp → fp = c.fingerprint ∧ ¬ Claimed c.key trace
  completes : ∀ fp i v status, q = .completeOperation c.key fp i v status →
    fp = c.fingerprint ∧ Claimed c.key trace ∧ ¬ Completing c.key trace ∧ Recordable c i v
  mutates : q.mutates = true → Claimed c.key trace

/-- What a replay of the row answers with. -/
def Replays (c : LedgerClaim) (row : OperationRow) (result : Option (UUID × Option Int)) : Prop :=
  if c.deletes then result = some (c.memoryId, none)
  else ∀ i v, row.memoryId = some i → row.resultVersion = some v → v ≠ 0 →
    result = some (i, some v)

/-- How the body of an operation ends: it executed and recorded what it returns, or it replays a
completed row with its fingerprint; a row with another fingerprint is a conflict. -/
structure LedgerEnds {α : Type} (result : α → Option (UUID × Option Int)) (tenant : Option UUID)
    (c : LedgerClaim) (trace : Trace R) (r : Except PyError α) : Prop where
  agrees : ∀ a, r = .ok a → Agrees tenant c trace
  returns : ∀ a, r = .ok a →
    (Claimed c.key trace ∧ ∃ i v status s, result a = some (i, v) ∧
      (Statement.completeOperation c.key c.fingerprint (some i) v status, s) ∈ trace) ∨
    (¬ Claimed c.key trace ∧ ∃ row, Observed tenant c.key row trace ∧ row.status = .completed ∧
      row.fingerprint = c.fingerprint ∧ Replays c row (result a))
  raises : ∀ e, r = .error e → ∀ row, Observed tenant c.key row trace →
    row.fingerprint ≠ c.fingerprint → IsConflict e

/-! ## Bodies -/

section Body

variable {α β : Type} {result : α → Option (UUID × Option Int)} {tenant : Option UUID}
  {encryptor : Option TenantEnvelopeEncryptor} {c : LedgerClaim} {trace : Trace R}

omit [Python R] in
/-- The key is claimed by an INSERT that has found it free. -/
theorem claimed_append {key : OperationKey} {q : Statement R} {s : Database R} :
    Claimed key (trace ++ [(q, s)]) ↔ Claimed key trace ∨
      (∃ fp, q = .insertOperation key fp) ∧ s.operations.contains key = false := by
  constructor
  · rintro ⟨fp, s', hs', habsent⟩
    rcases List.mem_append.mp hs' with hs' | hs'
    · exact .inl ⟨fp, s', hs', habsent⟩
    · obtain ⟨rfl, rfl⟩ := Prod.mk.inj (List.mem_singleton.mp hs')
      exact .inr ⟨⟨fp, rfl⟩, habsent⟩
  · rintro (⟨fp, s', hs', habsent⟩ | ⟨⟨fp, rfl⟩, habsent⟩)
    · exact ⟨fp, s', List.mem_append_left _ hs', habsent⟩
    · exact ⟨fp, s, List.mem_append_right _ (List.mem_singleton_self _), habsent⟩

omit [Python R] in
/-- It is completed by an UPDATE on it. -/
theorem completing_append {key : OperationKey} {q : Statement R} {s : Database R} :
    Completing key (trace ++ [(q, s)]) ↔ Completing key trace ∨
      ∃ fp i v status, q = .completeOperation key fp i v status := by
  constructor
  · rintro ⟨fp, i, v, status, s', hs'⟩
    rcases List.mem_append.mp hs' with hs' | hs'
    · exact .inl ⟨fp, i, v, status, s', hs'⟩
    · exact .inr ⟨fp, i, v, status, ((Prod.mk.inj (List.mem_singleton.mp hs')).1).symm⟩
  · rintro (⟨fp, i, v, status, s', hs'⟩ | ⟨fp, i, v, status, rfl⟩)
    · exact ⟨fp, i, v, status, s', List.mem_append_left _ hs'⟩
    · exact ⟨fp, i, v, status, s, List.mem_append_right _ (List.mem_singleton_self _)⟩

omit [Python R] in
/-- A row is observed by a SELECT that finds it. -/
theorem observed_append {key : OperationKey} {row : OperationRow} {q : Statement R}
    {s : Database R} :
    Observed tenant key row (trace ++ [(q, s)]) ↔ Observed tenant key row trace ∨
      q = .selectOperation key ∧ s.operation tenant key = some row := by
  constructor
  · rintro ⟨s', hs', hrow⟩
    rcases List.mem_append.mp hs' with hs' | hs'
    · exact .inl ⟨s', hs', hrow⟩
    · obtain ⟨rfl, rfl⟩ := Prod.mk.inj (List.mem_singleton.mp hs')
      exact .inr ⟨rfl, hrow⟩
  · rintro (⟨s', hs', hrow⟩ | ⟨rfl, hrow⟩)
    · exact ⟨s', List.mem_append_left _ hs', hrow⟩
    · exact ⟨s, List.mem_append_right _ (List.mem_singleton_self _), hrow⟩

omit [Python R] in
/-- Statements off the ledger change nothing of this. -/
theorem ledger_extends (tenant : Option UUID) (key : OperationKey) {t : Trace R}
    (h : Extends (fun q : Statement R => q.ledgerKey = none) trace t) :
    (Claimed key t ↔ Claimed key trace) ∧ (Completing key t ↔ Completing key trace) ∧
      ∀ row, Observed tenant key row t ↔ Observed tenant key row trace := by
  obtain ⟨more, rfl, hmore⟩ := h
  induction more using List.reverseRecOn with
  | nil =>
    rw [List.append_nil]
    exact ⟨Iff.rfl, Iff.rfl, fun _ => Iff.rfl⟩
  -- the last statement has no ledger key, so it neither claims, completes nor reads
  | append_singleton more e ih =>
    obtain ⟨hclaimed, hcompleting, hobserved⟩ :=
      ih fun e' he' => hmore e' (List.mem_append_left _ he')
    have hfree : e.1.ledgerKey = none :=
      hmore e (List.mem_append_right _ (List.mem_singleton_self _))
    obtain ⟨q, s⟩ := e
    rw [← List.append_assoc, claimed_append, completing_append]
    refine ⟨?_, ?_, fun row => ?_⟩
    · rw [hclaimed, or_iff_left]
      rintro ⟨⟨fp, rfl⟩, -⟩
      cases hfree
    · rw [hcompleting, or_iff_left]
      rintro ⟨fp, i, v, status, rfl⟩
      cases hfree
    · rw [observed_append, hobserved row, or_iff_left]
      rintro ⟨rfl, -⟩
      cases hfree

/-- The mutation is under way. -/
structure Executes (tenant : Option UUID) (c : LedgerClaim) (trace : Trace R) : Prop where
  claimed : Claimed c.key trace
  open_ : ¬ Completing c.key trace
  agrees : Agrees tenant c trace

omit [Python R] in
/-- Statements on other tables change nothing about the ledger. -/
theorem Executes.extends {t : Trace R} (h : Executes tenant c trace)
    (ht : Extends (fun q : Statement R => q.ledgerKey = none) trace t) : Executes tenant c t := by
  obtain ⟨hclaimed, hcompleting, hobserved⟩ := ledger_extends tenant c.key ht
  exact ⟨hclaimed.mpr h.claimed, fun hdone => h.open_ (hcompleting.mp hdone),
    fun row hrow => h.agrees row ((hobserved row).mp hrow)⟩

omit [Python R] in
/-- Off the ledger, an executing transaction may issue anything; any transaction may read. -/
theorem issues_of_free {q : Statement R} (hagrees : Agrees tenant c trace)
    (hq : q.ledgerKey = none) (hmutates : q.mutates = true → Claimed c.key trace) :
    Issues tenant c trace q where
  agrees := hagrees
  own k hk := by
    rw [hq] at hk
    cases hk
  selects h := by
    subst h
    cases hq
  inserts fp h := by
    subst h
    cases hq
  completes fp i v status h := by
    subst h
    cases hq
  mutates := hmutates

omit [Python R] in
/-- An operation that raises has promised nothing. -/
theorem LedgerEnds.error (hagrees : Agrees tenant c trace) (e : PyError) :
    LedgerEnds result tenant c trace (.error e) where
  agrees a ha := by cases ha
  returns a ha := by cases ha
  raises _ _ row hrow hne := absurd (hagrees row hrow) hne

/-- The rest of a body that has claimed its key. -/
def Executing (result : α → Option (UUID × Option Int)) (tenant : Option UUID) (c : LedgerClaim)
    (x : DbProg R α) : Prop :=
  ∀ trace, Executes tenant c trace →
    Meets (fun q => q.run tenant) (Issues tenant c) (LedgerEnds result tenant c) trace x

/-- Before the operation is carried out, other tables may be read. -/
theorem Executing.bind {x : DbProg R β} {f : β → DbProg R α} (hx : LedgerFree x)
    (hf : ∀ b, Executing result tenant c (f b)) : Executing result tenant c (x >>= f) := by
  intro trace h
  have hfirst : Meets (fun q => q.run tenant) (Issues tenant c) _ trace x :=
    meets_true.within hx fun t q ht hq =>
      issues_of_free (h.extends ht).agrees hq fun _ => (h.extends ht).claimed
  refine hfirst.bind ?_ ?_
  · rintro t b ⟨ht, -⟩
    exact hf b t (h.extends ht)
  · rintro t e ⟨ht, -⟩
    exact .error (h.extends ht).agrees e

theorem Executing.ite {b : Prop} [Decidable b] {x y : DbProg R α}
    (hx : Executing result tenant c x) (hy : Executing result tenant c y) :
    Executing result tenant c (if b then x else y) := by
  split
  · exact hx
  · exact hy

/-- The body ends with `complete`, and returns what it recorded. -/
theorem executing_complete {o k fp status : String} {op : IdempotencyOperationType} {j i : UUID}
    {v : Option Int} {a : α} (hrecord : Recordable ⟨(o, op, k), fp, j⟩ (some i) v)
    (hresult : result a = some (i, v)) :
    Executing result tenant ⟨(o, op, k), fp, j⟩ (PostgresIdempotencyRepository.complete
      (Session.interleaved R tenant encryptor) (freshClaim o op k fp) (some i) v status >>=
        fun _ => pure a) := by
  intro trace h
  -- the one UPDATE is of the claim, with its record
  have hissues : Issues tenant ⟨(o, op, k), fp, j⟩ trace
      (completing (freshClaim o op k fp) (some i) v status) := by
    refine ⟨h.agrees, fun k' hk' => (Option.some.inj hk').symm, ?_, ?_, ?_, ?_⟩
    · intro heq
      cases heq
    · intro fp' heq
      cases heq
    · intro fp' i' v' status' heq
      obtain ⟨-, rfl, rfl, rfl, rfl⟩ := Statement.completeOperation.inj heq
      exact ⟨rfl, h.claimed, h.open_, hrecord⟩
    · intro hmutates
      cases hmutates
  -- it reads no row
  have hagrees : ∀ s, Agrees tenant ⟨(o, op, k), fp, j⟩ (trace ++
      [(completing (freshClaim o op k fp) (some i) v status, s)]) := by
    intro s row hrow
    rcases observed_append.mp hrow with hrow | ⟨heq, -⟩
    · exact h.agrees row hrow
    · cases heq
  refine (meets_complete hissues).bind ?_ ?_
  -- it has completed, and names the result
  · intro t u hcompletes
    obtain ⟨s, rfl⟩ := hcompletes.trace_eq
    refine meets_pure.mpr ⟨fun _ _ => hagrees s, fun a' ha' => ?_, fun e he => by cases he⟩
    obtain rfl := Except.ok.inj ha'
    exact .inl ⟨claimed_append.mpr (.inl h.claimed), i, v, status, s, hresult,
      List.mem_append_right _ (List.mem_singleton_self _)⟩
  · intro t e hcompletes
    obtain ⟨s, rfl⟩ := hcompletes.trace_eq
    exact .error (hagrees s) e

/-- The claim is not decided yet: nothing inserted, and no row seen. -/
structure Undecided (tenant : Option UUID) (key : OperationKey) (trace : Trace R) : Prop where
  unclaimed : ¬ Claimed key trace
  unseen : ∀ row, ¬ Observed tenant key row trace

omit [Python R] in
/-- At the start nothing is known of the key. -/
theorem undecided_nil (key : OperationKey) : Undecided tenant key ([] : Trace R) where
  unclaimed := by
    rintro ⟨fp, s, hs, -⟩
    cases hs
  unseen := by
    rintro row ⟨s, hs, -⟩
    cases hs

omit [Python R] in
/-- A SELECT that finds nothing leaves it at that. -/
theorem Undecided.select {key : OperationKey} {s : Database R} (h : Undecided tenant key trace)
    (hnone : s.operation tenant key = none) :
    Undecided tenant key (trace ++ [(.selectOperation key, s)]) where
  unclaimed hclaimed := by
    rcases claimed_append.mp hclaimed with hclaimed | ⟨⟨fp, heq⟩, -⟩
    · exact h.unclaimed hclaimed
    · cases heq
  unseen row hrow := by
    rcases observed_append.mp hrow with hrow | ⟨-, hrow⟩
    · exact h.unseen row hrow
    · rw [hnone] at hrow
      cases hrow

omit [Python R] in
/-- So does an INSERT that finds the key taken. -/
theorem Undecided.insert {key : OperationKey} {fp : String} {s : Database R}
    (h : Undecided tenant key trace) (htaken : s.operations.contains key = true) :
    Undecided tenant key (trace ++ [(.insertOperation key fp, s)]) where
  unclaimed hclaimed := by
    rcases claimed_append.mp hclaimed with hclaimed | ⟨-, habsent⟩
    · exact h.unclaimed hclaimed
    · rw [htaken] at habsent
      cases habsent
  unseen row hrow := by
    rcases observed_append.mp hrow with hrow | ⟨heq, -⟩
    · exact h.unseen row hrow
    · cases heq

omit [Python R] in
theorem Undecided.issues_select (h : Undecided tenant c.key trace) :
    Issues tenant c trace (.selectOperation c.key) where
  agrees row hrow := absurd hrow (h.unseen row)
  own k hk := (Option.some.inj hk).symm
  selects _ := h.unclaimed
  inserts fp heq := by cases heq
  completes fp i v status heq := by cases heq
  mutates hmutates := by cases hmutates

omit [Python R] in
theorem Undecided.issues_insert (h : Undecided tenant c.key trace) :
    Issues tenant c trace (.insertOperation c.key c.fingerprint) where
  agrees row hrow := absurd hrow (h.unseen row)
  own k hk := (Option.some.inj hk).symm
  selects heq := by cases heq
  inserts fp heq := ⟨((Statement.insertOperation.inj heq).2).symm, h.unclaimed⟩
  completes fp i v status heq := by cases heq
  mutates hmutates := by cases hmutates

omit [Python R] in
/-- The row that an undecided claim sees next is the only one that it saw. -/
theorem Undecided.observed {key : OperationKey} {s : Database R} {row : OperationRow}
    (h : Undecided tenant key trace)
    (hrow : Observed tenant key row (trace ++ [(.selectOperation key, s)])) :
    s.operation tenant key = some row := by
  rcases observed_append.mp hrow with hrow | ⟨-, hrow⟩
  · exact absurd hrow (h.unseen row)
  · exact hrow

omit [Python R] in
/-- A row that `claim` refuses, if it has another fingerprint, is a conflict. -/
theorem Undecided.refused {o k fp : String} {op : IdempotencyOperationType} {j : UUID}
    {s : Database R} {e : PyError} (h : Undecided tenant (o, op, k) trace)
    (herror : claimOf tenant o op k fp s = .error e) :
    LedgerEnds result tenant ⟨(o, op, k), fp, j⟩ (trace ++ [(.selectOperation (o, op, k), s)])
      (.error e) where
  agrees a ha := by cases ha
  returns a ha := by cases ha
  raises e' he' row hrow hne := by
    obtain rfl := Except.error.inj he'
    unfold claimOf at herror
    rw [h.observed hrow] at herror
    replace herror : (raiseIf (decide (row.fingerprint ≠ fp)) (.omp .idempotencyConflictError
        "idempotency_key was already used for another operation") >>= _) = Except.error e := herror
    rw [decide_eq_true hne] at herror
    exact ⟨_, (Except.error.inj herror).symm⟩

/-- What a replay may rely on. -/
structure Replaying (tenant : Option UUID) (c : LedgerClaim) (claim : IdempotencyClaim)
    (row : OperationRow) (trace : Trace R) : Prop where
  unclaimed : ¬ Claimed c.key trace
  agrees : Agrees tenant c trace
  observed : Observed tenant c.key row trace
  completed : row.status = .completed
  fingerprint : row.fingerprint = c.fingerprint
  memoryId : claim.memoryId = row.memoryId
  resultVersion : claim.resultVersion = row.resultVersion

omit [Python R] in
/-- A claim that finds a row is a replay of it. -/
theorem Undecided.replaying {o k fp : String} {op : IdempotencyOperationType} {j : UUID}
    {s : Database R} {claim : IdempotencyClaim} (h : Undecided tenant (o, op, k) trace)
    (hclaim : claimOf tenant o op k fp s = .ok claim) :
    claim.replay = true ∧ ∃ row, Replaying tenant ⟨(o, op, k), fp, j⟩ claim row
      (trace ++ [(.selectOperation (o, op, k), s)]) := by
  obtain ⟨hreplay, row, hrow, hfp, hstatus, hmemory, hversion, -⟩ := claimOf_ok hclaim
  refine ⟨hreplay, row, ?_, ?_, observed_append.mpr (.inr ⟨rfl, hrow⟩), hstatus, hfp, hmemory,
    hversion⟩
  · intro hclaimed
    rcases claimed_append.mp hclaimed with hclaimed | ⟨⟨fp', heq⟩, -⟩
    · exact h.unclaimed hclaimed
    · cases heq
  · intro row' hrow'
    obtain rfl := Option.some.inj ((h.observed hrow').symm.trans hrow)
    exact hfp

/-- A claim, and what follows it: the replay of a completed row, or the mutation. -/
theorem meets_ledgered {o k fp : String} {op : IdempotencyOperationType} {j : UUID}
    {replay body : IdempotencyClaim → DbProg R α}
    (hreplay : ∀ t claim row, Replaying tenant ⟨(o, op, k), fp, j⟩ claim row t →
      Meets (fun q => q.run tenant) (Issues tenant ⟨(o, op, k), fp, j⟩)
        (LedgerEnds result tenant ⟨(o, op, k), fp, j⟩) t (replay claim))
    (hbody : Executing result tenant ⟨(o, op, k), fp, j⟩ (body (freshClaim o op k fp))) :
    Meets (fun q => q.run tenant) (Issues tenant ⟨(o, op, k), fp, j⟩)
      (LedgerEnds result tenant ⟨(o, op, k), fp, j⟩) []
      (PostgresIdempotencyRepository.claim (Session.interleaved R tenant encryptor) o op k fp >>=
        fun claim => if claim.replay then replay claim else body claim) := by
  -- nothing is decided before the first statement
  have hstart : Undecided tenant (o, op, k) ([] : Trace R) := undecided_nil _
  refine (meets_claim hstart.issues_select (fun s hnone => (hstart.select hnone).issues_insert)
    fun s s' hnone htaken => ((hstart.select hnone).insert htaken).issues_select).bind ?_ ?_
  · intro t claim hclaims
    generalize hr : (Except.ok claim : Except PyError IdempotencyClaim) = r at hclaims
    cases hclaims with
    -- a row was there: the claim is a replay
    | seen s hrow =>
      obtain ⟨hreplayed, row, hreplaying⟩ := hstart.replaying hr.symm
      rw [if_pos hreplayed]
      exact hreplay _ claim row hreplaying
    -- the row was inserted: the body runs with the claim
    | inserted s s' hnone habsent =>
      obtain rfl := Except.ok.inj hr
      refine hbody _ ⟨claimed_append.mpr (.inr ⟨⟨fp, rfl⟩, habsent⟩), ?_, ?_⟩
      · rintro ⟨fp', i, v, status, s₁, hs₁⟩
        simp at hs₁
      · intro row hrow
        rcases observed_append.mp hrow with hrow | ⟨heq, -⟩
        · exact absurd hrow ((hstart.select hnone).unseen row)
        · cases heq
    -- the INSERT waited for another one, and the row is there now
    | waited s s' s'' hnone htaken =>
      obtain ⟨hreplayed, row, hreplaying⟩ :=
        ((hstart.select hnone).insert htaken).replaying hr.symm
      rw [if_pos hreplayed]
      exact hreplay _ claim row hreplaying
  -- an error is that of a conflict or of a claim in progress
  · intro t e hclaims
    generalize hr : (Except.error e : Except PyError IdempotencyClaim) = r at hclaims
    cases hclaims with
    | seen s hrow => exact hstart.refused hr.symm
    | inserted s s' hnone habsent => cases hr
    | waited s s' s'' hnone htaken => exact ((hstart.select hnone).insert htaken).refused hr.symm

end Body

/-! ## The five operations -/

section Operations

variable {tenant : Option UUID} {encryptor : Option TenantEnvelopeEncryptor}

/-- The answer of an update, a confirmation or a pin. -/
def versioned (m : Memory R) : Option (UUID × Option Int) := some (m.id, some m.version)

/-- The answer of a forget or a discard. -/
def removed (r : ForgetMemoryResult) : Option (UUID × Option Int) := some (r.memoryId, none)

/-- `get_version` returns the version it is asked for. -/
theorem meets_getVersion {o : String} {i : UUID} {v : Int} {trace : Trace R} :
    Meets (fun q => q.run tenant) (fun _ _ => True)
      (fun _ r => ∀ m, r = .ok (some m) → m.id = i ∧ m.version = v) trace
      (PostgresMemoryRepository.getVersion (Session.interleaved R tenant encryptor) o i v) := by
  refine (meets_get trivial).bind ?_ fun t e _ m hm => by cases hm
  -- an absent memory has no version
  intro t current hgets
  cases current with
  | none => exact meets_pure.mpr fun m hm => by cases hm
  | some current =>
    have hid : current.id = i := by
      generalize hr : (Except.ok (some current) : Except PyError (Option (Memory R))) = r at hgets
      cases hgets with
      | refused e => cases hr
      | read s =>
        obtain ⟨row, -, hrow⟩ := readMemory_some hr.symm
        exact (memoryFromRow_ok hrow).1
    -- the current version, or one that is rebuilt from its snapshot
    refine meets_ite (fun hversion => meets_pure.mpr ?_) fun _ => ?_
    · intro m hm
      obtain rfl := Option.some.inj (Except.ok.inj hm)
      exact ⟨hid, hversion⟩
    · refine meets_statement_bind trivial fun s row s' _ => ?_
      cases row with
      | none => exact meets_pure.mpr fun m hm => by cases hm
      | some row =>
        refine meets_ofExcept_bind (fun e _ m hm => by cases hm) fun snapshot hsnapshot => ?_
        refine Meets.map (Ψ := fun _ r => r = current.rebuild snapshot) (meets_ofExcept.mpr rfl)
          fun t r hr => ?_
        subst hr
        intro m hm
        cases hrebuild : current.rebuild snapshot with
        | error e =>
          rw [hrebuild] at hm
          cases hm
        | ok m' =>
          rw [hrebuild] at hm
          obtain rfl := Option.some.inj (Except.ok.inj hm)
          obtain ⟨hsame, -, -, hversion⟩ := Memory.rebuild_ok hrebuild
          simp only [Session.versionFromRow, except_bind_ok, except_pure_ok] at hsnapshot
          obtain ⟨_, -, _, -, _, -, rfl⟩ := hsnapshot
          exact ⟨hsame.trans hid, hversion⟩

/-- A replay answers with the recorded version. -/
theorem meets_replayVersion {c : LedgerClaim} {claim : IdempotencyClaim} {row : OperationRow}
    {trace : Trace R} {o : String} {t : Option String} {i : UUID} {v : Int}
    (hdeletes : c.deletes = false) (h : Replaying tenant c claim row trace) :
    Meets (fun q => q.run tenant) (Issues tenant c) (LedgerEnds versioned tenant c) trace
      (replayVersion (postgresUnitOfWork (Session.interleaved R tenant encryptor)) o t claim i
        v) := by
  -- what is answered has the id and the version asked for
  have hresult : Meets (fun q => q.run tenant) (fun _ _ => True)
      (fun _ r => ∀ m, r = .ok m → m.id = claim.memoryId.getD i ∧
        m.version = (claim.resultVersion.filter fun v => decide (v ≠ 0)).getD v) trace
      (replayVersion (postgresUnitOfWork (Session.interleaved R tenant encryptor)) o t claim i
        v) := by
    refine meets_getVersion.bind ?_ fun t e _ m hm => by cases hm
    intro t replay hreplay
    cases replay with
    | none => exact meets_throw.mpr fun m hm => by cases hm
    | some memory =>
      refine meets_pure.mpr fun m hm => ?_
      obtain rfl := Except.ok.inj hm
      exact hreplay _ rfl
  -- the answer is only read
  have hreads : Within (fun q : Statement R => q.ledgerKey = none ∧ q.mutates = false)
      (replayVersion (postgresUnitOfWork (Session.interleaved R tenant encryptor)) o t claim i v) :=
    within_replayVersion (fun _ => ⟨rfl, rfl⟩) fun _ _ => ⟨rfl, rfl⟩
  -- so the ledger stays as it was seen
  have hstays : ∀ t : Trace R, Extends (fun q : Statement R => q.ledgerKey = none ∧
      q.mutates = false) trace t → ¬ Claimed c.key t ∧ Agrees tenant c t ∧
      Observed tenant c.key row t := by
    rintro t ⟨more, rfl, hmore⟩
    have hfree : Extends (fun q : Statement R => q.ledgerKey = none) trace (trace ++ more) :=
      ⟨more, rfl, fun e he => (hmore e he).1⟩
    obtain ⟨hclaimed, -, hobserved⟩ := ledger_extends tenant c.key hfree
    exact ⟨fun hc => h.unclaimed (hclaimed.mp hc), fun row' hrow' => h.agrees row'
      ((hobserved row').mp hrow'), (hobserved row).mpr h.observed⟩
  refine (hresult.within hreads fun t q ht hq => ?_).mono ?_
  · refine issues_of_free (hstays t ht).2.1 hq.1 fun hmutates => ?_
    rw [hq.2] at hmutates
    cases hmutates
  · rintro t r ⟨ht, hr⟩
    obtain ⟨hunclaimed, hagrees, hobserved⟩ := hstays t ht
    -- the row determines the memory and the version that are answered
    cases r with
    | error e => exact .error hagrees e
    | ok m =>
      refine ⟨fun _ _ => hagrees, fun a ha => ?_, fun e he => by cases he⟩
      obtain rfl := Except.ok.inj ha
      refine .inr ⟨hunclaimed, row, hobserved, h.completed, h.fingerprint, ?_⟩
      unfold Replays
      rw [hdeletes, if_neg Bool.false_ne_true]
      intro j n hj hn hne
      obtain ⟨hid, hversion⟩ := hr m rfl
      rw [h.memoryId, hj] at hid
      have hkept : Option.filter (fun v : Int => decide (v ≠ 0)) (some n) = some n :=
        Option.filter_some_pos (decide_eq_true hne)
      rw [h.resultVersion, hn, hkept] at hversion
      unfold versioned
      rw [hid, hversion]
      rfl

/-- A replay that answers without a statement. -/
theorem meets_replayRemoval {c : LedgerClaim} {claim : IdempotencyClaim} {row : OperationRow}
    {trace : Trace R} {forgotten : Bool} (hdeletes : c.deletes = true)
    (h : Replaying tenant c claim row trace) :
    Meets (fun q => q.run tenant) (Issues tenant c) (LedgerEnds removed tenant c) trace
      (pure { memoryId := c.memoryId, forgotten := forgotten } : DbProg R ForgetMemoryResult) := by
  refine meets_pure.mpr ⟨fun _ _ => h.agrees, fun a ha => ?_, fun e he => by cases he⟩
  obtain rfl := Except.ok.inj ha
  refine .inr ⟨h.unclaimed, row, h.observed, h.completed, h.fingerprint, ?_⟩
  unfold Replays
  rw [hdeletes, if_pos rfl]
  rfl

/-- An update, a confirmation or a pin records the version that it returns. -/
theorem executing_version {o k fp status : String} {op : IdempotencyOperationType} {j : UUID}
    {m : Memory R} (hdeletes : LedgerClaim.deletes ⟨(o, op, k), fp, j⟩ = false) :
    Executing versioned tenant ⟨(o, op, k), fp, j⟩ (PostgresIdempotencyRepository.complete
      (Session.interleaved R tenant encryptor) (freshClaim o op k fp) (some m.id) (some m.version)
        status >>= fun _ => pure m) := by
  refine executing_complete ?_ rfl
  unfold Recordable
  rw [hdeletes, if_neg Bool.false_ne_true]
  refine ⟨m.id, m.version, rfl, rfl, ?_⟩
  have hpos := m.one_le_version
  omega

/-- A forget or a discard records the memory that it addresses. -/
theorem executing_removal {o k fp status : String} {op : IdempotencyOperationType} {j : UUID}
    {forgotten : Bool} (hdeletes : LedgerClaim.deletes ⟨(o, op, k), fp, j⟩ = true) :
    Executing removed tenant ⟨(o, op, k), fp, j⟩ (PostgresIdempotencyRepository.complete
      (Session.interleaved R tenant encryptor) (freshClaim o op k fp) (some j) none status >>=
        fun _ => pure { memoryId := j, forgotten := forgotten }) := by
  refine executing_complete ?_ rfl
  unfold Recordable
  rw [hdeletes, if_pos rfl]
  exact ⟨rfl, rfl⟩

omit [Python R] in
theorem ledgerEnds_nil {α : Type} {result : α → Option (UUID × Option Int)} {c : LedgerClaim}
    (e : PyError) : LedgerEnds result tenant c ([] : Trace R) (.error e) :=
  .error (fun row hrow => absurd hrow ((undecided_nil c.key).unseen row)) e

/-- What `update` does with its key in the ledger. -/
theorem meets_update {svc : MemoryApplicationService R} {cmd : UpdateMemoryCommand R} {key : String}
    (hkey : truthyKey cmd.idempotencyKey = some key) :
    Meets (fun q => q.run tenant)
      (Issues tenant ⟨(cmd.ownerId, .update, key), fingerprintUpdateCommand cmd, cmd.memoryId⟩)
      (LedgerEnds versioned tenant
        ⟨(cmd.ownerId, .update, key), fingerprintUpdateCommand cmd, cmd.memoryId⟩) []
      (svc.update (postgresUnitOfWork (Session.interleaved R tenant encryptor)) cmd) := by
  refine meets_ofExcept_bind (fun e _ => ledgerEnds_nil e) fun _ _ => ?_
  rw [hkey]
  refine meets_ledgered (fun t claim row h => meets_replayVersion rfl h) ?_
  exact .bind (ledgerFree_updateBody svc cmd) fun persisted => executing_version rfl

/-- What `confirm_candidate` does with its key. -/
theorem meets_confirmCandidate {svc : MemoryApplicationService R} {cmd : ConfirmCandidateCommand} :
    Meets (fun q => q.run tenant)
      (Issues tenant ⟨(cmd.ownerId, .confirm, cmd.idempotencyKey), fingerprintConfirmCommand R cmd,
        cmd.memoryId⟩)
      (LedgerEnds versioned tenant
        ⟨(cmd.ownerId, .confirm, cmd.idempotencyKey), fingerprintConfirmCommand R cmd,
          cmd.memoryId⟩) []
      (svc.confirmCandidate (postgresUnitOfWork (Session.interleaved R tenant encryptor)) cmd) := by
  refine meets_raiseIf_bind (fun _ => ledgerEnds_nil _) fun _ => ?_
  refine meets_validateMutationScope_bind (fun e => ledgerEnds_nil e) ?_
  refine meets_ledgered (fun t claim row h => meets_replayVersion rfl h) ?_
  refine .bind (ledgerFree_currentAt _ _ _ _ _) fun current => .bind within_raiseIf fun _ => ?_
  refine .bind within_ofExcept fun timestamp => .bind within_ofExcept fun descriptor => ?_
  refine .bind within_ofExcept fun updated => .bind within_embedChecked fun vector => ?_
  exact .bind (ledgerFree_update _ _ _ _) fun persisted => executing_version rfl

/-- What `pin` does with its key. -/
theorem meets_pin {svc : MemoryApplicationService R} {cmd : PinMemoryCommand} :
    Meets (fun q => q.run tenant)
      (Issues tenant ⟨(cmd.ownerId, .pin, cmd.idempotencyKey), fingerprintPinCommand R cmd,
        cmd.memoryId⟩)
      (LedgerEnds versioned tenant
        ⟨(cmd.ownerId, .pin, cmd.idempotencyKey), fingerprintPinCommand R cmd, cmd.memoryId⟩) []
      (svc.pin (postgresUnitOfWork (Session.interleaved R tenant encryptor)) cmd) := by
  refine meets_raiseIf_bind (fun _ => ledgerEnds_nil _) fun _ => ?_
  refine meets_validateMutationScope_bind (fun e => ledgerEnds_nil e) ?_
  refine meets_ledgered (fun t claim row h => meets_replayVersion rfl h) ?_
  refine .bind (ledgerFree_currentAt _ _ _ _ _) fun current => .bind within_raiseIf fun _ => ?_
  refine .ite (executing_version rfl) ?_
  refine .bind within_ofExcept fun timestamp => .bind within_ofExcept fun updated => ?_
  refine .bind within_embedChecked fun vector => ?_
  exact .bind (ledgerFree_update _ _ _ _) fun persisted => executing_version rfl

/-- What `forget` does with its key. -/
theorem meets_serviceForget {cmd : ForgetMemoryCommand} {key : String}
    (hkey : truthyKey cmd.idempotencyKey = some key) :
    Meets (fun q => q.run tenant)
      (Issues tenant ⟨(cmd.ownerId, .forget, key), fingerprintForgetCommand R cmd, cmd.memoryId⟩)
      (LedgerEnds removed tenant
        ⟨(cmd.ownerId, .forget, key), fingerprintForgetCommand R cmd, cmd.memoryId⟩) []
      (MemoryApplicationService.forget (postgresUnitOfWork (Session.interleaved R tenant encryptor))
        cmd) := by
  refine meets_ofExcept_bind (fun e _ => ledgerEnds_nil e) fun _ _ => ?_
  rw [hkey]
  refine meets_ledgered (fun t claim row h => meets_replayRemoval rfl h) ?_
  exact .bind (ledgerFree_forget _ _) fun forgotten => executing_removal rfl

/-- What `discard_candidate` does with its key. -/
theorem meets_discard {cmd : DiscardCandidateCommand} :
    Meets (fun q => q.run tenant)
      (Issues tenant ⟨(cmd.ownerId, .discard, cmd.idempotencyKey), fingerprintDiscardCommand R cmd,
        cmd.memoryId⟩)
      (LedgerEnds removed tenant
        ⟨(cmd.ownerId, .discard, cmd.idempotencyKey), fingerprintDiscardCommand R cmd,
          cmd.memoryId⟩) []
      (discardCandidate (postgresUnitOfWork (Session.interleaved R tenant encryptor)) cmd) := by
  refine meets_raiseIf_bind (fun _ => ledgerEnds_nil _) fun _ => ?_
  refine meets_validateMutationScope_bind (fun e => ledgerEnds_nil e) ?_
  refine meets_ledgered (fun t claim row h => meets_replayRemoval rfl h) ?_
  refine .bind (ledgerFree_currentAt _ _ _ _ _) fun current => .bind within_raiseIf fun _ => ?_
  exact .bind (ledgerFree_forget _ _) fun forgotten => executing_removal rfl

end Operations

end OpenMemory.Postgres
