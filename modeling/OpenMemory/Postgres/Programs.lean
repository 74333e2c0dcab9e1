import OpenMemory.Postgres.Locks

/-!
# Repository methods as programs

What the methods do statement by statement, in the logic of `Lib.Prog`: one rule for each
method. A rule asks that each statement may be issued (`P`), given the statements before it,
and says which traces the method can end with and what it then returns or raises (`Φ`). The
states in between are arbitrary, since other transactions may commit there.
-/

namespace OpenMemory.Postgres

open Lib Lib.Prog
open MonadExcept (ofExcept)
open MemoryApplicationService

variable {R : Type} [Python R]

/-- The statements of a transaction so far, with what each of them saw. -/
abbrev Trace (R : Type) := List (Statement R × Database R)

section Rules

variable {tenant : Option UUID} {encryptor : Option TenantEnvelopeEncryptor}
  {P : Trace R → Statement R → Prop} {trace : Trace R}

omit [Python R] in
theorem meets_raiseIf_bind {α : Type}
    {run : (q : Statement R) → Database R → Except PyError (q.Result × Database R)}
    {Φ : Trace R → Except PyError α → Prop} {b : Bool} {e : PyError} {f : Unit → DbProg R α}
    (hraise : b = true → Φ trace (.error e)) (hpass : b = false → Meets run P Φ trace (f ())) :
    Meets run P Φ trace (raiseIf b e >>= f) := by
  cases b with
  | true => exact meets_done.mpr (hraise rfl)
  | false => exact hpass rfl

omit [Python R] in
theorem meets_raiseIf {run : (q : Statement R) → Database R → Except PyError (q.Result × Database R)}
    {Φ : Trace R → Except PyError Unit → Prop} {b : Bool} {e : PyError}
    (hraise : b = true → Φ trace (.error e)) (hpass : b = false → Φ trace (.ok ())) :
    Meets run P Φ trace (raiseIf b e : DbProg R Unit) := by
  cases b with
  | true => exact meets_done.mpr (hraise rfl)
  | false => exact meets_done.mpr (hpass rfl)

/-- The ledger row under the key that the session sees. -/
def Database.operation (db : Database R) (tenant : Option UUID) (key : OperationKey) :
    Option OperationRow :=
  (db.operations.get? key).filter fun row => decide (row.tenantId = tenant)

/-- A claim that is established, before its mutation. -/
def freshClaim (o : String) (op : IdempotencyOperationType) (k fp : String) : IdempotencyClaim :=
  { ownerId := o, operationType := op, idempotencyKey := k, fingerprint := fp, replay := false }

/-- What `claim` makes of the ledger row it sees. -/
def claimOf (tenant : Option UUID) (o : String) (op : IdempotencyOperationType) (k fp : String)
    (db : Database R) : Except PyError IdempotencyClaim :=
  PostgresIdempotencyRepository.claimed o op k fp
    ((db.operation tenant (o, op, k)).map OperationRow.toStoredIdempotencyOperation)

/-- The ways a claim runs: it sees a row, it inserts one, or it waits for the insert of another
transaction and then sees that row. -/
inductive Claims (tenant : Option UUID) (o : String) (op : IdempotencyOperationType) (k fp : String)
    (trace : Trace R) : Trace R → Except PyError IdempotencyClaim → Prop
  | seen (s : Database R) (row : (s.operation tenant (o, op, k)).isSome) :
      Claims tenant o op k fp trace (trace ++ [(Statement.selectOperation (o, op, k), s)])
        (claimOf tenant o op k fp s)
  | inserted (s s' : Database R) (unseen : s.operation tenant (o, op, k) = none)
      (absent : s'.operations.contains (o, op, k) = false) :
      Claims tenant o op k fp trace (trace ++ [(Statement.selectOperation (o, op, k), s)] ++
        [(Statement.insertOperation (o, op, k) fp, s')]) (.ok (freshClaim o op k fp))
  | waited (s s' s'' : Database R) (unseen : s.operation tenant (o, op, k) = none)
      (taken : s'.operations.contains (o, op, k) = true) :
      Claims tenant o op k fp trace (trace ++ [(Statement.selectOperation (o, op, k), s)] ++
        [(Statement.insertOperation (o, op, k) fp, s')] ++ [(Statement.selectOperation (o, op, k), s'')])
        (claimOf tenant o op k fp s'')

omit [Python R] in
/-- A replay is claimed from a completed row with the same fingerprint. -/
theorem claimOf_ok {o k fp : String} {op : IdempotencyOperationType} {db : Database R}
    {claim : IdempotencyClaim} (h : claimOf tenant o op k fp db = .ok claim) :
    claim.replay = true ∧ ∃ row, db.operation tenant (o, op, k) = some row ∧
      row.fingerprint = fp ∧ row.status = .completed ∧ claim.memoryId = row.memoryId ∧
      claim.resultVersion = row.resultVersion ∧ claim.resultStatus = row.resultStatus := by
  unfold claimOf at h
  cases hrow : db.operation tenant (o, op, k) with
  | none =>
    rw [hrow] at h
    cases h
  | some row =>
    rw [hrow] at h
    simp only [Option.map_some, PostgresIdempotencyRepository.claimed, except_bind_ok,
      except_pure_ok, raiseIf_except_ok, decide_eq_false_iff_not, not_not] at h
    obtain ⟨_, hfp, _, hstatus, rfl⟩ := h
    exact ⟨rfl, row, rfl, hfp, hstatus, rfl, rfl, rfl⟩

/-- What `claim` issues, and what it answers. -/
theorem meets_claim {o k fp : String} {op : IdempotencyOperationType}
    (hselect : P trace (.selectOperation (o, op, k)))
    (hinsert : ∀ s, s.operation tenant (o, op, k) = none →
      P (trace ++ [(Statement.selectOperation (o, op, k), s)]) (.insertOperation (o, op, k) fp))
    (hagain : ∀ s s', s.operation tenant (o, op, k) = none →
      s'.operations.contains (o, op, k) = true →
      P (trace ++ [(Statement.selectOperation (o, op, k), s)] ++
        [(Statement.insertOperation (o, op, k) fp, s')]) (.selectOperation (o, op, k))) :
    Meets (fun q => q.run tenant) P (Claims tenant o op k fp trace) trace
      (PostgresIdempotencyRepository.claim (Session.interleaved R tenant encryptor) o op k fp) := by
  refine meets_statement_bind hselect fun s r s' hrun => ?_
  obtain ⟨rfl, -⟩ := Prod.mk.inj (Except.ok.inj hrun)
  cases hseen : s.operation tenant (o, op, k) with
  | some row =>
    have hrow : (s.operation tenant (o, op, k)).isSome := by
      rw [hseen]
      rfl
    have hclaim : claimOf tenant o op k fp s = PostgresIdempotencyRepository.claimed o op k fp
        (some row.toStoredIdempotencyOperation) := by
      unfold claimOf
      rw [hseen]
      rfl
    have hselected : ((s.operations.get? (o, op, k)).filter fun row =>
        decide (row.tenantId = tenant)) = some row := hseen
    rw [hselected]
    refine meets_ofExcept.mpr ?_
    rw [← hclaim]
    exact .seen s hrow
  | none =>
    have hselected : ((s.operations.get? (o, op, k)).filter fun row =>
        decide (row.tenantId = tenant)) = none := hseen
    rw [hselected]
    refine meets_statement_bind (hinsert s hseen) fun s' inserted s'' hins => ?_
    replace hins : (s'.insertOperation tenant (o, op, k) fp) = (inserted, s'') := Except.ok.inj hins
    unfold Database.insertOperation at hins
    by_cases htaken : s'.operations.contains (o, op, k) = true
    · rw [if_pos htaken] at hins
      obtain ⟨rfl, -⟩ := Prod.mk.inj hins
      refine meets_statement_bind (hagain s s' hseen htaken) fun s₂ r s₃ hrow => ?_
      obtain ⟨rfl, -⟩ := Prod.mk.inj (Except.ok.inj hrow)
      exact meets_ofExcept.mpr (.waited s s' s₂ hseen htaken)
    · rw [if_neg htaken] at hins
      obtain ⟨rfl, -⟩ := Prod.mk.inj hins
      exact meets_pure.mpr (.inserted s s' hseen (Bool.eq_false_iff.mpr htaken))

/-- What `complete` makes of the row count. -/
def completion (rowcount : Nat) : Except PyError Unit :=
  if rowcount ≠ 1 then .error (.omp .idempotencyConflictError "idempotency operation was not claimable")
  else .ok ()

/-- The statement of `complete`. -/
def completing (claim : IdempotencyClaim) (i : Option UUID) (v : Option Int) (status : String) :
    Statement R :=
  .completeOperation (claim.ownerId, claim.operationType, claim.idempotencyKey) claim.fingerprint i v
    status

/-- `complete` runs one statement. -/
inductive Completes (tenant : Option UUID) (claim : IdempotencyClaim) (i : Option UUID)
    (v : Option Int) (status : String) (trace : Trace R) : Trace R → Except PyError Unit → Prop
  | intro (s : Database R) : Completes tenant claim i v status trace
      (trace ++ [(completing claim i v status, s)])
      (completion (s.completeOperation tenant (claim.ownerId, claim.operationType,
        claim.idempotencyKey) claim.fingerprint i v status).1)

omit [Python R] in
theorem Completes.trace_eq {claim : IdempotencyClaim} {i : Option UUID} {v : Option Int}
    {status : String} {t : Trace R} {r : Except PyError Unit}
    (h : Completes tenant claim i v status trace t r) :
    ∃ s, t = trace ++ [(completing claim i v status, s)] := by
  cases h with
  | intro s => exact ⟨s, rfl⟩

omit [Python R] in
theorem Completes.mem {claim : IdempotencyClaim} {i : Option UUID} {v : Option Int}
    {status : String} {t : Trace R} {r : Except PyError Unit} {e : Statement R × Database R}
    (h : Completes tenant claim i v status trace t r) (he : e ∈ trace) : e ∈ t := by
  obtain ⟨s, rfl⟩ := h.trace_eq
  exact List.mem_append_left _ he

/-- `complete` issues one UPDATE. -/
theorem meets_complete {claim : IdempotencyClaim} {i : Option UUID} {v : Option Int}
    {status : String} (hP : P trace (completing claim i v status)) :
    Meets (fun q => q.run tenant) P (Completes tenant claim i v status trace) trace
      (PostgresIdempotencyRepository.complete (Session.interleaved R tenant encryptor) claim i v
        status) := by
  refine meets_statement_bind hP fun s (r : Nat) s' hrun => ?_
  have hr : (s.completeOperation tenant (claim.ownerId, claim.operationType,
      claim.idempotencyKey) claim.fingerprint i v status).1 = r :=
    congrArg Prod.fst (Except.ok.inj hrun)
  have hs : Completes tenant claim i v status trace _ _ := .intro s
  rw [hr] at hs
  unfold completion at hs
  refine meets_raiseIf ?_ ?_
  · intro hne
    rw [if_pos (of_decide_eq_true hne)] at hs
    exact hs
  · intro heq
    rw [if_neg (of_decide_eq_false heq)] at hs
    exact hs

/-- What `get` makes of the row it sees. -/
def readMemory (tenant : Option UUID) (encryptor : Option TenantEnvelopeEncryptor) (o : String)
    (i : UUID) (db : Database R) : Except PyError (Option (Memory R)) :=
  match db.owned tenant o i with
  | none => .ok none
  | some row => ((Session.sequential R tenant encryptor).memoryFromRow i row).map some

/-- `get` refuses the owner, or reads the row. -/
inductive Gets (tenant : Option UUID) (encryptor : Option TenantEnvelopeEncryptor) (o : String)
    (i : UUID) (trace : Trace R) : Trace R → Except PyError (Option (Memory R)) → Prop
  | refused (e : PyError) : Gets tenant encryptor o i trace trace (.error e)
  | read (s : Database R) : Gets tenant encryptor o i trace
      (trace ++ [(Statement.selectMemory o i, s)]) (readMemory tenant encryptor o i s)

/-- `get` issues one SELECT. -/
theorem meets_get {o : String} {i : UUID} (hP : P trace (.selectMemory o i)) :
    Meets (fun q => q.run tenant) P (Gets tenant encryptor o i trace) trace
      (PostgresMemoryRepository.get (Session.interleaved R tenant encryptor) o i) := by
  refine meets_ofExcept_bind (fun e _ => .refused e) fun _ _ => ?_
  refine meets_statement_bind hP fun s r s' hrun => ?_
  obtain ⟨rfl, -⟩ := Prod.mk.inj (Except.ok.inj hrun)
  have hs : Gets tenant encryptor o i trace _ _ := .read s
  unfold readMemory at hs
  cases hrow : s.owned tenant o i with
  | none =>
    rw [hrow] at hs
    exact meets_pure.mpr hs
  | some row =>
    rw [hrow] at hs
    refine Meets.map (meets_ofExcept.mpr (?_ : Gets tenant encryptor o i trace _ (Except.map some _)))
      fun t r hr => hr
    exact hs

/-- A memory that is read is decoded from its owner's row. -/
theorem readMemory_some {o : String} {i : UUID} {db : Database R} {m : Memory R}
    (h : readMemory tenant encryptor o i db = .ok (some m)) :
    ∃ row, db.owned tenant o i = some row ∧
      (Session.sequential R tenant encryptor).memoryFromRow i row = .ok m := by
  unfold readMemory at h
  cases hrow : db.owned tenant o i with
  | none =>
    rw [hrow] at h
    cases h
  | some row =>
    rw [hrow] at h
    dsimp only at h
    cases hread : (Session.sequential R tenant encryptor).memoryFromRow i row with
    | error e =>
      rw [hread] at h
      cases h
    | ok memory =>
      rw [hread] at h
      cases h
      exact ⟨row, rfl, hread⟩

/-- What `currentAt` makes of what `get` returned. -/
def currentOf (v : Int) (message : Memory R → String) :
    Except PyError (Option (Memory R)) → Except PyError (Memory R)
  | .error e => .error e
  | .ok none => .error (.notFound "memory was not found")
  | .ok (some m) =>
    if m.version ≠ v then .error (.omp .versionConflictError (message m)) else .ok m

/-- The memory found is at the expected version. -/
theorem currentOf_ok {v : Int} {message : Memory R → String}
    {found : Except PyError (Option (Memory R))} {m : Memory R}
    (h : currentOf v message found = .ok m) : found = .ok (some m) ∧ m.version = v := by
  unfold currentOf at h
  split at h
  · cases h
  · cases h
  · split at h
    · cases h
    · rename_i hversion
      obtain rfl := Except.ok.inj h
      exact ⟨rfl, not_not.mp hversion⟩

/-- `currentAt` refuses the owner, or reads the row. -/
inductive Currents (tenant : Option UUID) (encryptor : Option TenantEnvelopeEncryptor) (o : String)
    (i : UUID) (v : Int) (message : Memory R → String) (trace : Trace R) :
    Trace R → Except PyError (Memory R) → Prop
  | refused (e : PyError) : Currents tenant encryptor o i v message trace trace (.error e)
  | read (s : Database R) : Currents tenant encryptor o i v message trace
      (trace ++ [(Statement.selectMemory o i, s)])
      (currentOf v message (readMemory tenant encryptor o i s))

/-- The memory that `currentAt` returns was read from a row at the version. -/
theorem Currents.of_ok {o : String} {i : UUID} {v : Int} {message : Memory R → String}
    {t : Trace R} {m : Memory R}
    (h : Currents tenant encryptor o i v message trace t (.ok m)) :
    ∃ s row, t = trace ++ [(Statement.selectMemory o i, s)] ∧ s.owned tenant o i = some row ∧
      (Session.sequential R tenant encryptor).memoryFromRow i row = .ok m ∧ m.version = v := by
  generalize hr : (Except.ok m : Except PyError (Memory R)) = r at h
  cases h with
  | refused e => cases hr
  | read s =>
    obtain ⟨hread, hversion⟩ := currentOf_ok hr.symm
    obtain ⟨row, hrow, hmemory⟩ := readMemory_some hread
    exact ⟨s, row, rfl, hrow, hmemory.trans hr, hversion⟩

/-- `_current_at` issues the SELECT of `get` and checks the version. -/
theorem meets_currentAt {o : String} {t : Option String} {i : UUID} {v : Int}
    {message : Memory R → String} (hP : P trace (.selectMemory o i)) :
    Meets (fun q => q.run tenant) P (Currents tenant encryptor o i v message trace) trace
      (currentAt (postgresUnitOfWork (Session.interleaved R tenant encryptor)) o t i v
        message) := by
  refine (meets_get hP).bind ?_ ?_
  · intro t' found hget
    generalize hr : (Except.ok found : Except PyError (Option (Memory R))) = r at hget
    cases hget with
    | refused e => cases hr
    | read s =>
      have hs : Currents tenant encryptor o i v message trace _ _ := .read s
      rw [← hr] at hs
      cases found with
      | none => exact meets_throw.mpr hs
      | some m =>
        unfold currentOf at hs
        refine meets_raiseIf_bind ?_ ?_
        · intro hne
          simp only [if_pos (of_decide_eq_true hne)] at hs
          exact hs
        · intro heq
          simp only [if_neg (of_decide_eq_false heq)] at hs
          exact meets_pure.mpr hs
  · intro t' e hget
    generalize hr : (Except.error e : Except PyError (Option (Memory R))) = r at hget
    cases hget with
    | refused e' =>
      exact .refused e
    | read s =>
      have hs : Currents tenant encryptor o i v message trace _ _ := .read s
      rw [← hr] at hs
      exact hs

/-- `forget` refuses the owner, finds no row, or deletes it and leaves a tombstone. -/
inductive Forgets (tenant : Option UUID) (o : String) (i : UUID) (trace : Trace R) :
    Trace R → Except PyError Bool → Prop
  | refused (e : PyError) : Forgets tenant o i trace trace (.error e)
  | absent (s : Database R) (none : s.owned tenant o i = none) :
      Forgets tenant o i trace (trace ++ [(Statement.deleteMemory o i, s)]) (.ok false)
  | deleted (s : Database R) (row : MemoryRow R) (s' : Database R)
      (some : s.owned tenant o i = some row) :
      Forgets tenant o i trace (trace ++ [(Statement.deleteMemory o i, s)] ++
        [(Statement.insertTombstone o i, s')]) (.ok true)

omit [Python R] in
/-- A memory is reported as deleted when a row of its owner was there. -/
theorem Forgets.of_true {o : String} {i : UUID} {t : Trace R} {deleted : Bool}
    (h : Forgets tenant o i trace t (.ok deleted)) (hdeleted : deleted = true) :
    ∃ s row, (Statement.deleteMemory o i, s) ∈ t ∧ s.owned tenant o i = some row := by
  subst hdeleted
  cases h with
  | deleted s row s' some => exact ⟨s, row, by simp, some⟩

/-- `forget` issues the DELETE, and the tombstone when a row was deleted. -/
theorem meets_forget {o : String} {i : UUID} (hP : P trace (.deleteMemory o i))
    (htombstone : ∀ t, P t (.insertTombstone o i)) :
    Meets (fun q => q.run tenant) P (Forgets tenant o i trace) trace
      (PostgresMemoryRepository.forget (Session.interleaved R tenant encryptor) o i) := by
  refine meets_ofExcept_bind (fun e _ => .refused e) fun _ _ => ?_
  refine meets_statement_bind hP fun s (r : Bool) s' hrun => ?_
  simp only [Statement.run] at hrun
  cases hrow : s.owned tenant o i with
  | none =>
    rw [hrow] at hrun
    obtain ⟨rfl, -⟩ := Prod.mk.inj (Except.ok.inj hrun)
    exact meets_pure.mpr (.absent s hrow)
  | some row =>
    rw [hrow] at hrun
    obtain ⟨rfl, -⟩ := Prod.mk.inj (Except.ok.inj hrun)
    refine meets_statement_bind (htombstone _) fun s₂ r₂ s₃ _ => ?_
    exact meets_pure.mpr (.deleted s row s₂ hrow)

omit [Python R] in
theorem meets_validateMutationScope_bind {α : Type}
    {run : (q : Statement R) → Database R → Except PyError (q.Result × Database R)}
    {Φ : Trace R → Except PyError α → Prop} {tenantId ownerId : String} {revoked : Bool}
    {f : Unit → DbProg R α} (herror : ∀ e, Φ trace (.error e))
    (hok : Meets run P Φ trace (f ())) :
    Meets run P Φ trace (validateMutationScope tenantId ownerId revoked >>= f) := by
  have hcheck : Meets run P (fun t _ => t = trace) trace
      (validateMutationScope tenantId ownerId revoked : DbProg R Unit) := by
    refine meets_raiseIf_bind (fun _ => rfl) fun _ => ?_
    refine meets_ofExcept_bind (fun _ _ => rfl) fun _ _ => ?_
    exact meets_raiseIf (fun _ => rfl) fun _ => rfl
  refine hcheck.bind ?_ ?_
  · rintro t a rfl
    exact hok
  · rintro t e rfl
    exact herror e

end Rules

end OpenMemory.Postgres
