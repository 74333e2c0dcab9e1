import OpenMemory.Postgres.Locks

/-!
# Which statements the bodies issue

The ledger is touched by `claim` and `complete` alone: every other method, and every unit of
work that claims no key, issues no statement on `idempotency_operations`. One lemma for each
method, in the order of the source.
-/

namespace OpenMemory.Postgres

open Lib Lib.Prog
open MonadExcept (ofExcept)
open MemoryApplicationService

variable {R : Type} [Python R]

/-- The key that a statement on `idempotency_operations` is about. -/
def Statement.ledgerKey : Statement R → Option OperationKey
  | .selectOperation key => some key
  | .insertOperation key _ => some key
  | .completeOperation key _ _ _ _ => some key
  | _ => none

/-- The program leaves the ledger alone. -/
abbrev LedgerFree {α : Type} (x : DbProg R α) : Prop :=
  Within (fun q : Statement R => q.ledgerKey = none) x

omit [Python R] in
/-- A check issues no statement. -/
theorem within_raiseIf {K : Statement R → Prop} {b : Bool} {e : PyError} :
    Within K (raiseIf b e : DbProg R Unit) := by
  cases b <;> exact within_done

omit [Python R] in
/-- Turning `None` into an exception issues none either. -/
theorem within_orRaise {K : Statement R → Prop} {α : Type} {x : DbProg R α} {error : PyError}
    (hx : Within K x) : Within K (orRaise x error) :=
  hx.handle fun _ => within_throw

variable {tenant : Option UUID} {encryptor : Option TenantEnvelopeEncryptor}

/-- A statement on another table than the ledger. -/
theorem ledgerFree_execute {q : Statement R} (hq : q.ledgerKey = none) :
    LedgerFree ((Session.interleaved R tenant encryptor).execute q) :=
  within_statement hq

/-! ## Repositories -/

section Repository

open PostgresMemoryRepository PostgresMemoryAdminRepository

/-- A claim issues a SELECT and an INSERT on its ledger row. -/
theorem within_claim {K : Statement R → Prop} {o k fp : String} {op : IdempotencyOperationType}
    (hselect : K (.selectOperation (o, op, k))) (hinsert : K (.insertOperation (o, op, k) fp)) :
    Within K (PostgresIdempotencyRepository.claim (Session.interleaved R tenant encryptor) o op k
      fp) := by
  refine (within_statement hselect).bind fun row => ?_
  cases row with
  | some row => exact within_ofExcept
  | none =>
    refine (within_statement hinsert).bind fun (inserted : Bool) => ?_
    exact within_ite within_pure ((within_statement hselect).bind fun _ => within_ofExcept)

/-- Completing it issues an UPDATE on that row. -/
theorem within_complete {K : Statement R → Prop} {claim : IdempotencyClaim} {i : Option UUID}
    {v : Option Int} {status : String}
    (hK : K (.completeOperation (claim.ownerId, claim.operationType, claim.idempotencyKey)
      claim.fingerprint i v status)) :
    Within K (PostgresIdempotencyRepository.complete (Session.interleaved R tenant encryptor) claim
      i v status) :=
  (within_statement hK).bind fun _ => within_raiseIf

/-- Reading a memory issues one SELECT. -/
theorem within_get {K : Statement R → Prop} {o : String} {i : UUID} (hK : K (.selectMemory o i)) :
    Within K (get (Session.interleaved R tenant encryptor) o i) := by
  refine within_ofExcept.bind fun _ => (within_statement hK).bind fun row => ?_
  cases row with
  | none => exact within_pure
  | some row => exact within_ofExcept.map

/-- The ledger is not read for it. -/
theorem ledgerFree_get (o : String) (i : UUID) :
    LedgerFree (get (Session.interleaved R tenant encryptor) o i) :=
  within_get rfl

/-- Reading a version issues two. -/
theorem within_getVersion {K : Statement R → Prop} {o : String} {i : UUID} {v : Int}
    (hmemory : K (.selectMemory o i)) (hversion : K (.selectVersion o i v)) :
    Within K (getVersion (Session.interleaved R tenant encryptor) o i v) := by
  refine (within_get hmemory).bind fun current => ?_
  cases current with
  | none => exact within_pure
  | some current =>
    refine within_ite within_pure ((within_statement hversion).bind fun row => ?_)
    cases row with
    | none => exact within_pure
    | some row => exact within_ofExcept.bind fun _ => within_ofExcept.map

theorem ledgerFree_findByIdempotencyKey (o k : String) :
    LedgerFree (findByIdempotencyKey (Session.interleaved R tenant encryptor) o k) := by
  refine within_ofExcept.bind fun _ => (ledgerFree_execute rfl).bind fun row => ?_
  cases row with
  | none => exact within_pure
  | some row => exact within_ofExcept.bind fun _ => within_pure

/-- Creating a memory does not touch the ledger. -/
theorem ledgerFree_create (memory : Memory R) (fp : String) (vector : List R) :
    LedgerFree (create (Session.interleaved R tenant encryptor) memory fp vector) := by
  refine within_ofExcept.bind fun _ => within_ofExcept.bind fun row => ?_
  refine (within_orRaise (ledgerFree_execute rfl)).bind fun (inserted : Bool) => within_ite ?_ ?_
  · exact within_ofExcept.bind fun _ => within_ofExcept.bind fun _ =>
      (ledgerFree_execute rfl).bind fun _ => within_ofExcept.bind fun _ =>
        (ledgerFree_execute rfl).bind fun _ => within_pure
  · refine (ledgerFree_findByIdempotencyKey _ _).bind fun prior => ?_
    cases prior with
    | none => exact within_throw
    | some prior => exact within_raiseIf.bind fun _ => within_pure

/-- Nor does updating one. -/
theorem ledgerFree_update (memory : Memory R) (v : Int) (snapshot : MemoryVersion R)
    (vector : List R) :
    LedgerFree (update (Session.interleaved R tenant encryptor) memory v snapshot vector) := by
  refine within_ofExcept.bind fun _ => within_ofExcept.bind fun row =>
    (ledgerFree_execute rfl).bind fun (rowcount : Nat) => within_ite ?_ ?_
  · exact (ledgerFree_get _ _).bind fun _ => within_raiseIf.bind fun _ => within_throw.bind fun _ =>
      within_ofExcept.bind fun _ => (ledgerFree_execute rfl).bind fun _ => within_ofExcept.bind
        fun _ => within_ofExcept.bind fun _ => (ledgerFree_execute rfl).bind fun _ => within_pure
  · exact within_ofExcept.bind fun _ => (ledgerFree_execute rfl).bind fun _ => within_ofExcept.bind
      fun _ => within_ofExcept.bind fun _ => (ledgerFree_execute rfl).bind fun _ => within_pure

/-- Nor does a search. -/
theorem ledgerFree_searchCandidates (o : String) (query : List R) (profile : EmbeddingProfile)
    (filters : SearchFilters R) (limit : Int) :
    LedgerFree (searchCandidates (Session.interleaved R tenant encryptor) o query profile filters
      limit) :=
  within_ofExcept.bind fun _ => within_ofExcept.bind fun _ => (ledgerFree_execute rfl).bind fun _ =>
    within_ofExcept

/-- Nor does removing a memory and what belongs to it. -/
theorem ledgerFree_forget (o : String) (i : UUID) :
    LedgerFree (PostgresMemoryRepository.forget (Session.interleaved R tenant encryptor) o i) :=
  within_ofExcept.bind fun _ => (ledgerFree_execute rfl).bind fun (_ : Bool) =>
    within_ite ((ledgerFree_execute rfl).bind fun _ => within_pure) within_pure

theorem ledgerFree_listCandidates (o : String) (space : Option String) (limit : Int) :
    LedgerFree (listCandidates (Session.interleaved R tenant encryptor) o space limit) :=
  within_ofExcept.bind fun _ => (ledgerFree_execute rfl).bind fun _ => within_ofExcept

/-- Adding a relation looks for both memories and inserts one row. -/
theorem within_addRelation {K : Statement R → Prop} {relation : Relation}
    (hmemory : ∀ o i, K (.selectMemory o i)) (hinsert : K (.insertRelation false relation)) :
    Within K (addRelation (Session.interleaved R tenant encryptor) relation) :=
  within_ofExcept.bind fun _ => (within_get (hmemory _ _)).bind fun _ =>
    (within_get (hmemory _ _)).bind fun _ => within_raiseIf.bind fun _ =>
      (within_orRaise (within_statement hinsert)).bind fun _ => within_pure

theorem ledgerFree_addRelation (relation : Relation) :
    LedgerFree (addRelation (Session.interleaved R tenant encryptor) relation) :=
  within_addRelation (fun _ _ => rfl) rfl

theorem ledgerFree_listRelations (o : String) (i : UUID) :
    LedgerFree (listRelations (Session.interleaved R tenant encryptor) o i) :=
  within_ofExcept.bind fun _ => ledgerFree_execute rfl

theorem ledgerFree_history (o : String) (i : UUID) :
    LedgerFree (history (Session.interleaved R tenant encryptor) o i) :=
  within_ofExcept.bind fun _ => (ledgerFree_get _ _).bind fun _ => within_raiseIf.bind fun _ =>
    (ledgerFree_execute rfl).bind fun _ => within_ofExcept

/-- A cut-over does not touch the ledger. -/
theorem ledgerFree_cutoverEmbeddingProfile (o : String) (profile : EmbeddingProfile) :
    LedgerFree (cutoverEmbeddingProfile (Session.interleaved R tenant encryptor) o profile) := by
  have hcoverage : LedgerFree (semanticCoverage (Session.interleaved R tenant encryptor) o
      profile) :=
    within_ofExcept.bind fun _ => (ledgerFree_execute rfl).bind fun _ =>
      (ledgerFree_execute rfl).bind fun _ => within_pure
  exact within_ofExcept.bind fun _ => hcoverage.bind fun _ => within_raiseIf.bind fun _ =>
    ledgerFree_execute rfl

/-- Nor does rewrapping. -/
theorem ledgerFree_rewrapEnvelopes (keyVersion : Int) :
    LedgerFree (rewrapEnvelopes (Session.interleaved R tenant encryptor) keyVersion) := by
  have hmemories : ∀ rows : List (UUID × MemoryRow R), LedgerFree (rewrapMemories
      (Session.interleaved R tenant encryptor) keyVersion rows) := by
    intro rows
    induction rows with
    | nil => exact within_pure
    | cons row rest ih =>
      unfold rewrapMemories
      split
      · exact ih
      · exact within_ofExcept.bind fun _ => within_ofExcept.bind fun _ =>
          (ledgerFree_execute rfl).bind fun _ => ih.bind fun _ => within_pure
  have hversions : ∀ rows : List ((UUID × Int) × VersionRow R), LedgerFree (rewrapVersions
      (Session.interleaved R tenant encryptor) keyVersion rows) := by
    intro rows
    induction rows with
    | nil => exact within_pure
    | cons row rest ih =>
      unfold rewrapVersions
      split
      · exact ih
      · exact within_ofExcept.bind fun _ => within_ofExcept.bind fun _ =>
          (ledgerFree_execute rfl).bind fun _ => ih
  exact within_raiseIf.bind fun _ => within_raiseIf.bind fun _ => within_raiseIf.bind fun _ =>
    (ledgerFree_execute rfl).bind fun _ => (hmemories _).bind fun _ =>
      (ledgerFree_execute rfl).bind fun _ => (hversions _).bind fun _ => within_pure

theorem ledgerFree_isTombstoned (o : String) (i : UUID) :
    LedgerFree (isTombstoned (Session.interleaved R tenant encryptor) o i) :=
  within_ofExcept.bind fun _ => ledgerFree_execute rfl

theorem ledgerFree_exportMemory (o : String) (i : UUID) (includeEmbeddings : Bool) :
    LedgerFree (exportMemory (Session.interleaved R tenant encryptor) o i includeEmbeddings) := by
  have hvector : ∀ memory : Memory R, LedgerFree (exportVector
      (Session.interleaved R tenant encryptor) i memory includeEmbeddings) := by
    intro memory
    unfold exportVector
    cases includeEmbeddings with
    | false => exact within_pure
    | true =>
      dsimp only
      split
      · exact within_throw
      · exact within_ofExcept.bind fun _ => ledgerFree_execute rfl
  refine within_ofExcept.bind fun _ => (ledgerFree_execute rfl).bind fun row => ?_
  cases row with
  | none => exact within_pure
  | some row =>
    exact within_ofExcept.bind fun _ => (hvector _).bind fun _ => (ledgerFree_history _ _).bind
      fun _ => (ledgerFree_listRelations _ _).bind fun _ => within_pure

/-- Nor does an export. -/
theorem ledgerFree_exportMemories (o : String) (includeEmbeddings : Bool) :
    LedgerFree (PostgresMemoryAdminRepository.exportMemories
      (Session.interleaved R tenant encryptor) o includeEmbeddings) := by
  refine within_ofExcept.bind fun _ => (ledgerFree_execute rfl).bind fun ids => ?_
  induction (ids : List UUID) with
  | nil => exact within_pure
  | cons i rest ih => exact (ledgerFree_exportMemory _ _ _).bind fun _ => ih.bind fun _ => within_pure

/-- An imported record comes without entries in the ledger. -/
theorem ledgerFree_importRecord (record : MemoryRecordDto R) :
    LedgerFree (importRecord (Session.interleaved R tenant encryptor) record) := by
  have hrows : ∀ vector : List R, LedgerFree (importRows (Session.interleaved R tenant encryptor)
      record vector) := by
    intro vector
    exact within_ofExcept.bind fun _ => within_ofExcept.bind fun _ =>
      (ledgerFree_execute rfl).bind fun _ => within_ofExcept.bind fun _ =>
        (ledgerFree_execute rfl).bind fun _ => within_pure
  refine within_ofExcept.bind fun _ => (ledgerFree_isTombstoned _ _).bind fun _ =>
    within_raiseIf.bind fun _ => within_ofExcept.bind fun row =>
      (within_orRaise (ledgerFree_execute rfl)).bind fun (inserted : Bool) => within_ite ?_ ?_
  · cases record.embedding with
    | none => exact within_throw
    | some embedding => exact (within_orRaise (hrows embedding)).bind fun _ => within_pure
  · exact (ledgerFree_get _ _).bind fun _ => within_raiseIf.bind fun _ => within_pure

/-- So does a package of them. -/
theorem ledgerFree_importMemories (records : List (MemoryRecordDto R)) :
    LedgerFree (PostgresMemoryAdminRepository.importMemories
      (Session.interleaved R tenant encryptor) records) := by
  have hrecords : LedgerFree (importRecords (Session.interleaved R tenant encryptor) records) := by
    induction records with
    | nil => exact within_pure
    | cons record rest ih =>
      exact (ledgerFree_importRecord record).bind fun _ => ih.bind fun _ => within_pure
  have hrelations : ∀ (relations : List Relation) (seen : List RelationKey), LedgerFree
      (importRelations (Session.interleaved R tenant encryptor) seen relations) := by
    intro relations
    induction relations with
    | nil => exact fun _ => within_pure
    | cons relation rest ih =>
      intro seen
      unfold importRelations
      exact within_ite (ih _) ((ledgerFree_execute rfl).bind fun _ => ih _)
  exact hrecords.bind fun _ => (hrelations _ _).bind fun _ => within_pure

/-- A batch of re-embedding does not touch the ledger. -/
theorem ledgerFree_batch (provider : EmbeddingProvider R) (o : String) (cursor : Option UUID)
    (batchSize : Int) (dryRun : Bool) :
    LedgerFree (EmbeddingReembeddingJob.batch provider (Session.interleaved R tenant encryptor) o
      cursor batchSize dryRun) := by
  have hupsert : ∀ (i : UUID) (v : Int) (vector : List R), LedgerFree (upsertEmbeddingProfile
      (Session.interleaved R tenant encryptor) i v provider.profile vector) := by
    intro i v vector
    exact within_raiseIf.bind fun _ => (ledgerFree_execute rfl).bind fun (_ : Bool) =>
      within_ite ((ledgerFree_execute rfl).bind fun _ => within_pure) within_pure
  have hall : ∀ memories : List (Memory R), LedgerFree (EmbeddingReembeddingJob.reembedAll provider
      (Session.interleaved R tenant encryptor) memories) := by
    intro memories
    induction memories with
    | nil => exact within_pure
    | cons memory rest ih =>
      refine Within.bind (Within.handle ?_ fun _ => within_pure) fun _ => ih.bind fun _ => within_pure
      exact within_ofExcept.bind fun _ => within_raiseIf.bind fun _ => (hupsert _ _ _).bind fun _ =>
        within_pure
  refine within_ofExcept.bind fun _ => within_raiseIf.bind fun _ => within_raiseIf.bind fun _ => ?_
  refine Within.bind ?_ fun candidates => within_ite within_pure (hall candidates)
  exact within_ofExcept.bind fun _ => (ledgerFree_execute rfl).bind fun _ => within_ofExcept

end Repository

/-! ## Services -/

section Services

omit [Python R] in
/-- Embedding a text issues no statement. -/
theorem within_embedChecked {K : Statement R → Prop} {svc : MemoryApplicationService R}
    {text : String} {query : Bool} : Within K (svc.embedChecked text query : DbProg R (List R)) :=
  within_ofExcept.bind fun _ => within_raiseIf.bind fun _ => within_pure

/-- A new write is found again by its key on the memory, not by the ledger. -/
theorem ledgerFree_writeNew (svc : MemoryApplicationService R) (c : WriteMemoryCommand R)
    (at_ : DateTime) (fp : String) :
    LedgerFree (svc.writeNew (postgresUnitOfWork (Session.interleaved R tenant encryptor)) c at_
      fp) :=
  within_embedChecked.bind fun _ => within_ofExcept.bind fun _ => within_ofExcept.bind fun _ =>
    ledgerFree_create _ _ _

/-- So `write` does not touch the ledger. -/
theorem ledgerFree_write (svc : MemoryApplicationService R) (c : WriteMemoryCommand R) :
    LedgerFree (svc.write (postgresUnitOfWork (Session.interleaved R tenant encryptor)) c) := by
  refine within_ofExcept.bind fun _ => within_ofExcept.bind fun at_ => ?_
  dsimp only
  cases truthyKey c.idempotencyKey with
  | none => exact ledgerFree_writeNew _ _ _ _
  | some key =>
    refine (ledgerFree_findByIdempotencyKey _ _).bind fun prior => ?_
    cases prior with
    | none => exact ledgerFree_writeNew _ _ _ _
    | some prior => exact within_raiseIf.bind fun _ => within_pure

/-- Nor does `capture`. -/
theorem ledgerFree_capture (svc : MemoryApplicationService R) (c : CaptureMemoryCommand R) :
    LedgerFree (svc.capture (postgresUnitOfWork (Session.interleaved R tenant encryptor)) c) := by
  have hvalid : LedgerFree (validateCapture c : DbProg R Unit) :=
    within_raiseIf.bind fun _ => within_raiseIf.bind fun _ => within_raiseIf.bind fun _ =>
      within_ofExcept.bind fun _ => within_raiseIf.bind fun _ => within_raiseIf.bind fun _ =>
        within_raiseIf.bind fun _ => within_raiseIf.bind fun _ => within_raiseIf.bind fun _ =>
          within_raiseIf
  refine hvalid.bind fun _ => (ledgerFree_findByIdempotencyKey _ _).bind fun prior => ?_
  cases prior with
  | some prior => exact within_raiseIf.bind fun _ => within_pure
  | none =>
    exact within_embedChecked.bind fun _ => within_ofExcept.bind fun _ => within_ofExcept.bind
      fun _ => within_ofExcept.bind fun _ => ledgerFree_create _ _ _

theorem ledgerFree_listInbox (c : ListInboxCommand) :
    LedgerFree (listInbox (postgresUnitOfWork (Session.interleaved R tenant encryptor)) c) :=
  within_raiseIf.bind fun _ => within_raiseIf.bind fun _ => within_ofExcept.bind fun _ =>
    within_raiseIf.bind fun _ => within_raiseIf.bind fun _ => (ledgerFree_listCandidates _ _ _).bind
      fun _ => within_pure

/-- A replay reads a memory and its version. -/
theorem within_replayVersion {K : Statement R → Prop} {o : String} {t : Option String}
    {claim : IdempotencyClaim} {i : UUID} {v : Int} (hmemory : ∀ i, K (.selectMemory o i))
    (hversion : ∀ i v, K (.selectVersion o i v)) :
    Within K (replayVersion (postgresUnitOfWork (Session.interleaved R tenant encryptor)) o t claim
      i v) := by
  refine (within_getVersion (hmemory _) (hversion _ _)).bind fun replay => ?_
  cases replay with
  | none => exact within_throw
  | some memory => exact within_pure

/-- The check on the current version reads the memory. -/
theorem within_currentAt {K : Statement R → Prop} {o : String} {t : Option String} {i : UUID}
    {v : Int} {message : Memory R → String} (hK : K (.selectMemory o i)) :
    Within K (currentAt (postgresUnitOfWork (Session.interleaved R tenant encryptor)) o t i v
      message) := by
  refine (within_get hK).bind fun current => ?_
  cases current with
  | none => exact within_throw
  | some current => exact within_raiseIf.bind fun _ => within_pure

theorem ledgerFree_currentAt (o : String) (t : Option String) (i : UUID) (v : Int)
    (message : Memory R → String) :
    LedgerFree (currentAt (postgresUnitOfWork (Session.interleaved R tenant encryptor)) o t i v
      message) :=
  within_currentAt rfl

/-- Recalling does not touch the ledger. -/
theorem ledgerFree_recall (svc : MemoryApplicationService R) (c : RecallMemoryCommand R) :
    LedgerFree (svc.recall (postgresUnitOfWork (Session.interleaved R tenant encryptor)) c) := by
  have hvalid : LedgerFree (validateRecall c : DbProg R Unit) :=
    within_raiseIf.bind fun _ => within_raiseIf.bind fun _ => within_ofExcept.bind fun _ =>
      within_raiseIf.bind fun _ => within_raiseIf.bind fun _ => within_raiseIf.bind fun _ =>
        within_raiseIf.bind fun _ => within_raiseIf
  have hcandidates : ∀ (query : List R) (spaces : List (Option String)), LedgerFree
      (svc.recallCandidates (postgresUnitOfWork (Session.interleaved R tenant encryptor)) c query
        spaces) := by
    intro query spaces
    induction spaces with
    | nil => exact within_pure
    | cons space rest ih =>
      exact (ledgerFree_searchCandidates _ _ _ _ _).bind fun _ => ih.bind fun _ => within_pure
  exact hvalid.bind fun _ => within_embedChecked.bind fun _ => (hcandidates _ _).bind fun _ =>
    within_pure

theorem ledgerFree_search (svc : MemoryApplicationService R) (c : SearchMemoryCommand R) :
    LedgerFree (svc.search (postgresUnitOfWork (Session.interleaved R tenant encryptor)) c) :=
  within_ofExcept.bind fun _ => within_raiseIf.bind fun _ => within_raiseIf.bind fun _ =>
    within_raiseIf.bind fun _ => within_raiseIf.bind fun _ => within_embedChecked.bind fun _ =>
      (ledgerFree_searchCandidates _ _ _ _ _).bind fun _ => within_ofExcept.bind fun _ => within_pure

/-- Checking a relation reads the memory at its end. -/
theorem within_checkRelated {K : Statement R → Prop} {o : String} {current : Memory R}
    {related : Option (RelationType × UUID)} (hmemory : ∀ o i, K (.selectMemory o i)) :
    Within K (checkRelated (postgresUnitOfWork (Session.interleaved R tenant encryptor)) o current
      related) := by
  cases related with
  | none => exact within_pure
  | some target =>
    exact within_raiseIf.bind fun _ => (within_get (hmemory _ _)).bind fun _ => within_raiseIf

/-- Storing it reads the memories at both ends and inserts one row. -/
theorem within_storeRelation {K : Statement R → Prop} {svc : MemoryApplicationService R}
    {o : String} {i : UUID} {related : Option (RelationType × UUID)}
    (hmemory : ∀ o i, K (.selectMemory o i))
    (hinsert : ∀ relation, K (.insertRelation false relation)) :
    Within K (svc.storeRelation (postgresUnitOfWork (Session.interleaved R tenant encryptor)) o i
      related) := by
  cases related with
  | none => exact within_pure
  | some target =>
    exact within_ofExcept.bind fun _ => within_ofExcept.bind fun _ =>
      (within_addRelation hmemory (hinsert _)).bind fun _ => within_pure

/-- The body of an update runs between the claim and its completion, and leaves both alone. -/
theorem ledgerFree_updateBody (svc : MemoryApplicationService R) (c : UpdateMemoryCommand R) :
    LedgerFree (svc.updateBody (postgresUnitOfWork (Session.interleaved R tenant encryptor)) c) :=
  (ledgerFree_currentAt _ _ _ _ _).bind fun _ => within_ofExcept.bind fun _ =>
    within_raiseIf.bind fun _ => (within_checkRelated fun _ _ => rfl).bind fun _ =>
      within_ofExcept.bind fun _ => within_ofExcept.bind fun _ => within_embedChecked.bind fun _ =>
        (ledgerFree_update _ _ _ _).bind fun _ =>
          (within_storeRelation (fun _ _ => rfl) fun _ => rfl).bind fun _ => within_pure

/-- `relate` does not touch the ledger. -/
theorem ledgerFree_relate (svc : MemoryApplicationService R) (c : RelateMemoriesCommand) :
    LedgerFree (svc.relate (postgresUnitOfWork (Session.interleaved R tenant encryptor)) c) := by
  refine within_ofExcept.bind fun _ => ?_
  cases RelationType.ofValue c.relationType with
  | none => exact within_throw
  | some relationType =>
    refine within_raiseIf.bind fun _ => (ledgerFree_get _ _).bind fun source =>
      (ledgerFree_get _ _).bind fun target => ?_
    cases source with
    | none => exact within_throw
    | some source =>
      cases target with
      | none => exact within_throw
      | some target =>
        exact within_ofExcept.bind fun _ => within_ofExcept.bind fun _ => ledgerFree_addRelation _

/-- An import by the service does not touch the ledger. -/
theorem ledgerFree_serviceImport (svc : MemoryApplicationService R) (o : String)
    (records : List (MemoryRecordDto R)) :
    LedgerFree (svc.importMemories (postgresUnitOfWork (Session.interleaved R tenant encryptor)) o
      records) := by
  have hendpoints : ∀ ids endpoints : List UUID, LedgerFree (checkEndpoints
      (postgresUnitOfWork (Session.interleaved R tenant encryptor)) o ids endpoints) := by
    intro ids endpoints
    induction endpoints with
    | nil => exact within_pure
    | cons endpoint rest ih =>
      unfold checkEndpoints
      exact within_ite ih ((ledgerFree_get _ _).bind fun _ => within_raiseIf.bind fun _ => ih)
  have hexisting : LedgerFree (existingRecords
      (postgresUnitOfWork (Session.interleaved R tenant encryptor)) o records) := by
    induction records with
    | nil => exact within_pure
    | cons record rest ih =>
      refine (ledgerFree_exportMemory _ _ _).bind fun current => ?_
      cases current with
      | none =>
        exact (ledgerFree_isTombstoned _ _).bind fun _ => within_raiseIf.bind fun _ => ih
      | some current => exact within_raiseIf.bind fun _ => ih.bind fun _ => within_pure
  have hprepared : ∀ existing : List UUID, LedgerFree
      (svc.prepareRecords existing records : DbProg R (List (MemoryRecordDto R))) := by
    intro existing
    clear hexisting
    induction records with
    | nil => exact within_pure
    | cons record rest ih =>
      unfold prepareRecords
      refine within_ite (ih.bind fun _ => within_pure) ?_
      cases record.memory.embedding with
      | none => exact within_throw
      | some descriptor =>
        exact within_ofExcept.bind fun _ => within_raiseIf.bind fun _ => within_embedChecked.bind
          fun _ => ih.bind fun _ => within_pure
  exact within_ofExcept.bind fun _ => within_ofExcept.bind fun _ => (hendpoints _ _).bind fun _ =>
    hexisting.bind fun _ => (hprepared _).bind fun _ => ledgerFree_importMemories _

end Services

end OpenMemory.Postgres
