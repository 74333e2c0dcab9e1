import OpenMemory.Postgres.Bodies
import OpenMemory.Postgres.Staleness

/-!
# The index is not ahead of the memories

Along every run of transactions, one after another, each row of `memory_embeddings_semantic`
belongs to a memory and has a source version that is not above the memory's (`bounded_afterAll`).
A row is inserted together with its memory or upserted right after a check of the version; the
`UPDATE` of a memory raises the version by one before the row is rewritten with it; a deletion
takes the rows along.
-/

namespace OpenMemory.Postgres

open Lib
open MonadExcept (ofExcept)
open MemoryApplicationService PostgresMemoryRepository

variable {R : Type} [Python R]

namespace Database

/-- No row of the index is ahead of its memory. -/
def Bounded (db : Database R) : Prop :=
  ∀ k e, db.semantic.get? k = some e →
    ∃ row, db.memories.get? k.1 = some row ∧ e.sourceVersion ≤ row.version

/-- The step keeps the index within its bounds. -/
def KeepsBounded (db db' : Database R) : Prop := db.Bounded → db'.Bounded

instance : IsTrans (Database R) KeepsBounded := ⟨fun _ _ _ h h' hdb => h' (h hdb)⟩

instance : Std.Refl (KeepsBounded (R := R)) := ⟨fun _ hdb => hdb⟩

omit [Python R] in
/-- An empty database is bounded. -/
theorem bounded_empty : ({} : Database R).Bounded := by
  intro k e he
  rw [Dict.get?_empty] at he
  cases he

omit [Python R] in
/-- Bounds speak of the index tables alone. -/
theorem Bounded.congr {db db' : Database R} (hindex : db'.index = db.index) :
    db.KeepsBounded db' := by
  intro h k e he
  obtain ⟨hmemories, hrest⟩ := Prod.mk.inj hindex
  rw [(Prod.mk.inj hrest).2] at he
  rw [hmemories]
  exact h k e he

omit [Python R] in
/-- Memories may change as long as their versions do not fall. -/
theorem Bounded.mono {db db' : Database R} (hsemantic : db'.semantic = db.semantic)
    (hmemories : ∀ i row, db.memories.get? i = some row →
      ∃ row', db'.memories.get? i = some row' ∧ row.version ≤ row'.version) :
    db.KeepsBounded db' := by
  intro h k e he
  rw [hsemantic] at he
  obtain ⟨row, hrow, hle⟩ := h k e he
  obtain ⟨row', hrow', hle'⟩ := hmemories k.1 row hrow
  exact ⟨row', hrow', hle.trans hle'⟩

omit [Python R] in
/-- The rows of one memory may be replaced by a row at the memory's version. -/
theorem Bounded.set {db db' : Database R} {k : SemanticKey} {row : MemoryRow R}
    (hmemories : db'.memories = db.memories) (hrow : db.memories.get? k.1 = some row)
    (hsemantic : ∀ k' e', db'.semantic.get? k' = some e' →
      (k' = k ∧ e'.sourceVersion = row.version) ∨ db.semantic.get? k' = some e') :
    db.KeepsBounded db' := by
  intro h k' e' he'
  rw [hmemories]
  rcases hsemantic k' e' he' with ⟨rfl, hsource⟩ | hold
  · exact ⟨row, hrow, le_of_eq hsource⟩
  · exact h k' e' hold

omit [Python R] in
/-- Deleting a memory deletes what belongs to it. -/
theorem Bounded.deleteMemory (db : Database R) (i : UUID) : db.KeepsBounded (db.deleteMemory i) := by
  intro h k e he
  have hkept : (db.semantic.filter fun key _ => decide (key.1 ≠ i)).get? k = some e := he
  rw [Dict.get?_filter] at hkept
  obtain ⟨hold, hne⟩ := Option.filter_eq_some_iff.mp hkept
  obtain ⟨row, hrow, hle⟩ := h k e hold
  refine ⟨row, ?_, hle⟩
  show (db.memories.pop i).get? k.1 = some row
  rw [Dict.get?_pop_of_ne _ (of_decide_eq_true hne)]
  exact hrow

end Database

/-! ## Repositories -/

section Bodies

variable {tenant : Option UUID} {encryptor : Option TenantEnvelopeEncryptor} {db db' : Database R}

/-- The body keeps the index within its bounds. -/
abbrev Bounds {α : Type} (x : DbTxn R α) : Prop := Txn.Along Database.KeepsBounded x

omit [Python R] in
/-- What keeps the index keeps the bounds. -/
theorem bounds_of_keeps {α : Type} {x : DbTxn R α} (h : Txn.Keeps Database.index x) : Bounds x :=
  fun db a db' hrun => Database.Bounded.congr (h db a db' hrun)

omit [Python R] in
/-- A check changes nothing. -/
theorem bounds_raiseIf (b : Bool) (e : PyError) : Bounds (raiseIf b e : DbTxn R Unit) :=
  bounds_of_keeps (keeps_raiseIf b e)

/-- A memory that is inserted comes with an embedding of its own version. -/
theorem bounded_inserted {memory : Memory R} {vector : List R}
    (h : Inserted (Session.sequential R tenant encryptor) memory vector db db') :
    db.KeepsBounded db' := by
  intro hdb
  obtain ⟨habsent, ⟨fingerprint, row, hrow, hmemories⟩, table, values, -, hvalues, hcases⟩ := h
  -- the row that is inserted has the version of the memory
  have hself : db'.memories.get? memory.id = some row := by rw [hmemories, Dict.get?_set_self]
  -- older entries belong to older memories
  have hother : ∀ k e, db.semantic.get? k = some e →
      ∃ row', db'.memories.get? k.1 = some row' ∧ e.sourceVersion ≤ row'.version := by
    intro k e he
    obtain ⟨old, hold, hle⟩ := hdb k e he
    refine ⟨old, ?_, hle⟩
    rw [hmemories, Dict.get?_set_of_ne _ _ ?_]
    · exact hold
    · intro heq
      rw [heq, habsent] at hold
      cases hold
  -- the entry goes to the hash table or to the semantic one
  rcases hcases with ⟨-, -, hsemantic⟩ | ⟨-, -, v, hv, hsemantic⟩
  · intro k e he
    rw [hsemantic] at he
    exact hother k e he
  · intro k e he
    rw [hsemantic, Dict.get?_set] at he
    split at he
    · rename_i hkey
      obtain rfl := Option.some.inj he
      obtain ⟨d, -, rfl⟩ := embeddingValues_eq hvalues
      refine ⟨row, ?_, ?_⟩
      · rw [hkey]
        exact hself
      · dsimp only at hv
        split at hv
        · obtain rfl := Option.some.inj hv
          exact le_of_eq (memoryValues_ok hrow).2.symm
        · cases hv
    · exact hother k e he

/-- A memory that is updated moves on by one version, and its embedding with it. -/
theorem bounded_updated {memory : Memory R} {v : Int} {vector : List R} {old row : MemoryRow R}
    {table : EmbeddingTable} {values : EmbeddingValues R} {db₁ : Database R}
    (h : Updated (Session.sequential R tenant encryptor) memory v vector db old row table values db₁
      db') (hnext : memory.version = v + 1) : db.KeepsBounded db' := by
  obtain ⟨hget, -⟩ := get?_of_owned h.owned
  have hversion : row.version = memory.version := (memoryValues_ok h.encoded).2
  obtain ⟨hmemories₁, -, hsemantic₁⟩ := h.stored
  obtain ⟨hmemories, hcases⟩ := updateEmbedding_ok h.embedded
  have hself : db₁.memories.get? memory.id =
      some { old with toMemoryValues := row.toMemoryValues } := by
    rw [hmemories₁, Dict.get?_set_self]
  -- the row of the memory gets a later version
  have hfirst : db.KeepsBounded db₁ := by
    refine Database.Bounded.mono hsemantic₁ fun i row' hrow' => ?_
    rw [hmemories₁, Dict.get?_set]
    split
    · rename_i hi
      rw [hi, hget] at hrow'
      obtain rfl := Option.some.inj hrow'
      refine ⟨_, rfl, ?_⟩
      show old.version ≤ row.version
      have := h.version
      omega
    · exact ⟨row', hrow', le_refl _⟩
  refine fun hdb => ?_
  have hbounded := hfirst hdb
  cases hcases with
  -- no entry is written
  | hashNone _ _ hsemantic | hashRow _ _ _ hsemantic | semanticNone _ _ hsemantic =>
    refine Database.Bounded.mono hsemantic (fun i row' hrow' => ⟨row', ?_, le_refl _⟩) hbounded
    rw [hmemories]
    exact hrow'
  -- the entry has the version of the memory
  | semanticRow key e _ _ hsemantic =>
    obtain ⟨d, hd, rfl⟩ := embeddingValues_eq h.described
    have hdimension : d.dimension = 384 := by
      have hchosen := h.chosen
      unfold tableOf at hchosen
      rw [hd] at hchosen
      exact embeddingTable_semantic hchosen
    simp only [hdimension, if_true, Option.getD_some] at hsemantic
    refine Database.Bounded.set (k := (memory.id, d.profileId, d.profileVersion)) hmemories hself
      (fun k' e' he' => ?_) hbounded
    rw [hsemantic, Dict.get?_set] at he'
    split at he'
    · rename_i hkey
      obtain rfl := Option.some.inj he'
      exact .inl ⟨hkey, hversion.symm⟩
    · rw [Dict.get?_pop] at he'
      split at he'
      · cases he'
      · exact .inr he'

/-- So `create` keeps the bounds. -/
theorem bounds_create (memory : Memory R) (fp : String) (vector : List R) :
    Bounds (create (Session.sequential R tenant encryptor) memory fp vector) := by
  intro db r db' h
  rcases create_ok h with hinserted | hindex
  · exact bounded_inserted hinserted
  · exact .congr hindex

/-- So does `update`, to the next version. -/
theorem bounds_update {memory : Memory R} {v : Int} (hnext : memory.version = v + 1)
    (snapshot : MemoryVersion R) (vector : List R) :
    Bounds (update (Session.sequential R tenant encryptor) memory v snapshot vector) := by
  intro db r db' h
  obtain ⟨-, old, row, table, values, db₁, hup⟩ := update_ok h
  exact bounded_updated hup hnext

/-- The next version of a memory keeps the bounds. -/
theorem bounded_nextVersion {svc : MemoryApplicationService R} {i : UUID} {v : Int}
    {args : Memory.EvolveArgs R} {m r : Memory R}
    (h : NextVersion svc (Session.sequential R tenant encryptor) i v args m r db db') :
    db.KeepsBounded db' := by
  obtain ⟨vector, old, row, table, values, db₁, db₂, db₃, -, hbefore, hup, hafter⟩ := h.stored
  have hversion : r.version = v + 1 := by rw [h.evolved.version, h.version]
  intro hdb
  exact .congr hafter (bounded_updated hup hversion (.congr hbefore hdb))

/-- Removing a memory keeps them. -/
theorem bounds_forget (o : String) (i : UUID) :
    Bounds (PostgresMemoryRepository.forget (Session.sequential R tenant encryptor) o i) := by
  refine .ofExcept_bind fun _ _ => .bind ?_ fun (deleted : Bool) => ?_
  · intro db r db' h
    replace h : Statement.run tenant (.deleteMemory o i) db = .ok (r, db') := h
    unfold Statement.run at h
    dsimp only at h
    split at h
    · obtain ⟨-, rfl⟩ := Prod.mk.inj (Except.ok.inj h)
      exact fun hdb => hdb
    · obtain ⟨-, rfl⟩ := Prod.mk.inj (Except.ok.inj h)
      exact .deleteMemory db i
  · cases deleted with
    | false => exact .pure _
    | true => exact (bounds_of_keeps (keeps_execute rfl)).bind fun _ => .pure _

/-- Claims are stored outside of the index. -/
theorem keeps_claim (o : String) (op : IdempotencyOperationType) (k fp : String) :
    Txn.Keeps Database.index (PostgresIdempotencyRepository.claim
      (Session.sequential R tenant encryptor) o op k fp) := by
  refine (keeps_execute rfl).bind fun row => ?_
  cases row with
  | some row => exact .ofExcept _
  | none =>
    refine (keeps_execute rfl).bind fun (inserted : Bool) => ?_
    cases inserted with
    | true => exact .pure _
    | false => exact (keeps_execute rfl).bind fun _ => .ofExcept _

/-- The check on the current version keeps it. -/
theorem keeps_currentAt (o : String) (t : Option String) (i : UUID) (v : Int)
    (message : Memory R → String) :
    Txn.Keeps Database.index (currentAt (postgresUnitOfWork (Session.sequential R tenant encryptor))
      o t i v message) :=
  fun _ _ _ h => (currentAt_ok h).2.2

/-- Imported records come with embeddings of their versions. -/
theorem bounds_importRecords (records : List (MemoryRecordDto R)) :
    Bounds (PostgresMemoryAdminRepository.importRecords (Session.sequential R tenant encryptor)
      records) := by
  induction records with
  | nil => exact .pure _
  | cons record rest ih =>
    refine .bind ?_ fun _ => ih.bind fun _ => .pure _
    intro db r db' h
    rcases importRecord_ok h with ⟨vector, -, hinserted⟩ | hindex
    · exact bounded_inserted hinserted
    · exact .congr hindex

/-- A re-embedded memory gets an embedding of the version that was read. -/
theorem bounds_reembed (provider : EmbeddingProvider R) (memory : Memory R) :
    Bounds (EmbeddingReembeddingJob.reembed provider (Session.sequential R tenant encryptor)
      memory) := by
  intro db counter db' h
  unfold EmbeddingReembeddingJob.reembed at h
  rcases Txn.tryCatch_ok.mp h with hdone | ⟨e, -, hfailed⟩
  · simp only [Txn.bind_ok, Txn.ofExcept_ok, raiseIf_ok, Txn.pure_ok] at hdone
    obtain ⟨vector, _, ⟨-, rfl⟩, _, _, ⟨-, rfl⟩, done, db₁, hupsert, -, rfl⟩ := hdone
    rcases Fresh.upsertEmbeddingProfile_ok hupsert with rfl | ⟨row, hrow, hversion, hupserted⟩
    · exact fun hdb => hdb
    -- the entry has the version that the statement has found
    · obtain ⟨hget, -⟩ := Option.filter_eq_some_iff.mp hrow
      simp only [Database.upsertSemantic, except_bind_ok, except_pure_ok] at hupserted
      obtain ⟨_, -, _, -, rfl⟩ := hupserted
      refine Database.Bounded.set (k := (memory.id, provider.profile.id, provider.profile.version)) rfl
        hget fun k' e' he' => ?_
      replace he' : (Dict.set _ _ _).get? k' = some e' := he'
      rw [Dict.get?_set] at he'
      split at he'
      · rename_i hkey
        obtain rfl := Option.some.inj he'
        exact .inl ⟨hkey, hversion.symm⟩
      · exact .inr he'
  · obtain ⟨-, rfl⟩ := Txn.pure_ok.mp hfailed
    exact fun hdb => hdb

/-- So do all memories of a batch. -/
theorem bounds_batch (provider : EmbeddingProvider R) (o : String) (cursor : Option UUID)
    (batchSize : Int) (dryRun : Bool) :
    Bounds (EmbeddingReembeddingJob.batch provider (Session.sequential R tenant encryptor) o cursor
      batchSize dryRun) := by
  have hall : ∀ memories : List (Memory R), Bounds (EmbeddingReembeddingJob.reembedAll provider
      (Session.sequential R tenant encryptor) memories) := by
    intro memories
    induction memories with
    | nil => exact .pure _
    | cons memory rest ih => exact (bounds_reembed provider memory).bind fun _ => ih.bind fun _ => .pure _
  refine .ofExcept_bind fun _ _ => (bounds_raiseIf _ _).bind fun _ => (bounds_raiseIf _ _).bind
    fun _ => .bind ?_ fun memories => ?_
  · exact .ofExcept_bind fun _ _ => (bounds_of_keeps (keeps_execute rfl)).bind fun _ => .ofExcept _
  · cases dryRun with
    | true => exact .pure _
    | false => exact hall memories

/-- The cut-over changes the profile of rows, not their versions. -/
theorem bounds_cutover (o : String) (profile : EmbeddingProfile) :
    Bounds (cutoverEmbeddingProfile (Session.sequential R tenant encryptor) o profile) := by
  have hcoverage : Bounds (semanticCoverage (Session.sequential R tenant encryptor) o profile) :=
    .ofExcept_bind fun _ _ => (bounds_of_keeps (keeps_execute rfl)).bind fun _ =>
      (bounds_of_keeps (keeps_execute rfl)).bind fun _ => .pure _
  refine .ofExcept_bind fun _ _ => hcoverage.bind fun _ => (bounds_raiseIf _ _).bind fun _ => ?_
  intro db r db' h
  obtain ⟨-, rfl⟩ := Prod.mk.inj (Except.ok.inj h)
  refine .mono rfl fun i row hrow => ?_
  refine ⟨_, (Dict.get?_mapValues _ _ _).trans (congrArg _ hrow), ?_⟩
  dsimp only
  split
  · exact le_refl _
  · exact le_refl _

/-- Rewrapping changes envelopes, not versions. -/
theorem bounds_rewrapEnvelopes (keyVersion : Int) :
    Bounds (rewrapEnvelopes (Session.sequential R tenant encryptor) keyVersion) := by
  -- the statement replaces the payload of a row and leaves its version
  have hrewrap : ∀ (i : UUID) (payload : Payload),
      Bounds ((Session.sequential R tenant encryptor).execute (.rewrapMemory i payload)) := by
    intro i payload db r db' h
    obtain ⟨-, rfl⟩ := Prod.mk.inj (Except.ok.inj h)
    unfold Database.rewrapMemory
    split
    · exact fun hdb => hdb
    · rename_i row hrow
      obtain ⟨hget, -⟩ := Option.filter_eq_some_iff.mp hrow
      refine .mono rfl fun j other hother => ?_
      show ∃ row', (db.memories.set i { row with payload := payload }).get? j = some row' ∧ _
      rw [Dict.get?_set]
      split
      · rename_i hj
        rw [hj, hget] at hother
        obtain rfl := Option.some.inj hother
        exact ⟨_, rfl, le_refl _⟩
      · exact ⟨other, hother, le_refl _⟩
  have hmemories : ∀ rows : List (UUID × MemoryRow R), Bounds (rewrapMemories
      (Session.sequential R tenant encryptor) keyVersion rows) := by
    intro rows
    induction rows with
    | nil => exact .pure _
    | cons row rest ih =>
      unfold rewrapMemories
      split
      · exact ih
      · exact .ofExcept_bind fun _ _ => .ofExcept_bind fun _ _ => (hrewrap _ _).bind fun _ =>
          ih.bind fun _ => .pure _
  have hversions : ∀ rows : List ((UUID × Int) × VersionRow R), Txn.Keeps Database.index
      (rewrapVersions (Session.sequential R tenant encryptor) keyVersion rows) := by
    intro rows
    induction rows with
    | nil => exact .pure _
    | cons row rest ih =>
      unfold rewrapVersions
      split
      · exact ih
      · exact (Txn.Keeps.ofExcept _).bind fun _ => (Txn.Keeps.ofExcept _).bind fun _ =>
          (keeps_execute rfl).bind fun _ => ih
  exact (bounds_raiseIf _ _).bind fun _ => (bounds_raiseIf _ _).bind fun _ =>
    (bounds_raiseIf _ _).bind fun _ => (bounds_of_keeps (keeps_execute rfl)).bind fun _ =>
      (hmemories _).bind fun _ => (bounds_of_keeps (keeps_execute rfl)).bind fun _ =>
        (bounds_of_keeps (hversions _)).bind fun _ => .pure _

end Bodies

/-! ## Services -/

section Services

variable {tenant : Option UUID} {encryptor : Option TenantEnvelopeEncryptor}

omit [Python R] in
theorem bounds_validateMutationScope (t o : String) (revoked : Bool) :
    Bounds (validateMutationScope t o revoked : DbTxn R Unit) :=
  (bounds_raiseIf _ _).bind fun _ => .ofExcept_bind fun _ _ => bounds_raiseIf _ _

omit [Python R] in
theorem bounds_embedChecked (svc : MemoryApplicationService R) (text : String) (query : Bool) :
    Bounds (svc.embedChecked text query : DbTxn R (List R)) :=
  .ofExcept_bind fun _ _ => (bounds_raiseIf _ _).bind fun _ => .pure _

/-- `write` keeps the bounds. -/
theorem bounds_write (svc : MemoryApplicationService R) (c : WriteMemoryCommand R) :
    Bounds (svc.write (postgresUnitOfWork (Session.sequential R tenant encryptor)) c) := by
  have hnew : ∀ at_ fp, Bounds (svc.writeNew
      (postgresUnitOfWork (Session.sequential R tenant encryptor)) c at_ fp) := fun _ _ =>
    (bounds_embedChecked _ _ _).bind fun _ => .ofExcept_bind fun _ _ => .ofExcept_bind fun _ _ =>
      bounds_create _ _ _
  refine .ofExcept_bind fun _ _ => .ofExcept_bind fun at_ _ => ?_
  dsimp only
  cases truthyKey c.idempotencyKey with
  | none => exact hnew _ _
  | some key =>
    refine (bounds_of_keeps (keeps_findByIdempotencyKey _ _)).bind fun prior => ?_
    cases prior with
    | none => exact hnew _ _
    | some prior => exact (bounds_raiseIf _ _).bind fun _ => .pure _

/-- `capture` keeps the bounds. -/
theorem bounds_capture (svc : MemoryApplicationService R) (c : CaptureMemoryCommand R) :
    Bounds (svc.capture (postgresUnitOfWork (Session.sequential R tenant encryptor)) c) := by
  have hvalid : Bounds (validateCapture c : DbTxn R Unit) :=
    (bounds_raiseIf _ _).bind fun _ => (bounds_raiseIf _ _).bind fun _ =>
      (bounds_raiseIf _ _).bind fun _ => .ofExcept_bind fun _ _ => (bounds_raiseIf _ _).bind
        fun _ => (bounds_raiseIf _ _).bind fun _ => (bounds_raiseIf _ _).bind fun _ =>
          (bounds_raiseIf _ _).bind fun _ => (bounds_raiseIf _ _).bind fun _ => bounds_raiseIf _ _
  refine hvalid.bind fun _ => (bounds_of_keeps (keeps_findByIdempotencyKey _ _)).bind
    fun prior => ?_
  cases prior with
  | some prior => exact (bounds_raiseIf _ _).bind fun _ => .pure _
  | none =>
    exact (bounds_embedChecked _ _ _).bind fun _ => .ofExcept_bind fun _ _ =>
      .ofExcept_bind fun _ _ => .ofExcept_bind fun _ _ => bounds_create _ _ _

theorem bounds_listInbox (c : ListInboxCommand) :
    Bounds (listInbox (postgresUnitOfWork (Session.sequential R tenant encryptor)) c) := by
  have hlist : Bounds (listCandidates (Session.sequential R tenant encryptor) c.ownerId c.space
      (c.limit + 1)) :=
    .ofExcept_bind fun _ _ => (bounds_of_keeps (keeps_execute rfl)).bind fun _ => .ofExcept _
  exact (bounds_raiseIf _ _).bind fun _ => (bounds_raiseIf _ _).bind fun _ =>
    .ofExcept_bind fun _ _ => (bounds_raiseIf _ _).bind fun _ => (bounds_raiseIf _ _).bind fun _ =>
      hlist.bind fun _ => .pure _

/-- `confirm_candidate` stores the next version. -/
theorem bounds_confirmCandidate (svc : MemoryApplicationService R) (c : ConfirmCandidateCommand) :
    Bounds (svc.confirmCandidate (postgresUnitOfWork (Session.sequential R tenant encryptor)) c) := by
  intro db r db' h
  rcases confirmCandidate_ok h with ⟨-, hindex⟩ | ⟨-, m, at_, descriptor, -, hnext⟩
  · exact .congr hindex
  · exact bounded_nextVersion hnext

/-- So does `pin`. -/
theorem bounds_pin (svc : MemoryApplicationService R) (c : PinMemoryCommand) :
    Bounds (svc.pin (postgresUnitOfWork (Session.sequential R tenant encryptor)) c) := by
  unfold pin
  generalize (if c.pinned then MemoryState.pinned else MemoryState.confirmed) = target
  refine (bounds_raiseIf _ _).bind fun _ => (bounds_validateMutationScope _ _ _).bind fun _ =>
    (bounds_of_keeps (keeps_claim _ _ _ _)).bind fun claim => ?_
  split
  · exact bounds_of_keeps (keeps_replayVersion _ _ _ _ _)
  · refine (bounds_of_keeps (keeps_currentAt _ _ _ _ _)).bind fun current =>
      (bounds_raiseIf _ _).bind fun _ => ?_
    by_cases hstate : current.state = target
    · rw [if_pos hstate]
      exact (bounds_of_keeps (keeps_complete _ _ _ _)).bind fun _ => .pure _
    · rw [if_neg hstate]
      refine .ofExcept_bind fun at_ _ => .ofExcept_bind fun updated hevolve =>
        (bounds_embedChecked _ _ _).bind fun _ => ?_
      exact (bounds_update (Memory.evolve_ok hevolve).version _ _).bind fun _ =>
        (bounds_of_keeps (keeps_complete _ _ _ _)).bind fun _ => .pure _

/-- `discard_candidate` removes what belongs to the candidate. -/
theorem bounds_discardCandidate (c : DiscardCandidateCommand) :
    Bounds (discardCandidate (R := R) (postgresUnitOfWork (Session.sequential R tenant encryptor))
      c) := by
  refine (bounds_raiseIf _ _).bind fun _ => (bounds_validateMutationScope _ _ _).bind fun _ =>
    (bounds_of_keeps (keeps_claim _ _ _ _)).bind fun claim => ?_
  split
  · exact .pure _
  · exact (bounds_of_keeps (keeps_currentAt _ _ _ _ _)).bind fun _ => (bounds_raiseIf _ _).bind
      fun _ => (bounds_forget _ _).bind fun _ => (bounds_of_keeps (keeps_complete _ _ _ _)).bind
        fun _ => .pure _

theorem bounds_serviceForget (c : ForgetMemoryCommand) :
    Bounds (MemoryApplicationService.forget (R := R)
      (postgresUnitOfWork (Session.sequential R tenant encryptor)) c) := by
  refine .ofExcept_bind fun _ _ => ?_
  cases truthyKey c.idempotencyKey with
  | none => exact (bounds_forget _ _).bind fun _ => .pure _
  | some key =>
    refine (bounds_of_keeps (keeps_claim _ _ _ _)).bind fun claim => ?_
    split
    · exact .pure _
    · exact (bounds_forget _ _).bind fun _ => (bounds_of_keeps (keeps_complete _ _ _ _)).bind
        fun _ => .pure _

theorem keeps_searchCandidates (o : String) (query : List R) (profile : EmbeddingProfile)
    (filters : SearchFilters R) (limit : Int) :
    Txn.Keeps Database.index (searchCandidates (Session.sequential R tenant encryptor) o query
      profile filters limit) :=
  (Txn.Keeps.ofExcept _).bind fun _ => (Txn.Keeps.ofExcept _).bind fun _ =>
    (keeps_execute rfl).bind fun _ => .ofExcept _

/-- `recall` changes nothing. -/
theorem bounds_recall (svc : MemoryApplicationService R) (c : RecallMemoryCommand R) :
    Bounds (svc.recall (postgresUnitOfWork (Session.sequential R tenant encryptor)) c) := by
  have hvalid : Bounds (validateRecall c : DbTxn R Unit) :=
    (bounds_raiseIf _ _).bind fun _ => (bounds_raiseIf _ _).bind fun _ => .ofExcept_bind fun _ _ =>
      (bounds_raiseIf _ _).bind fun _ => (bounds_raiseIf _ _).bind fun _ =>
        (bounds_raiseIf _ _).bind fun _ => (bounds_raiseIf _ _).bind fun _ => bounds_raiseIf _ _
  have hcandidates : ∀ (query : List R) (spaces : List (Option String)), Txn.Keeps Database.index
      (svc.recallCandidates (postgresUnitOfWork (Session.sequential R tenant encryptor)) c query
        spaces) := by
    intro query spaces
    induction spaces with
    | nil => exact .pure _
    | cons space rest ih =>
      exact (keeps_searchCandidates _ _ _ _ _).bind fun _ => ih.bind fun _ => .pure _
  exact hvalid.bind fun _ => (bounds_embedChecked _ _ _).bind fun _ =>
    (bounds_of_keeps (hcandidates _ _)).bind fun _ => .pure _

/-- Nor does `search`. -/
theorem bounds_search (svc : MemoryApplicationService R) (c : SearchMemoryCommand R) :
    Bounds (svc.search (postgresUnitOfWork (Session.sequential R tenant encryptor)) c) :=
  .ofExcept_bind fun _ _ => (bounds_raiseIf _ _).bind fun _ => (bounds_raiseIf _ _).bind fun _ =>
    (bounds_raiseIf _ _).bind fun _ => (bounds_raiseIf _ _).bind fun _ =>
      (bounds_embedChecked _ _ _).bind fun _ =>
        (bounds_of_keeps (keeps_searchCandidates _ _ _ _ _)).bind fun _ =>
          .ofExcept_bind fun _ _ => .pure _

/-- `update` stores the next version. -/
theorem bounds_serviceUpdate (svc : MemoryApplicationService R) (c : UpdateMemoryCommand R) :
    Bounds (svc.update (postgresUnitOfWork (Session.sequential R tenant encryptor)) c) := by
  intro db r db' h
  rcases serviceUpdate_ok h with ⟨-, hindex⟩ | ⟨-, m, at_, descriptor, -, hnext⟩
  · exact .congr hindex
  · exact bounded_nextVersion hnext

theorem bounds_relate (svc : MemoryApplicationService R) (c : RelateMemoriesCommand) :
    Bounds (svc.relate (postgresUnitOfWork (Session.sequential R tenant encryptor)) c) := by
  refine .ofExcept_bind fun _ _ => ?_
  cases RelationType.ofValue c.relationType with
  | none => exact .throw _
  | some relationType =>
    refine (bounds_raiseIf _ _).bind fun _ => (bounds_of_keeps (keeps_get _ _)).bind fun source =>
      (bounds_of_keeps (keeps_get _ _)).bind fun target => ?_
    cases source with
    | none => exact .throw _
    | some source =>
      cases target with
      | none => exact .throw _
      | some target =>
        exact .ofExcept_bind fun _ _ => .ofExcept_bind fun _ _ =>
          bounds_of_keeps (keeps_addRelation _)

/-- An export changes nothing. -/
theorem bounds_exportMemories (o : String) (includeEmbeddings : Bool) :
    Bounds (exportMemories (postgresUnitOfWork (Session.sequential R tenant encryptor)) o
      includeEmbeddings) := by
  have hall : ∀ ids : List UUID, Txn.Keeps Database.index (PostgresMemoryAdminRepository.exportEach
      (Session.sequential R tenant encryptor) o includeEmbeddings ids) := by
    intro ids
    induction ids with
    | nil => exact .pure _
    | cons i rest ih =>
      refine (keeps_exportMemory _ _ _).bind fun record => ?_
      exact ih.bind fun _ => .pure _
  exact .ofExcept_bind fun _ _ => .ofExcept_bind fun _ _ =>
    (bounds_of_keeps (keeps_execute rfl)).bind fun _ => bounds_of_keeps (hall _)

/-- An import by the service keeps the bounds. -/
theorem bounds_importMemories (svc : MemoryApplicationService R) (o : String)
    (records : List (MemoryRecordDto R)) :
    Bounds (svc.importMemories (postgresUnitOfWork (Session.sequential R tenant encryptor)) o
      records) := by
  refine .ofExcept_bind fun _ _ => .ofExcept_bind fun _ _ =>
    (bounds_of_keeps (keeps_checkEndpoints _ _ _)).bind fun _ =>
      (bounds_of_keeps (keeps_existingRecords _ _)).bind fun _ => .bind ?_ fun _ =>
        (bounds_importRecords _).bind fun _ =>
          (bounds_of_keeps (keeps_importRelations _ _)).bind fun _ => .pure _
  intro db prepared db' h
  obtain ⟨rfl, -⟩ := prepareRecords_ok h
  exact fun hdb => hdb

/-! ## Runs -/

/-- Every request keeps the bounds. -/
theorem bounds_execOn (svc : MemoryApplicationService R) (request : Request R) :
    Bounds (request.execOn svc (postgresUnitOfWork (Session.sequential R tenant encryptor))) := by
  cases request with
  | write c => exact (bounds_write svc c).map _
  | capture c => exact (bounds_capture svc c).map _
  | listInbox c => exact (bounds_listInbox c).map _
  | confirmCandidate c => exact (bounds_confirmCandidate svc c).map _
  | pin c => exact (bounds_pin svc c).map _
  | discardCandidate c => exact (bounds_discardCandidate c).map _
  | «recall» c => exact (bounds_recall svc c).map _
  | search c => exact (bounds_search svc c).map _
  | update c => exact (bounds_serviceUpdate svc c).map _
  | forget c => exact (bounds_serviceForget c).map _
  | relate c => exact (bounds_relate svc c).map _
  | exportMemories o e => exact (bounds_exportMemories o e).map _
  | importMemories o records => exact (bounds_importMemories svc o records).map _

/-- So does every transaction. -/
theorem bounds_body (t : Transaction R) :
    Bounds (t.body (Session.sequential R tenant encryptor)) := by
  unfold Transaction.body
  cases t.work with
  | request request => exact (bounds_execOn _ _).map _
  | batch o cursor batchSize dryRun => exact (bounds_batch _ _ _ _ _).map _
  | cutover o => exact (bounds_cutover _ _).map _
  | rotation keyVersion => exact (bounds_rewrapEnvelopes _).map _

end Services

/-- No run of transactions leaves the index ahead of the memories. -/
theorem bounded_afterAll (encryptor : Option TenantEnvelopeEncryptor) (ts : List (Transaction R)) :
    (afterAll encryptor ts).Bounded := by
  induction ts using List.reverseRecOn with
  | nil => exact Database.bounded_empty
  | append_singleton ts t ih =>
    rw [afterAll_concat]
    cases hrun : (t.body (Session.sequential R t.tenant encryptor)).run (afterAll encryptor ts) with
    | error e =>
      have hdb : (t.attempt encryptor (afterAll encryptor ts)).2 = afterAll encryptor ts :=
        congrArg Prod.snd (Txn.attempt_error.mpr ⟨hrun, rfl⟩)
      rw [hdb]
      exact ih
    | ok result =>
      have hdb : (t.attempt encryptor (afterAll encryptor ts)).2 = result.2 :=
        congrArg Prod.snd (Txn.attempt_ok.mpr hrun)
      rw [hdb]
      exact bounds_body t _ _ _ hrun ih

end OpenMemory.Postgres
