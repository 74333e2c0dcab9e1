import OpenMemory.Postgres.Repository
import OpenMemory.Store.Requests

/-!
# What the repository methods do to the index tables

`search_candidates` joins three tables: `memories` and the two embedding tables. Most
statements, and so most methods, leave all three as they are (`keeps_…`). The others are
`create` and the rows of an import, which insert a memory with its vector (`Inserted`), and
`update`, which replaces the row of a memory and rewrites its vector in the table of the new
dimension, if there is a row (`update_ok`).
-/

namespace OpenMemory.Postgres

open Lib
open MonadExcept (ofExcept)

variable {R : Type} [Python R]

namespace Database

/-- The tables that `search_candidates` reads. -/
def index (db : Database R) :
    Dict UUID (MemoryRow R) × Dict UUID (EmbeddingRow R) × Dict SemanticKey (SemanticRow R) :=
  (db.memories, db.embeddings, db.semantic)

variable {db db' : Database R}

omit [Python R] in
/-- What is visible in the index depends on the index tables alone. -/
theorem visible_congr (h : db'.index = db.index) (tenant : Option UUID) (memoryId : UUID) :
    db'.visible tenant memoryId = db.visible tenant memoryId := by
  unfold visible
  rw [(Prod.mk.inj h).1]

end Database

/-! ## Statements that leave the index alone -/

/-- Reads, and writes to the other tables. -/
def Statement.leavesIndex : Statement R → Bool
  | .insertMemory _ _ _ => false
  | .updateMemory _ _ _ _ => false
  | .deleteMemory _ _ => false
  | .insertEmbedding _ _ _ => false
  | .updateEmbedding _ _ _ => false
  | .upsertSemantic _ _ _ _ => false
  | .cutover _ _ => false
  | .rewrapMemory _ _ => false
  | _ => true

omit [Python R] in
/-- Versions are stored outside of the index. -/
theorem index_insertVersions {rows : List ((UUID × Int) × VersionRow R)} {db db' : Database R}
    (h : db.insertVersions rows = .ok db') : db'.index = db.index := by
  induction rows generalizing db with
  | nil =>
    cases h
    rfl
  | cons row rest ih =>
    unfold Database.insertVersions at h
    split at h
    · cases h
    · have hrest := ih h
      exact hrest

omit [Python R] in
/-- So are relations. -/
theorem index_insertRelation {tenant : Option UUID} {doNothing : Bool} {relation : Relation}
    {db db' : Database R} (h : db.insertRelation tenant doNothing relation = .ok db') :
    db'.index = db.index := by
  unfold Database.insertRelation at h
  split at h
  · split at h
    · cases h
      rfl
    · cases h
  · split at h
    · cases h
    · cases h
      rfl

omit [Python R] in
theorem of_map_ok {α : Type} {x : Except PyError (Database R)} {a r : α} {db' : Database R}
    (h : (x.map fun db => (a, db)) = .ok (r, db')) : x = .ok db' := by
  cases x with
  | error e => cases h
  | ok db =>
    cases h
    rfl

/-- A statement on another table leaves the index as it was. -/
theorem run_leavesIndex {tenant : Option UUID} {q : Statement R} (hq : q.leavesIndex = true)
    {r : q.Result} {db db' : Database R} (h : q.run tenant db = .ok (r, db')) :
    db'.index = db.index := by
  -- the statements that insert elsewhere, and those that read
  cases q with
  | insertVersions rows => exact index_insertVersions (of_map_ok h)
  | insertRelation doNothing relation => exact index_insertRelation (of_map_ok h)
  | insertTombstone ownerId memoryId =>
    obtain ⟨-, rfl⟩ := Prod.mk.inj (Except.ok.inj h)
    unfold Database.insertTombstone
    split <;> rfl
  | insertOperation key fingerprint =>
    have hdb : (db.insertOperation tenant key fingerprint).2 = db' :=
      (Prod.mk.inj (Except.ok.inj h)).2
    rw [← hdb]
    unfold Database.insertOperation
    split <;> rfl
  | completeOperation key fingerprint memoryId resultVersion resultStatus =>
    have hdb : (db.completeOperation tenant key fingerprint memoryId resultVersion
        resultStatus).2 = db' := (Prod.mk.inj (Except.ok.inj h)).2
    rw [← hdb]
    unfold Database.completeOperation
    split <;> rfl
  | selectVector table memoryId => cases table <;> cases h <;> rfl
  -- the statements on the index are excluded
  | insertMemory | updateMemory | deleteMemory | insertEmbedding | updateEmbedding
  | upsertSemantic | cutover | rewrapMemory => cases hq
  | rewrapVersion i v payload =>
    obtain ⟨-, rfl⟩ := Prod.mk.inj (Except.ok.inj h)
    unfold Database.rewrapVersion
    split <;> rfl
  | _ =>
    cases h
    rfl

/-! ## Bodies that leave the index alone -/

section Bodies

open MemoryApplicationService PostgresMemoryRepository PostgresIdempotencyRepository

variable {tenant : Option UUID} {encryptor : Option TenantEnvelopeEncryptor}

/-- So does executing it. -/
theorem keeps_execute {q : Statement R} (hq : q.leavesIndex = true) :
    Txn.Keeps Database.index ((Session.sequential R tenant encryptor).execute q) :=
  fun _ _ _ h => run_leavesIndex hq h

omit [Python R] in
theorem keeps_raiseIf (b : Bool) (e : PyError) :
    Txn.Keeps Database.index (raiseIf b e : DbTxn R Unit) := by
  intro db u db' h
  rw [(raiseIf_ok.mp h).2]

/-- Reading a memory keeps the index. -/
theorem keeps_get (o : String) (i : UUID) :
    Txn.Keeps Database.index (get (Session.sequential R tenant encryptor) o i) := by
  refine (Txn.Keeps.ofExcept _).bind fun _ => (keeps_execute rfl).bind fun row => ?_
  cases row with
  | none => exact .pure _
  | some row => exact (Txn.Keeps.ofExcept _).map _

theorem keeps_getVersion (o : String) (i : UUID) (v : Int) :
    Txn.Keeps Database.index (getVersion (Session.sequential R tenant encryptor) o i v) := by
  refine (keeps_get o i).bind fun current => ?_
  cases current with
  | none => exact .pure _
  | some current =>
    dsimp only
    split
    · exact .pure _
    · refine (keeps_execute rfl).bind fun row => ?_
      cases row with
      | none => exact .pure _
      | some row => exact (Txn.Keeps.ofExcept _).bind fun _ => (Txn.Keeps.ofExcept _).map _

theorem keeps_complete (claim : IdempotencyClaim) (i : Option UUID) (v : Option Int)
    (status : String) :
    Txn.Keeps Database.index (complete (Session.sequential R tenant encryptor) claim i v status) :=
  (keeps_execute rfl).bind fun _ => keeps_raiseIf _ _

/-- Adding a relation keeps the index. -/
theorem keeps_addRelation (relation : Relation) :
    Txn.Keeps Database.index (addRelation (Session.sequential R tenant encryptor) relation) :=
  (Txn.Keeps.ofExcept _).bind fun _ => (keeps_get _ _).bind fun _ => (keeps_get _ _).bind fun _ =>
    (keeps_raiseIf _ _).bind fun _ => ((keeps_execute rfl).rethrow _).bind fun _ => .pure _

theorem keeps_replayVersion (o : String) (t : Option String) (claim : IdempotencyClaim) (i : UUID)
    (v : Int) :
    Txn.Keeps Database.index
      (replayVersion (postgresUnitOfWork (Session.sequential R tenant encryptor)) o t claim i v) := by
  refine (keeps_getVersion _ _ _).bind fun replay => ?_
  cases replay with
  | none => exact .throw _
  | some memory => exact .pure _

theorem keeps_checkRelated (o : String) (current : Memory R)
    (related : Option (RelationType × UUID)) :
    Txn.Keeps Database.index (checkRelated
      (postgresUnitOfWork (Session.sequential R tenant encryptor)) o current related) := by
  cases related with
  | none => exact .pure _
  | some target =>
    exact (keeps_raiseIf _ _).bind fun _ => (keeps_get _ _).bind fun _ => keeps_raiseIf _ _

/-- So does the relation that comes with an update. -/
theorem keeps_storeRelation (svc : MemoryApplicationService R) (o : String) (i : UUID)
    (related : Option (RelationType × UUID)) :
    Txn.Keeps Database.index (svc.storeRelation
      (postgresUnitOfWork (Session.sequential R tenant encryptor)) o i related) := by
  cases related with
  | none => exact .pure _
  | some target =>
    exact (Txn.Keeps.ofExcept _).bind fun _ => (Txn.Keeps.ofExcept _).bind fun _ =>
      (keeps_addRelation _).bind fun _ => .pure _

/-- The session sees a ledger row under the key. -/
def Database.ledgered (db : Database R) (tenant : Option UUID) (key : OperationKey) : Bool :=
  ((db.operations.get? key).filter fun row => decide (row.tenantId = tenant)).isSome

omit [Python R] in
/-- An INSERT that finds the key taken changes nothing. -/
theorem insertOperation_blocked {key : OperationKey} {fp : String} {db db' : Database R}
    (h : db.insertOperation tenant key fp = (false, db')) : db' = db := by
  unfold Database.insertOperation at h
  split at h
  · exact (Prod.mk.inj h).2.symm
  · cases h

/-- A claim of a row that is there is a replay. -/
theorem claimed_ok {o k fp : String} {op : IdempotencyOperationType}
    {row : StoredIdempotencyOperation} {claim : IdempotencyClaim}
    (h : claimed o op k fp (some row) = .ok claim) : claim.replay = true := by
  simp only [claimed, except_bind_ok, except_pure_ok] at h
  obtain ⟨_, -, _, -, rfl⟩ := h
  rfl

/-- A claim is a replay exactly when the session sees the key in the ledger. -/
theorem claim_ok {o k fp : String} {op : IdempotencyOperationType} {claim : IdempotencyClaim}
    {db db' : Database R}
    (h : (PostgresIdempotencyRepository.claim (Session.sequential R tenant encryptor) o op k
      fp).run db = .ok (claim, db')) :
    claim.replay = db.ledgered tenant (o, op, k) ∧ db'.index = db.index := by
  obtain ⟨row, db₁, hrow, h⟩ := Txn.bind_ok.mp h
  obtain ⟨rfl, rfl⟩ := Prod.mk.inj (Except.ok.inj hrow)
  unfold Database.ledgered
  cases hseen : (db.operations.get? (o, op, k)).filter fun row => decide (row.tenantId = tenant) with
  | some row =>
    rw [hseen] at h
    obtain ⟨hclaimed, rfl⟩ := Txn.ofExcept_ok.mp h
    exact ⟨claimed_ok hclaimed, rfl⟩
  | none =>
    rw [hseen] at h
    obtain ⟨inserted, db₁, hinsert, hrest⟩ := Txn.bind_ok.mp h
    have hindex := keeps_execute rfl _ _ _ hinsert
    cases inserted with
    | true =>
      obtain ⟨rfl, rfl⟩ := Txn.pure_ok.mp hrest
      exact ⟨rfl, hindex⟩
    | false =>
      -- The row of another session blocks the key but stays invisible to the second read.
      obtain rfl := insertOperation_blocked (Except.ok.inj hinsert)
      rw [if_neg Bool.false_ne_true] at hrest
      obtain ⟨again, db₂, hagain, hraise⟩ := Txn.bind_ok.mp hrest
      obtain ⟨rfl, rfl⟩ := Prod.mk.inj (Except.ok.inj hagain)
      rw [hseen] at hraise
      cases hraise

/-- A memory that `get` returns is read from the row of the owner. -/
theorem get_ok {o : String} {i : UUID} {memory : Memory R} {db db' : Database R}
    (h : (get (Session.sequential R tenant encryptor) o i).run db = .ok (some memory, db')) :
    ∃ row, db.owned tenant o i = some row ∧
      (Session.sequential R tenant encryptor).memoryFromRow i row = .ok memory := by
  simp only [PostgresMemoryRepository.get, Txn.bind_ok, Txn.ofExcept_ok] at h
  obtain ⟨_, db₀, ⟨-, rfl⟩, row, db₁, hrow, h⟩ := h
  obtain ⟨rfl, rfl⟩ := Prod.mk.inj (Except.ok.inj hrow)
  cases hcase : db₀.owned tenant o i with
  | none =>
    rw [hcase] at h
    cases h
  | some row =>
    rw [hcase] at h
    obtain ⟨found, hfound, heq⟩ := Txn.map_ok.mp h
    obtain rfl := Option.some.inj heq
    exact ⟨row, rfl, (Txn.ofExcept_ok.mp hfound).1⟩

/-- What a memory keeps of the row it is read from. -/
theorem memoryFromRow_ok {session : Session (DbTxn R) R} {i : UUID} {row : MemoryRow R}
    {memory : Memory R} (h : session.memoryFromRow i row = .ok memory) :
    memory.id = i ∧ memory.version = row.version ∧ ∃ content provenance,
      session.openPayload row.tenantId i row.payload = .ok (content, provenance) ∧
        memory.content = collapse content := by
  simp only [Session.memoryFromRow, except_bind_ok] at h
  obtain ⟨_, -, ⟨content, provenance⟩, hpayload, _, -, _, -, hmake⟩ := h
  rw [Memory.make_ok hmake]
  exact ⟨rfl, rfl, content, provenance, hpayload, rfl⟩

/-- A memory has the state of its row. -/
theorem memoryFromRow_state {session : Session (DbTxn R) R} {i : UUID} {row : MemoryRow R}
    {memory : Memory R} (h : session.memoryFromRow i row = .ok memory) :
    memory.state = row.state := by
  simp only [Session.memoryFromRow, except_bind_ok] at h
  obtain ⟨_, -, _, -, _, -, _, -, hmake⟩ := h
  rw [Memory.make_ok hmake]

/-- The row is there, and its memory has the expected version. -/
theorem currentAt_ok {o : String} {t : Option String} {i : UUID} {v : Int}
    {message : Memory R → String} {memory : Memory R} {db db' : Database R}
    (h : (currentAt (postgresUnitOfWork (Session.sequential R tenant encryptor)) o t i v
      message).run db = .ok (memory, db')) :
    (∃ row, db.owned tenant o i = some row ∧
      (Session.sequential R tenant encryptor).memoryFromRow i row = .ok memory) ∧
      memory.version = v ∧ db'.index = db.index := by
  obtain ⟨current, db₁, hget, h⟩ := Txn.bind_ok.mp h
  have hindex := keeps_get o i db current db₁ hget
  cases current with
  | none => cases h
  | some current =>
    simp only [Txn.bind_ok, raiseIf_ok, Txn.pure_ok] at h
    obtain ⟨_, _, ⟨hversion, rfl⟩, rfl, rfl⟩ := h
    exact ⟨get_ok hget, by simpa using hversion, hindex⟩

/-- A body under the ledger is a replay, which leaves the index alone, or runs for the first
time. -/
theorem ledgered_ok {o k fp : String} {op : IdempotencyOperationType}
    {replay first : IdempotencyClaim → DbTxn R (Memory R)} {r : Memory R} {db db' : Database R}
    (hreplay : ∀ claim, Txn.Keeps Database.index (replay claim))
    (h : (PostgresIdempotencyRepository.claim (Session.sequential R tenant encryptor) o op k fp >>=
      fun claim => if claim.replay then replay claim else first claim).run db = .ok (r, db')) :
    (db.ledgered tenant (o, op, k) = true ∧ db'.index = db.index) ∨
    (db.ledgered tenant (o, op, k) = false ∧ ∃ claim db₁, db₁.index = db.index ∧
      (first claim).run db₁ = .ok (r, db')) := by
  obtain ⟨claim, db₁, hclaim, hrest⟩ := Txn.bind_ok.mp h
  obtain ⟨hseen, hindex⟩ := claim_ok hclaim
  rw [← hseen]
  cases hcase : claim.replay with
  | true =>
    rw [hcase, if_pos rfl] at hrest
    exact .inl ⟨rfl, (hreplay _ _ _ _ hrest).trans hindex⟩
  | false =>
    rw [hcase, if_neg Bool.false_ne_true] at hrest
    exact .inr ⟨rfl, claim, db₁, hindex, hrest⟩

/-! ## Updates -/

/-- The semantic table is the one of dimension 384. -/
theorem embeddingTable_semantic {dimension : Int} (h : embeddingTable dimension = .ok .semantic) :
    dimension = 384 := by
  unfold embeddingTable at h
  split at h
  · cases h
  · split at h
    · assumption
    · cases h

omit [Python R] in
/-- A descriptor has the id, the version and the dimension of its profile. -/
theorem descriptor_ok {profile : EmbeddingProfile} {descriptor : EmbeddingDescriptor}
    (h : profile.descriptor = .ok descriptor) :
    descriptor.profileId = profile.id ∧ descriptor.profileVersion = profile.version ∧
      descriptor.dimension = profile.dimension := by
  rw [EmbeddingDescriptor.make_ok h]
  exact ⟨rfl, rfl, rfl⟩

/-- A row that is written has the tenant of the session and the version of the memory. -/
theorem memoryValues_ok {session : Session (DbTxn R) R} {memory : Memory R}
    {fingerprint : Option String} {row : MemoryRow R}
    (h : session.memoryValues memory fingerprint = .ok row) :
    row.tenantId = session.tenant ∧ row.version = memory.version := by
  unfold Session.memoryValues at h
  split at h
  · cases h
  · simp only [except_bind_ok, except_pure_ok] at h
    obtain ⟨_, -, _, -, rfl⟩ := h
    exact ⟨rfl, rfl⟩

/-- The values that go into an embedding table. -/
theorem embeddingValues_eq {session : Session (DbTxn R) R} {memory : Memory R} {vector : List R}
    {values : EmbeddingValues R} (h : session.embeddingValues memory vector = .ok values) :
    ∃ d, memory.embedding = some d ∧ values =
      { tenantId := session.tenant, profileId := d.profileId, profileVersion := d.profileVersion
        dimension := d.dimension, metric := d.metric, vector := vector
        sourceVersion := if d.dimension = 384 then some memory.version else none } := by
  unfold Session.embeddingValues at h
  cases hd : memory.embedding with
  | none =>
    rw [hd] at h
    cases h
  | some d =>
    rw [hd] at h
    exact ⟨d, rfl, except_pure_ok.mp h⟩

/-- What a successful `update` does: it replaces the row of the memory, which was at the
expected version, and then runs the `UPDATE` of the embedding table. -/
structure Updated (session : Session (DbTxn R) R) (memory : Memory R) (expectedVersion : Int)
    (vector : List R) (db : Database R) (old row : MemoryRow R) (table : EmbeddingTable)
    (values : EmbeddingValues R) (db₁ db' : Database R) : Prop where
  encoded : session.memoryValues memory none = .ok row
  owned : db.owned session.tenant memory.ownerId memory.id = some old
  version : old.version = expectedVersion
  stored : db₁.memories = db.memories.set memory.id { old with toMemoryValues := row.toMemoryValues } ∧
    db₁.embeddings = db.embeddings ∧ db₁.semantic = db.semantic
  chosen : tableOf memory = .ok table
  described : session.embeddingValues memory vector = .ok values
  embedded : db₁.updateEmbedding session.tenant table memory.id values = .ok db'

omit [Python R] in
/-- A row that the owner's SELECT finds is theirs, in the tenant of the session. -/
theorem get?_of_owned {o : String} {i : UUID} {db : Database R} {row : MemoryRow R}
    (h : db.owned tenant o i = some row) :
    db.memories.get? i = some row ∧ row.tenantId = tenant ∧ row.ownerId = o := by
  obtain ⟨hvisible, howner⟩ := Option.filter_eq_some_iff.mp h
  obtain ⟨hget, htenant⟩ := Option.filter_eq_some_iff.mp hvisible
  exact ⟨hget, of_decide_eq_true htenant, of_decide_eq_true howner⟩

/-- The rows that the `UPDATE` of an embedding table finds: at most one, which it replaces. -/
inductive Rewritten (tenant : Option UUID) (i : UUID) (values : EmbeddingValues R)
    (db db' : Database R) : EmbeddingTable → Prop
  | hashNone
      (none : ((db.embeddings.get? i).filter fun e => decide (e.tenantId = tenant)) = none)
      (embeddings : db'.embeddings = db.embeddings) (semantic : db'.semantic = db.semantic) :
      Rewritten tenant i values db db' .hash
  | hashRow (e : EmbeddingRow R)
      (one : ((db.embeddings.get? i).filter fun e => decide (e.tenantId = tenant)) = some e)
      (embeddings : db'.embeddings = db.embeddings.set i values.row)
      (semantic : db'.semantic = db.semantic) : Rewritten tenant i values db db' .hash
  | semanticNone (none : db.semanticRows tenant i = []) (embeddings : db'.embeddings = db.embeddings)
      (semantic : db'.semantic = db.semantic) : Rewritten tenant i values db db' .semantic
  | semanticRow (key : SemanticKey) (e : SemanticRow R) (one : db.semanticRows tenant i = [(key, e)])
      (embeddings : db'.embeddings = db.embeddings)
      (semantic : db'.semantic = (db.semantic.pop key).set
        (i, values.profileId, values.profileVersion)
        (values.semanticRow (values.sourceVersion.getD e.sourceVersion))) :
      Rewritten tenant i values db db' .semantic

omit [Python R] in
/-- The UPDATE of an embedding changes one table, and only a row that is there. -/
theorem updateEmbedding_ok {table : EmbeddingTable} {i : UUID} {values : EmbeddingValues R}
    {db db' : Database R} (h : db.updateEmbedding tenant table i values = .ok db') :
    db'.memories = db.memories ∧ Rewritten tenant i values db db' table := by
  unfold Database.updateEmbedding at h
  obtain ⟨_, -, h⟩ := except_bind_ok.mp h
  cases table with
  | hash =>
    dsimp only at h
    -- no row of the tenant, or the one that is rewritten
    cases hseen : (db.embeddings.get? i).filter fun e => decide (e.tenantId = tenant) with
    | none =>
      rw [hseen] at h
      obtain rfl := except_pure_ok.mp h
      exact ⟨rfl, .hashNone hseen rfl rfl⟩
    | some old =>
      rw [hseen] at h
      obtain rfl := except_pure_ok.mp h
      exact ⟨rfl, .hashRow old hseen rfl rfl⟩
  | semantic =>
    dsimp only at h
    cases hseen : db.semanticRows tenant i with
    | nil =>
      rw [hseen] at h
      obtain rfl := except_pure_ok.mp h
      exact ⟨rfl, .semanticNone hseen rfl rfl⟩
    | cons first others =>
      rw [hseen] at h
      cases others with
      | cons second others => cases h
      | nil =>
        obtain ⟨_, -, h⟩ := except_bind_ok.mp h
        obtain rfl := except_pure_ok.mp h
        exact ⟨rfl, .semanticRow first.1 first.2 hseen rfl rfl⟩

omit [Python R] in
/-- Where the UPDATE reports one row, it was the owner's at the expected version. -/
theorem updateMemory_one {i : UUID} {o : String} {v : Int} {values : MemoryValues R}
    {db db' : Database R} (h : db.updateMemory tenant i o v values = (1, db')) :
    ∃ old, db.owned tenant o i = some old ∧ old.version = v ∧
      db' = { db with memories := db.memories.set i { old with toMemoryValues := values } } := by
  unfold Database.updateMemory at h
  split at h
  · cases h
  · rename_i old hold
    obtain ⟨howned, hversion⟩ := Option.filter_eq_some_iff.mp hold
    obtain ⟨-, rfl⟩ := Prod.mk.inj h
    exact ⟨old, howned, of_decide_eq_true hversion, rfl⟩

/-- What `update` does to the index: the row and one of its embeddings are rewritten. -/
theorem update_ok {memory r : Memory R} {v : Int} {snapshot : MemoryVersion R} {vector : List R}
    {db db' : Database R}
    (h : (PostgresMemoryRepository.update (Session.sequential R tenant encryptor) memory v snapshot
      vector).run db = .ok (r, db')) :
    r = memory ∧ ∃ old row table values db₁,
      Updated (Session.sequential R tenant encryptor) memory v vector db old row table values db₁
        db' := by
  simp only [PostgresMemoryRepository.update, Txn.bind_ok, Txn.ofExcept_ok] at h
  obtain ⟨_, _, ⟨-, rfl⟩, row, db₀, ⟨hvalues, rfl⟩, h⟩ := h
  obtain ⟨rowcount, db₁, hupdate, hrest⟩ := Txn.bind_ok.mp h
  by_cases hcount : rowcount = 1
  · subst hcount
    simp only [ne_eq, not_true_eq_false, if_false, Txn.bind_ok, Txn.ofExcept_ok,
      Txn.pure_ok] at hrest
    obtain ⟨version, _, ⟨-, rfl⟩, _, db₂, hversions, table, _, ⟨htable, rfl⟩, values, _,
      ⟨hembed, rfl⟩, _, _, hlast, rfl, rfl⟩ := hrest
    obtain ⟨old, howned, hversion, rfl⟩ := updateMemory_one (Except.ok.inj hupdate)
    obtain ⟨hmemories, hrest⟩ := Prod.mk.inj (keeps_execute rfl _ _ _ hversions)
    obtain ⟨hembeddings, hsemantic⟩ := Prod.mk.inj hrest
    exact ⟨rfl, old, row, table, values, _, hvalues, howned, hversion,
      ⟨hmemories, hembeddings, hsemantic⟩, htable, hembed, of_map_ok hlast⟩
  · -- No row of the owner at the version: the read that follows only picks the exception.
    simp only [ne_eq, hcount, not_false_eq_true, if_true, Txn.bind_ok] at hrest
    obtain ⟨_, _, -, _, _, -, _, _, hthrow, -⟩ := hrest
    cases hthrow

/-- The next version of a memory, evolved from what was read and stored with the vector that
the service's provider computes of its content. -/
structure NextVersion (svc : MemoryApplicationService R) (session : Session (DbTxn R) R) (i : UUID)
    (v : Int) (args : Memory.EvolveArgs R) (m r : Memory R) (db db' : Database R) : Prop where
  read : ∃ o row, db.owned session.tenant o i = some row ∧ session.memoryFromRow i row = .ok m
  version : m.version = v
  evolved : Memory.Evolved m args r
  stored : ∃ vector old row table values db₁ db₂ db₃,
    svc.embeddingProvider.embed r.content false = .ok vector ∧ db₁.index = db.index ∧
    Updated session r v vector db₁ old row table values db₂ db₃ ∧ db'.index = db₃.index

theorem NextVersion.id {svc : MemoryApplicationService R} {session : Session (DbTxn R) R} {i : UUID}
    {v : Int} {args : Memory.EvolveArgs R} {m r : Memory R} {db db' : Database R}
    (h : NextVersion svc session i v args m r db db') : r.id = i := by
  obtain ⟨o, row, -, hread⟩ := h.read
  rw [h.evolved.identity.id, (memoryFromRow_ok hread).1]

/-- Steps before and after that leave the index alone do not matter. -/
theorem NextVersion.congr {svc : MemoryApplicationService R} {session : Session (DbTxn R) R}
    {i : UUID} {v : Int} {args : Memory.EvolveArgs R} {m r : Memory R} {db db₁ db₂ db' : Database R}
    (h : NextVersion svc session i v args m r db₁ db₂) (hbefore : db₁.index = db.index)
    (hafter : db'.index = db₂.index) : NextVersion svc session i v args m r db db' := by
  obtain ⟨⟨o, row, howned, hread⟩, hversion, hevolved, vector, old, row', table, values, db₃, db₄,
    db₅, hvector, hindex, hup, hlast⟩ := h
  have howned' : db.owned session.tenant o i = some row := by
    unfold Database.owned
    rw [← Database.visible_congr hbefore]
    exact howned
  exact ⟨⟨o, row, howned', hread⟩, hversion, hevolved, vector, old, row', table, values, db₃, db₄,
    db₅, hvector, hindex.trans hbefore, hup, hafter.trans hlast⟩

/-- The read, the computation and the update that every mutation makes, given what happens to
the index in between and after. -/
theorem nextVersion_of_update {svc : MemoryApplicationService R} {o : String} {t : Option String}
    {i : UUID} {v : Int} {message : Memory R → String} {args : Memory.EvolveArgs R}
    {m m' r : Memory R} {snapshot : MemoryVersion R} {vector : List R}
    {db db₁ db₂ db₃ : Database R}
    (hcur : (currentAt (postgresUnitOfWork (Session.sequential R tenant encryptor)) o t i v
      message).run db = .ok (m, db₁))
    (hevolve : m.evolve args = .ok m') (hmiddle : db₂.index = db₁.index)
    (hvector : svc.embeddingProvider.embed m'.content false = .ok vector)
    (hupd : (PostgresMemoryRepository.update (Session.sequential R tenant encryptor) m' v snapshot
      vector).run db₂ = .ok (r, db₃)) :
    r = m' ∧ NextVersion svc (Session.sequential R tenant encryptor) i v args m r db db₃ := by
  obtain ⟨⟨row, howned, hread⟩, hversion, hindex⟩ := currentAt_ok hcur
  obtain ⟨rfl, old, row', table, values, db₄, hup⟩ := update_ok hupd
  exact ⟨rfl, ⟨o, row, howned, hread⟩, hversion, Memory.evolve_ok hevolve, vector, old, row', table,
    values, db₂, db₄, db₃, hvector, hmiddle.trans hindex, hup, rfl⟩

/-- The body of an update stores the next version of the memory. -/
theorem updateBody_ok {svc : MemoryApplicationService R} {c : UpdateMemoryCommand R} {r : Memory R}
    {db db' : Database R}
    (h : (svc.updateBody (postgresUnitOfWork (Session.sequential R tenant encryptor)) c).run db
      = .ok (r, db')) :
    ∃ m at_ descriptor, svc.embeddingProvider.profile.descriptor = .ok descriptor ∧
      NextVersion svc (Session.sequential R tenant encryptor) c.memoryId c.expectedVersion
        (updateArgs c at_ descriptor) m r db db' := by
  simp only [updateBody, Txn.bind_ok, Txn.ofExcept_ok, Txn.pure_ok, raiseIf_ok] at h
  obtain ⟨m, db₁, hcur, at_, _, hat, _, _, ⟨-, rfl⟩, _, db₂, hrel, descriptor, _, ⟨hdesc, rfl⟩,
    m', _, ⟨hevolve, rfl⟩, vector, _, hvec, persisted, db₃, hupd, _, _, hstore, rfl, rfl⟩ := h
  obtain ⟨-, rfl⟩ := now_ok hat
  obtain ⟨hvector, -, rfl⟩ := embedChecked_ok hvec
  have hcontent : (if m'.content ≠ m.content then m'.content else m.content) = m'.content := by
    split
    · rfl
    · rename_i hsame
      exact (not_not.mp hsame).symm
  rw [hcontent] at hvector
  have hrel := keeps_checkRelated _ _ _ _ _ _ hrel
  have hstore := keeps_storeRelation _ _ _ _ _ _ _ hstore
  obtain ⟨-, hnext⟩ := nextVersion_of_update hcur hevolve hrel hvector hupd
  exact ⟨m, at_, descriptor, hdesc, hnext.congr rfl hstore⟩

/-- A successful `update` is a replay or stores the next version. -/
theorem serviceUpdate_ok {svc : MemoryApplicationService R} {c : UpdateMemoryCommand R}
    {r : Memory R} {db db' : Database R}
    (h : (svc.update (postgresUnitOfWork (Session.sequential R tenant encryptor)) c).run db
      = .ok (r, db')) :
    let ledgered := ((truthyKey c.idempotencyKey).map fun k =>
      (c.ownerId, IdempotencyOperationType.update, k)).any (db.ledgered tenant)
    (ledgered = true ∧ db'.index = db.index) ∨
    (ledgered = false ∧ ∃ m at_ descriptor,
      svc.embeddingProvider.profile.descriptor = .ok descriptor ∧
      NextVersion svc (Session.sequential R tenant encryptor) c.memoryId c.expectedVersion
        (updateArgs c at_ descriptor) m r db db') := by
  simp only [MemoryApplicationService.update, Txn.bind_ok, Txn.ofExcept_ok] at h
  obtain ⟨_, _, ⟨-, rfl⟩, h⟩ := h
  cases hkey : truthyKey c.idempotencyKey with
  | none =>
    rw [hkey] at h
    exact .inr ⟨rfl, updateBody_ok h⟩
  | some k =>
    rw [hkey] at h
    rcases ledgered_ok (fun claim => keeps_replayVersion _ _ claim _ _) h with
      hreplay | ⟨hfresh, claim, db₁, hindex, hbody⟩
    · exact .inl hreplay
    · simp only [Txn.bind_ok, Txn.pure_ok] at hbody
      obtain ⟨persisted, db₃, hbody, _, _, hdone, rfl, rfl⟩ := hbody
      obtain ⟨m, at_, descriptor, hdesc, hnext⟩ := updateBody_ok hbody
      exact .inr ⟨hfresh, m, at_, descriptor, hdesc,
        hnext.congr hindex (keeps_complete _ _ _ _ _ _ _ hdone)⟩

/-- A successful `confirm_candidate` is a replay or stores the next version. -/
theorem confirmCandidate_ok {svc : MemoryApplicationService R} {c : ConfirmCandidateCommand}
    {r : Memory R} {db db' : Database R}
    (h : (svc.confirmCandidate (postgresUnitOfWork (Session.sequential R tenant encryptor))
      c).run db = .ok (r, db')) :
    (db.ledgered tenant (c.ownerId, .confirm, c.idempotencyKey) = true ∧ db'.index = db.index) ∨
    (db.ledgered tenant (c.ownerId, .confirm, c.idempotencyKey) = false ∧ ∃ m at_ descriptor,
      svc.embeddingProvider.profile.descriptor = .ok descriptor ∧
      NextVersion svc (Session.sequential R tenant encryptor) c.memoryId c.expectedVersion
        { now := at_, state := some .confirmed, changeReason := c.actorReason,
          embedding := some (some descriptor), content := c.content,
          memoryType := c.memoryType, space := c.space.map some } m r db db') := by
  obtain ⟨_, _, hscope, h₁⟩ := Txn.bind_ok.mp h
  obtain ⟨-, rfl⟩ := validateScope_ok hscope
  obtain ⟨_, _, hmut, h₂⟩ := Txn.bind_ok.mp h₁
  obtain ⟨-, rfl⟩ := validateMutationScope_ok hmut
  rcases ledgered_ok (fun claim => keeps_replayVersion _ _ claim _ _) h₂ with
    hreplay | ⟨hfresh, claim, db₁, hindex, hbody⟩
  · exact .inl hreplay
  · simp only [Txn.bind_ok, raiseIf_ok, Txn.ofExcept_ok, Txn.pure_ok] at hbody
    obtain ⟨m, db₃, hcur, _, _, ⟨-, rfl⟩, at_, _, hat, descriptor, _, ⟨hdesc, rfl⟩, m', _,
      ⟨hevolve, rfl⟩, vector, _, hvec, persisted, db₄, hupd, _, _, hdone, rfl, rfl⟩ := hbody
    obtain ⟨-, rfl⟩ := now_ok hat
    obtain ⟨hvector, -, rfl⟩ := embedChecked_ok hvec
    obtain ⟨-, hnext⟩ := nextVersion_of_update hcur hevolve rfl hvector hupd
    exact .inr ⟨hfresh, m, at_, descriptor, hdesc,
      hnext.congr hindex (keeps_complete _ _ _ _ _ _ _ hdone)⟩

/-! ## Reads of the import path -/

theorem keeps_findByIdempotencyKey (o k : String) :
    Txn.Keeps Database.index
      (findByIdempotencyKey (Session.sequential R tenant encryptor) o k) := by
  refine (Txn.Keeps.ofExcept _).bind fun _ => (keeps_execute rfl).bind fun row => ?_
  cases row with
  | none => exact .pure _
  | some row => exact (Txn.Keeps.ofExcept _).bind fun _ => .pure _

theorem keeps_history (o : String) (i : UUID) :
    Txn.Keeps Database.index (history (Session.sequential R tenant encryptor) o i) :=
  (Txn.Keeps.ofExcept _).bind fun _ => (keeps_get o i).bind fun _ =>
    (keeps_raiseIf _ _).bind fun _ => (keeps_execute rfl).bind fun _ => .ofExcept _

theorem keeps_listRelations (o : String) (i : UUID) :
    Txn.Keeps Database.index (listRelations (Session.sequential R tenant encryptor) o i) :=
  (Txn.Keeps.ofExcept _).bind fun _ => keeps_execute rfl

theorem keeps_isTombstoned (o : String) (i : UUID) :
    Txn.Keeps Database.index
      (PostgresMemoryAdminRepository.isTombstoned (Session.sequential R tenant encryptor) o i) :=
  (Txn.Keeps.ofExcept _).bind fun _ => keeps_execute rfl

theorem keeps_exportVector (i : UUID) (memory : Memory R) (includeEmbeddings : Bool) :
    Txn.Keeps Database.index (PostgresMemoryAdminRepository.exportVector
      (Session.sequential R tenant encryptor) i memory includeEmbeddings) := by
  unfold PostgresMemoryAdminRepository.exportVector
  cases includeEmbeddings with
  | false => exact .pure _
  | true =>
    dsimp only
    split
    · exact .throw _
    · exact (Txn.Keeps.ofExcept _).bind fun _ => keeps_execute rfl

/-- Exporting a memory keeps the index. -/
theorem keeps_exportMemory (o : String) (i : UUID) (includeEmbeddings : Bool) :
    Txn.Keeps Database.index (PostgresMemoryAdminRepository.exportMemory
      (Session.sequential R tenant encryptor) o i includeEmbeddings) := by
  refine (Txn.Keeps.ofExcept _).bind fun _ => (keeps_execute rfl).bind fun row => ?_
  cases row with
  | none => exact .pure _
  | some row =>
    exact (Txn.Keeps.ofExcept _).bind fun _ => (keeps_exportVector _ _ _).bind fun _ =>
      (keeps_history _ _).bind fun _ => (keeps_listRelations _ _).bind fun _ => .pure _

theorem keeps_checkEndpoints (o : String) (ids endpoints : List UUID) :
    Txn.Keeps Database.index (checkEndpoints
      (postgresUnitOfWork (Session.sequential R tenant encryptor)) o ids endpoints) := by
  induction endpoints with
  | nil => exact .pure _
  | cons endpoint rest ih =>
    unfold checkEndpoints
    split
    · exact ih
    · exact (keeps_get _ _).bind fun _ => (keeps_raiseIf _ _).bind fun _ => ih

theorem keeps_existingRecords (o : String) (records : List (MemoryRecordDto R)) :
    Txn.Keeps Database.index (existingRecords
      (postgresUnitOfWork (Session.sequential R tenant encryptor)) o records) := by
  induction records with
  | nil => exact .pure _
  | cons record rest ih =>
    refine (keeps_exportMemory _ _ _).bind fun current => ?_
    cases current with
    | none =>
      exact (keeps_isTombstoned _ _).bind fun _ => (keeps_raiseIf _ _).bind fun _ => ih
    | some current => exact (keeps_raiseIf _ _).bind fun _ => ih.bind fun _ => .pure _

/-- Importing relations keeps it too. -/
theorem keeps_importRelations (seen : List RelationKey) (relations : List Relation) :
    Txn.Keeps Database.index (PostgresMemoryAdminRepository.importRelations
      (Session.sequential R tenant encryptor) seen relations) := by
  induction relations generalizing seen with
  | nil => exact .pure _
  | cons relation rest ih =>
    unfold PostgresMemoryAdminRepository.importRelations
    split
    · exact ih _
    · exact (keeps_execute rfl).bind fun _ => ih _

/-! ## Insertions -/

/-- A new memory with its vector: the row goes into `memories`, which had none under the id,
and the vector into the table of its dimension. -/
structure Inserted (session : Session (DbTxn R) R) (memory : Memory R) (vector : List R)
    (db db' : Database R) : Prop where
  absent : db.memories.get? memory.id = none
  stored : ∃ fingerprint row, session.memoryValues memory fingerprint = .ok row ∧
    db'.memories = db.memories.set memory.id row
  embedded : ∃ table values, tableOf memory = .ok table ∧
    session.embeddingValues memory vector = .ok values ∧
    ((table = .hash ∧ db'.embeddings = db.embeddings.set memory.id values.row ∧
        db'.semantic = db.semantic) ∨
      (table = .semantic ∧ db'.embeddings = db.embeddings ∧ ∃ v, values.sourceVersion = some v ∧
        db'.semantic = db.semantic.set (memory.id, values.profileId, values.profileVersion)
          (values.semanticRow v)))

/-- Steps before and after that leave the index alone do not matter. -/
theorem Inserted.congr {session : Session (DbTxn R) R} {memory : Memory R} {vector : List R}
    {db db₁ db₂ db' : Database R} (h : Inserted session memory vector db₁ db₂)
    (hbefore : db₁.index = db.index) (hafter : db'.index = db₂.index) :
    Inserted session memory vector db db' := by
  obtain ⟨hmemories, hrest⟩ := Prod.mk.inj hbefore
  obtain ⟨hembeddings, hsemantic⟩ := Prod.mk.inj hrest
  obtain ⟨hmemories', hrest'⟩ := Prod.mk.inj hafter
  obtain ⟨hembeddings', hsemantic'⟩ := Prod.mk.inj hrest'
  obtain ⟨habsent, ⟨fingerprint, row, hrow, hstored⟩, hembedded⟩ := h
  refine ⟨hmemories ▸ habsent, ⟨fingerprint, row, hrow, ?_⟩, ?_⟩
  · rw [hmemories', hstored, hmemories]
  · rw [hembeddings', hsemantic', ← hembeddings, ← hsemantic]
    exact hembedded

omit [Python R] in
/-- An INSERT that stores the row has found its id free. -/
theorem insertMemory_true {onConflict : OnConflict} {i : UUID} {row : MemoryRow R}
    {db db' : Database R} (h : db.insertMemory onConflict i row = .ok (true, db')) :
    db.memories.get? i = none ∧ db' = { db with memories := db.memories.set i row } := by
  unfold Database.insertMemory at h
  split at h
  · cases h
  · split at h
    · cases h
    · split at h
      · cases h
      · rename_i hfree
        obtain ⟨-, rfl⟩ := Prod.mk.inj (Except.ok.inj h)
        simp only [Bool.or_eq_true, not_or, Bool.not_eq_true] at hfree
        exact ⟨(Dict.contains_eq_false_iff _ _).mp hfree.1, rfl⟩

omit [Python R] in
/-- One that does not changes nothing. -/
theorem insertMemory_false {onConflict : OnConflict} {i : UUID} {row : MemoryRow R}
    {db db' : Database R} (h : db.insertMemory onConflict i row = .ok (false, db')) : db' = db := by
  unfold Database.insertMemory at h
  split at h
  · exact (Prod.mk.inj (Except.ok.inj h)).2.symm
  · split at h
    · exact (Prod.mk.inj (Except.ok.inj h)).2.symm
    · split at h <;> cases h

omit [Python R] in
/-- What `INSERT` into an embedding table does. -/
theorem insertEmbedding_ok {table : EmbeddingTable} {i : UUID} {values : EmbeddingValues R}
    {db db' : Database R} (h : db.insertEmbedding table i values = .ok db') :
    db'.memories = db.memories ∧
    ((table = .hash ∧ db'.embeddings = db.embeddings.set i values.row ∧
        db'.semantic = db.semantic) ∨
      (table = .semantic ∧ db'.embeddings = db.embeddings ∧ ∃ v, values.sourceVersion = some v ∧
        db'.semantic = db.semantic.set (i, values.profileId, values.profileVersion)
          (values.semanticRow v))) := by
  unfold Database.insertEmbedding at h
  obtain ⟨_, -, h⟩ := except_bind_ok.mp h
  obtain ⟨_, -, h⟩ := except_bind_ok.mp h
  cases table with
  | hash =>
    obtain ⟨_, -, h⟩ := except_bind_ok.mp h
    obtain rfl := except_pure_ok.mp h
    exact ⟨rfl, .inl ⟨rfl, rfl, rfl⟩⟩
  | semantic =>
    obtain ⟨_, -, h⟩ := except_bind_ok.mp h
    cases hsource : values.sourceVersion with
    | none =>
      rw [hsource] at h
      cases h
    | some v =>
      rw [hsource] at h
      obtain rfl := except_pure_ok.mp h
      exact ⟨rfl, .inr ⟨rfl, rfl, v, rfl, rfl⟩⟩

/-- The statements that insert a memory and its vector. -/
theorem inserted_of_statements {memory : Memory R} {vector : List R} {onConflict : OnConflict}
    {fingerprint : Option String} {row : MemoryRow R} {table : EmbeddingTable}
    {values : EmbeddingValues R} {db db₁ db₂ : Database R}
    (hrow : (Session.sequential R tenant encryptor).memoryValues memory fingerprint = .ok row)
    (hinsert : db.insertMemory onConflict memory.id row = .ok (true, db₁))
    (htable : tableOf memory = .ok table)
    (hvalues : (Session.sequential R tenant encryptor).embeddingValues memory vector = .ok values)
    (hembed : db₁.insertEmbedding table memory.id values = .ok db₂) :
    Inserted (Session.sequential R tenant encryptor) memory vector db db₂ := by
  obtain ⟨habsent, rfl⟩ := insertMemory_true hinsert
  obtain ⟨hmemories, hcases⟩ := insertEmbedding_ok hembed
  exact ⟨habsent, ⟨fingerprint, row, hrow, hmemories⟩, table, values, htable, hvalues, hcases⟩

/-- A successful `create` inserted the memory, or answered with the one of the key. -/
theorem create_ok {memory : Memory R} {fp : String} {vector : List R} {r : WriteMemoryResult R}
    {db db' : Database R}
    (h : (create (Session.sequential R tenant encryptor) memory fp vector).run db = .ok (r, db')) :
    Inserted (Session.sequential R tenant encryptor) memory vector db db' ∨
      db'.index = db.index := by
  simp only [create, Txn.bind_ok, Txn.ofExcept_ok] at h
  obtain ⟨_, _, ⟨-, rfl⟩, row, db₀, ⟨hrow, rfl⟩, inserted, db₁, hinsert, hrest⟩ := h
  replace hinsert := Txn.rethrow_ok.mp hinsert
  -- inserted, with its vector and its version
  cases inserted with
  | true =>
    rw [if_pos rfl] at hrest
    simp only [Txn.bind_ok, Txn.ofExcept_ok, Txn.pure_ok] at hrest
    obtain ⟨table, _, ⟨htable, rfl⟩, values, _, ⟨hvalues, rfl⟩, _, db₂, hembed, version, _,
      ⟨-, rfl⟩, _, _, hversions, -, rfl⟩ := hrest
    exact .inl ((inserted_of_statements hrow hinsert htable hvalues (of_map_ok hembed)).congr rfl
      (keeps_execute rfl _ _ _ hversions))
  -- not inserted: the prior memory is read
  | false =>
    rw [if_neg Bool.false_ne_true] at hrest
    obtain rfl := insertMemory_false hinsert
    obtain ⟨prior, db₂, hprior, hrest⟩ := Txn.bind_ok.mp hrest
    have hindex := keeps_findByIdempotencyKey _ _ _ _ _ hprior
    cases prior with
    | none => cases hrest
    | some prior =>
      simp only [Txn.bind_ok, raiseIf_ok, Txn.pure_ok] at hrest
      obtain ⟨_, _, ⟨-, rfl⟩, -, rfl⟩ := hrest
      exact .inr hindex

/-- What importing a record does to the index: it is inserted with its vector, or left out. -/
theorem importRecord_ok {record : MemoryRecordDto R} {stored : Bool} {db db' : Database R}
    (h : (PostgresMemoryAdminRepository.importRecord (Session.sequential R tenant encryptor)
      record).run db = .ok (stored, db')) :
    (∃ vector, record.embedding = some vector ∧
      Inserted (Session.sequential R tenant encryptor) record.memory vector db db') ∨
      db'.index = db.index := by
  simp only [PostgresMemoryAdminRepository.importRecord, Txn.bind_ok, Txn.ofExcept_ok,
    raiseIf_ok] at h
  obtain ⟨_, _, ⟨-, rfl⟩, _, _, htomb, _, _, ⟨-, rfl⟩, row, db₁, ⟨hrow, rfl⟩, inserted, db₂,
    hinsert, hrest⟩ := h
  replace hinsert : db₁.insertMemory .id record.memory.id row = .ok (inserted, db₂) :=
    Txn.rethrow_ok.mp hinsert
  have htomb := keeps_isTombstoned _ _ _ _ _ htomb
  -- a new record is inserted like a new memory
  cases inserted with
  | true =>
    rw [if_pos rfl] at hrest
    cases hembedding : record.embedding with
    | none =>
      rw [hembedding] at hrest
      cases hrest
    | some vector =>
      rw [hembedding] at hrest
      obtain ⟨_, db₃, hrows, hpure⟩ := Txn.bind_ok.mp hrest
      obtain ⟨-, rfl⟩ := Txn.pure_ok.mp hpure
      replace hrows := Txn.rethrow_ok.mp hrows
      simp only [PostgresMemoryAdminRepository.importRows, Txn.bind_ok, Txn.ofExcept_ok,
        Txn.pure_ok] at hrows
      obtain ⟨table, _, ⟨htable, rfl⟩, values, _, ⟨hvalues, rfl⟩, _, db₄, hembed, versions, _,
        ⟨-, rfl⟩, _, _, hversions, -, rfl⟩ := hrows
      exact .inl ⟨vector, rfl, (inserted_of_statements hrow hinsert htable hvalues
        (of_map_ok hembed)).congr htomb (keeps_execute rfl _ _ _ hversions)⟩
  | false =>
    rw [if_neg Bool.false_ne_true] at hrest
    obtain rfl := insertMemory_false hinsert
    simp only [Txn.bind_ok, raiseIf_ok, Txn.pure_ok] at hrest
    obtain ⟨current, db₃, hget, _, _, ⟨-, rfl⟩, -, rfl⟩ := hrest
    exact .inr ((keeps_get _ _ _ _ _ hget).trans htomb)

end Bodies

end OpenMemory.Postgres
