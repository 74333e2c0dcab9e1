import OpenMemory.Application.Reference
import OpenMemory.Lib.Interleave
import OpenMemory.Postgres.Effects
import OpenMemory.Postgres.Transactions

/-!
# Rows, locks and interleaved units of work

The instance of `Lib.Interleave` for this database: the rows that a statement waits for and
holds, and units of work as programs whose statements interleave under READ COMMITTED.

A statement waits for the rows that it would write if another transaction has written or
locked them: an `UPDATE` or `DELETE` for the rows that match, an `INSERT` for the entries of the
unique indexes, `SELECT … FOR UPDATE` for the row it finds. An `INSERT … ON CONFLICT DO NOTHING`
that does nothing holds nothing. The share locks of foreign keys are left out: they only make
more statements wait, so every interleaving of PostgreSQL is one here.
-/

namespace OpenMemory.Postgres

open Lib
open MonadExcept (ofExcept)

variable {R : Type} [Python R]

/-- A row, or an entry of the unique index on the idempotency keys of memories. -/
inductive RowKey
  | memory (memoryId : UUID)
  | ownerKey (ownerId idempotencyKey : String)
  | version (memoryId : UUID) (version : Int)
  | embedding (memoryId : UUID)
  | semantic (key : SemanticKey)
  | relation (key : RelationKey)
  | operation (key : OperationKey)
  | tombstone (ownerId : String) (memoryId : UUID)
  deriving DecidableEq

namespace Database

/-- The two databases agree on a row. -/
def SameAt (db db' : Database R) : RowKey → Prop
  | .memory i => db.memories.get? i = db'.memories.get? i
  | .ownerKey _ _ => True
  | .version i v => db.versions.get? (i, v) = db'.versions.get? (i, v)
  | .embedding i => db.embeddings.get? i = db'.embeddings.get? i
  | .semantic k => db.semantic.get? k = db'.semantic.get? k
  | .relation k => db.relations.get? k = db'.relations.get? k
  | .operation k => db.operations.get? k = db'.operations.get? k
  | .tombstone o i => db.tombstones.get? (o, i) = db'.tombstones.get? (o, i)

/-- The database with the held rows taken from `own`. -/
def overlay (base own : Database R) (held : List RowKey) : Database R where
  memories := base.memories.overlay own.memories fun i => decide (.memory i ∈ held)
  versions := base.versions.overlay own.versions fun k => decide (.version k.1 k.2 ∈ held)
  embeddings := base.embeddings.overlay own.embeddings fun i => decide (.embedding i ∈ held)
  semantic := base.semantic.overlay own.semantic fun k => decide (.semantic k ∈ held)
  relations := base.relations.overlay own.relations fun k => decide (.relation k ∈ held)
  operations := base.operations.overlay own.operations fun k => decide (.operation k ∈ held)
  tombstones := base.tombstones.overlay own.tombstones fun k => decide (.tombstone k.1 k.2 ∈ held)

omit [Python R] in
/-- In what it holds, a transaction sees its own rows. -/
theorem overlay_of_mem {base own : Database R} {held : List RowKey} {k : RowKey} (h : k ∈ held) :
    (base.overlay own held).SameAt own k := by
  cases k with
  | ownerKey => trivial
  | _ =>
    refine (Dict.get?_overlay _ _ _ _).trans ?_
    exact if_pos (decide_eq_true h)

omit [Python R] in
/-- Elsewhere it sees the committed ones. -/
theorem overlay_of_not_mem {base own : Database R} {held : List RowKey} {k : RowKey}
    (h : k ∉ held) : (base.overlay own held).SameAt base k := by
  cases k with
  | ownerKey => trivial
  | _ =>
    refine (Dict.get?_overlay _ _ _ _).trans ?_
    exact if_neg (fun hmem => h (of_decide_eq_true hmem))

end Database

/-! ## The rows of a statement -/

/-- The index entry of a row of `memories`. -/
def MemoryRow.indexEntry (row : MemoryRow R) : List RowKey :=
  match row.idempotencyKey with
  | none => []
  | some key => [.ownerKey row.ownerId key]

/-- The rows that go with a memory. -/
def Database.children (db : Database R) (memoryId : UUID) : List RowKey :=
  (db.versions.keys.filter fun k => decide (k.1 = memoryId)).map (fun k => .version k.1 k.2) ++
    .embedding memoryId ::
    (db.semantic.keys.filter fun k => decide (k.1 = memoryId)).map .semantic ++
    (db.relations.items.filter fun e => decide (e.2.relation.sourceId = memoryId) ||
      decide (e.2.relation.targetId = memoryId)).map fun e => .relation e.1

/-- The rows that the statement waits for. -/
def Statement.awaits (tenant : Option UUID) : Statement R → Database R → List RowKey
  | .insertMemory _ i row, _ => .memory i :: row.indexEntry
  | .updateMemory i o v _, db =>
    match (db.owned tenant o i).filter fun row => decide (row.version = v) with
    | none => []
    | some _ => [.memory i]
  | .deleteMemory o i, db =>
    match db.owned tenant o i with
    | none => []
    | some row => .memory i :: row.indexEntry ++ db.children i
  | .insertVersions rows, _ => rows.map fun e => .version e.1.1 e.1.2
  | .insertEmbedding .hash i _, _ => [.embedding i]
  | .insertEmbedding .semantic i values, _ =>
    [.semantic (i, values.profileId, values.profileVersion)]
  | .updateEmbedding .hash i _, db =>
    match (db.embeddings.get? i).filter fun row => decide (row.tenantId = tenant) with
    | none => []
    | some _ => [.embedding i]
  | .updateEmbedding .semantic i values, db =>
    match db.semanticRows tenant i with
    | [] => []
    | rows => .semantic (i, values.profileId, values.profileVersion) ::
        rows.map fun e => .semantic e.1
  | .insertTombstone o i, _ => [.tombstone o i]
  | .insertRelation _ relation, _ => [.relation relation.key]
  | .selectOperation key, db =>
    match (db.operations.get? key).filter fun row => decide (row.tenantId = tenant) with
    | none => []
    | some _ => [.operation key]
  | .insertOperation key _, _ => [.operation key]
  | .completeOperation key fingerprint _ _ _, db =>
    match (db.operations.get? key).filter fun row => decide (row.tenantId = tenant) &&
        decide (row.fingerprint = fingerprint) && decide (row.status = .inProgress) with
    | none => []
    | some _ => [.operation key]
  | .upsertSemantic i _ profile _, _ => [.semantic (i, profile.id, profile.version)]
  | .cutover o _, db => (db.eligible tenant o).map fun e => .memory e.1
  | .rewrapMemory i _, db =>
    match db.visible tenant i with
    | none => []
    | some _ => [.memory i]
  | .rewrapVersion i v _, db =>
    match (db.versions.get? (i, v)).filter fun row => decide (row.tenantId = tenant) with
    | none => []
    | some _ => [.version i v]
  | _, _ => []

/-- The rows that the statement holds afterwards. -/
def Statement.locks (tenant : Option UUID) (q : Statement R) (db : Database R) : List RowKey :=
  match q with
  | .insertMemory onConflict i row =>
    match db.insertMemory onConflict i row with
    | .ok (true, _) => .memory i :: row.indexEntry
    | _ => []
  | .insertTombstone o i => if db.tombstones.contains (o, i) then [] else [.tombstone o i]
  | .insertRelation _ relation =>
    if db.relations.contains relation.key then [] else [.relation relation.key]
  | .insertOperation key _ => if db.operations.contains key then [] else [.operation key]
  | q => q.awaits tenant db

omit [Python R] in
/-- A statement waits for whatever it locks. -/
theorem Statement.locks_subset (tenant : Option UUID) (q : Statement R) (db : Database R) :
    q.locks tenant db ⊆ q.awaits tenant db := by
  cases q with
  | insertMemory onConflict i row =>
    simp only [locks, awaits]
    split
    · exact List.Subset.refl _
    · exact List.nil_subset _
  | insertTombstone | insertRelation | insertOperation =>
    simp only [locks, awaits]
    split
    · exact List.nil_subset _
    · exact List.Subset.refl _
  | _ => exact List.Subset.refl _

/-- The table of a row, or the index of an entry. -/
inductive RowKind
  | memory | ownerKey | version | embedding | semantic | relation | operation | tombstone
  deriving DecidableEq

def RowKey.kind : RowKey → RowKind
  | .memory _ => .memory
  | .ownerKey _ _ => .ownerKey
  | .version _ _ => .version
  | .embedding _ => .embedding
  | .semantic _ => .semantic
  | .relation _ => .relation
  | .operation _ => .operation
  | .tombstone _ _ => .tombstone

/-- The tables in which the statement may hold rows. -/
def Statement.kinds : Statement R → List RowKind
  | .insertMemory _ _ _ => [.memory, .ownerKey]
  | .updateMemory _ _ _ _ => [.memory]
  | .deleteMemory _ _ => [.memory, .ownerKey, .version, .embedding, .semantic, .relation]
  | .insertVersions _ => [.version]
  | .insertEmbedding .hash _ _ => [.embedding]
  | .insertEmbedding .semantic _ _ => [.semantic]
  | .updateEmbedding .hash _ _ => [.embedding]
  | .updateEmbedding .semantic _ _ => [.semantic]
  | .insertTombstone _ _ => [.tombstone]
  | .insertRelation _ _ => [.relation]
  | .selectOperation _ => [.operation]
  | .insertOperation _ _ => [.operation]
  | .completeOperation _ _ _ _ _ => [.operation]
  | .upsertSemantic _ _ _ _ => [.semantic]
  | .cutover _ _ => [.memory]
  | .rewrapMemory _ _ => [.memory]
  | .rewrapVersion _ _ _ => [.version]
  | _ => []

omit [Python R] in
theorem kind_of_indexEntry {row : MemoryRow R} {k : RowKey} (hk : k ∈ row.indexEntry) :
    k.kind = .ownerKey := by
  unfold MemoryRow.indexEntry at hk
  split at hk
  · cases hk
  · obtain rfl := List.mem_singleton.mp hk
    rfl

omit [Python R] in
/-- What belongs to a memory are versions, embeddings and relations. -/
theorem kind_of_children {db : Database R} {i : UUID} {k : RowKey} (hk : k ∈ db.children i) :
    k.kind ∈ [RowKind.version, .embedding, .semantic, .relation] := by
  unfold Database.children at hk
  simp only [List.cons_append, List.append_assoc, List.mem_append, List.mem_cons,
    List.mem_map] at hk
  rcases hk with ⟨_, -, rfl⟩ | rfl | ⟨_, -, rfl⟩ | ⟨_, -, rfl⟩ <;> simp [RowKey.kind]

omit [Python R] in
/-- A statement waits for rows of its kinds only. -/
theorem kind_of_awaits {tenant : Option UUID} {q : Statement R} {db : Database R} {k : RowKey}
    (hk : k ∈ q.awaits tenant db) : k.kind ∈ q.kinds := by
  cases q with
  -- a memory, and the entry of the index on owner and key
  | insertMemory onConflict i row =>
    rcases List.mem_cons.mp hk with rfl | hk
    · exact List.mem_cons_self
    · rw [kind_of_indexEntry hk]
      exact List.mem_cons_of_mem _ List.mem_cons_self
  -- with it go the rows that refer to it
  | deleteMemory o i =>
    simp only [Statement.awaits] at hk
    split at hk
    · cases hk
    · rcases List.mem_append.mp hk with hk | hk
      · rcases List.mem_cons.mp hk with rfl | hk
        · exact List.mem_cons_self
        · rw [kind_of_indexEntry hk]
          exact List.mem_cons_of_mem _ List.mem_cons_self
      · exact List.mem_cons_of_mem _ (List.mem_cons_of_mem _ (kind_of_children hk))
  | insertVersions rows =>
    obtain ⟨e, -, rfl⟩ := List.mem_map.mp hk
    exact List.mem_cons_self
  | cutover o profile =>
    obtain ⟨e, -, rfl⟩ := List.mem_map.mp hk
    exact List.mem_cons_self
  -- one row of the chosen table
  | insertEmbedding table i values =>
    cases table <;>
    · obtain rfl := List.mem_singleton.mp hk
      exact List.mem_cons_self
  | updateEmbedding table i values =>
    cases table with
    | hash =>
      simp only [Statement.awaits] at hk
      split at hk
      · cases hk
      · obtain rfl := List.mem_singleton.mp hk
        exact List.mem_cons_self
    -- the row that is there, and the row under the new key
    | semantic =>
      simp only [Statement.awaits] at hk
      split at hk
      · cases hk
      · rcases List.mem_cons.mp hk with rfl | hk
        · exact List.mem_cons_self
        · obtain ⟨e, -, rfl⟩ := List.mem_map.mp hk
          exact List.mem_cons_self
  -- the row that meets the condition, or none
  | updateMemory | selectOperation | completeOperation | rewrapMemory | rewrapVersion =>
    simp only [Statement.awaits] at hk
    split at hk
    · cases hk
    · obtain rfl := List.mem_singleton.mp hk
      exact List.mem_cons_self
  | insertTombstone | insertRelation | insertOperation | upsertSemantic =>
    obtain rfl := List.mem_singleton.mp hk
    exact List.mem_cons_self
  | _ => cases hk

omit [Python R] in
/-- A statement holds no rows in other tables. -/
theorem not_mem_locks {tenant : Option UUID} {q : Statement R} {db : Database R} {k : RowKey}
    (hkind : k.kind ∉ q.kinds) : k ∉ q.locks tenant db :=
  fun hk => hkind (kind_of_awaits (Statement.locks_subset tenant q db hk))

/-! ## Frames -/

section Frame

variable {tenant : Option UUID} {db db' : Database R} {k : RowKey}

omit [Python R] in
theorem sameAt_refl (db : Database R) (k : RowKey) : db.SameAt db k := by
  cases k <;> first | rfl | trivial

omit [Python R] in
theorem sameAt_insertVersions {rows : List ((UUID × Int) × VersionRow R)}
    (h : db.insertVersions rows = .ok db') (hk : k ∉ rows.map fun e => RowKey.version e.1.1 e.1.2) :
    db'.SameAt db k := by
  induction rows generalizing db with
  | nil =>
    cases h
    exact sameAt_refl _ _
  | cons row rest ih =>
    obtain ⟨key, values⟩ := row
    unfold Database.insertVersions at h
    split at h
    · cases h
    · rw [List.map_cons, List.mem_cons, not_or] at hk
      have hrest := ih h hk.2
      cases k with
      | version i v =>
        refine hrest.trans (Dict.get?_set_of_ne _ _ ?_)
        rintro rfl
        exact hk.1 rfl
      | _ => exact hrest

omit [Python R] in
/-- An INSERT of a memory changes the rows that it locks. -/
theorem sameAt_insertMemory {onConflict : OnConflict} {i : UUID} {row : MemoryRow R} {r : Bool}
    (h : db.insertMemory onConflict i row = .ok (r, db'))
    (hk : k ∉ Statement.locks tenant (.insertMemory onConflict i row) db) : db'.SameAt db k := by
  simp only [Statement.locks] at hk
  cases r with
  | true =>
    rw [h] at hk
    obtain ⟨-, rfl⟩ := insertMemory_true h
    cases k with
    | memory j =>
      refine Dict.get?_set_of_ne _ _ ?_
      rintro rfl
      exact hk List.mem_cons_self
    | ownerKey => trivial
    | _ => rfl
  | false =>
    obtain rfl := insertMemory_false h
    exact sameAt_refl _ _

omit [Python R] in
/-- So does an UPDATE. -/
theorem sameAt_updateMemory {i : UUID} {o : String} {v : Int} {values : MemoryValues R} {r : Nat}
    (h : db.updateMemory tenant i o v values = (r, db'))
    (hk : k ∉ Statement.locks tenant (.updateMemory i o v values) db) : db'.SameAt db k := by
  replace hk : k ∉ Statement.awaits tenant (.updateMemory i o v values) db := hk
  simp only [Statement.awaits] at hk
  unfold Database.updateMemory at h
  cases hrow : (db.owned tenant o i).filter fun row => decide (row.version = v) with
  | none =>
    rw [hrow] at h
    obtain ⟨-, rfl⟩ := Prod.mk.inj h
    exact sameAt_refl _ _
  | some row =>
    rw [hrow] at h hk
    obtain ⟨-, rfl⟩ := Prod.mk.inj h
    cases k with
    | memory j =>
      refine Dict.get?_set_of_ne _ _ ?_
      rintro rfl
      exact hk List.mem_cons_self
    | ownerKey => trivial
    | _ => rfl

omit [Python R] in
/-- A deletion with its cascades touches the rows of the memory only. -/
theorem sameAt_deleteMemory {i : UUID} (hmemory : k ≠ .memory i) (hk : k ∉ db.children i) :
    (db.deleteMemory i).SameAt db k := by
  unfold Database.children at hk
  simp only [List.cons_append, List.append_assoc, List.mem_append, List.mem_cons, List.mem_map,
    List.mem_filter, not_or, not_exists, not_and] at hk
  obtain ⟨hversion, hembedding, hsemantic, hrelation⟩ := hk
  -- a row that is kept passes the filter of its table
  have hkeep : ∀ {κ ν : Type} [DecidableEq κ] (d : Dict κ ν) (p : κ → ν → Bool) (key : κ),
      (∀ row, d.get? key = some row → p key row = true) →
      (d.filter p).get? key = d.get? key := by
    intro κ ν _ d p key hp
    rw [Dict.get?_filter]
    cases hrow : d.get? key with
    | none => rfl
    | some row => exact Option.filter_some_pos (hp row hrow)
  cases k with
  | memory j =>
    refine Dict.get?_pop_of_ne _ ?_
    rintro rfl
    exact hmemory rfl
  | version j v =>
    refine hkeep db.versions _ _ fun row hrow => decide_eq_true ?_
    rintro rfl
    refine hversion (j, v) ⟨?_, decide_eq_true rfl⟩ rfl
    exact List.mem_map.mpr ⟨_, (Dict.mem_items_iff _ _ _).mpr hrow, rfl⟩
  | embedding j =>
    refine Dict.get?_pop_of_ne _ ?_
    rintro rfl
    exact hembedding rfl
  | semantic key =>
    refine hkeep db.semantic _ _ fun row hrow => decide_eq_true ?_
    intro heq
    refine hsemantic key ⟨?_, decide_eq_true heq⟩ rfl
    exact List.mem_map.mpr ⟨_, (Dict.mem_items_iff _ _ _).mpr hrow, rfl⟩
  | relation key =>
    refine hkeep db.relations _ _ fun row hrow => ?_
    by_contra hout
    refine hrelation (key, row) ⟨(Dict.mem_items_iff _ _ _).mpr hrow, ?_⟩ rfl
    simpa [or_iff_not_imp_left] using hout
  | ownerKey => trivial
  | operation | tombstone => rfl

omit [Python R] in
/-- So does the INSERT of an embedding. -/
theorem sameAt_insertEmbedding {table : EmbeddingTable} {i : UUID} {values : EmbeddingValues R}
    (h : db.insertEmbedding table i values = .ok db')
    (hk : k ∉ Statement.locks tenant (.insertEmbedding table i values) db) : db'.SameAt db k := by
  unfold Database.insertEmbedding at h
  obtain ⟨_, -, h⟩ := except_bind_ok.mp h
  obtain ⟨_, -, h⟩ := except_bind_ok.mp h
  cases table with
  | hash =>
    obtain ⟨_, -, h⟩ := except_bind_ok.mp h
    obtain rfl := except_pure_ok.mp h
    -- the row of the memory in the hash table
    replace hk : k ∉ [RowKey.embedding i] := hk
    cases k with
    | embedding j =>
      refine Dict.get?_set_of_ne _ _ ?_
      rintro rfl
      exact hk List.mem_cons_self
    | ownerKey => trivial
    | _ => rfl
  | semantic =>
    obtain ⟨_, -, h⟩ := except_bind_ok.mp h
    -- the row of the profile in the semantic table
    replace hk : k ∉ [RowKey.semantic (i, values.profileId, values.profileVersion)] := hk
    cases hsource : values.sourceVersion with
    | none =>
      rw [hsource] at h
      cases h
    | some v =>
      rw [hsource] at h
      obtain rfl := except_pure_ok.mp h
      cases k with
      | semantic key =>
        refine Dict.get?_set_of_ne _ _ ?_
        rintro rfl
        exact hk List.mem_cons_self
      | ownerKey => trivial
      | _ => rfl

omit [Python R] in
/-- So does its UPDATE. -/
theorem sameAt_updateEmbedding {table : EmbeddingTable} {i : UUID} {values : EmbeddingValues R}
    (h : db.updateEmbedding tenant table i values = .ok db')
    (hk : k ∉ Statement.locks tenant (.updateEmbedding table i values) db) : db'.SameAt db k := by
  unfold Database.updateEmbedding at h
  obtain ⟨_, -, h⟩ := except_bind_ok.mp h
  cases table with
  | hash =>
    replace hk : k ∉ Statement.awaits tenant (.updateEmbedding .hash i values) db := hk
    simp only [Statement.awaits] at hk
    -- without a row nothing is written
    cases hrow : (db.embeddings.get? i).filter fun row => decide (row.tenantId = tenant) with
    | none =>
      simp only [hrow] at h
      obtain rfl := except_pure_ok.mp h
      exact sameAt_refl _ _
    | some row =>
      simp only [hrow] at h hk
      obtain rfl := except_pure_ok.mp h
      cases k with
      | embedding j =>
        refine Dict.get?_set_of_ne _ _ ?_
        rintro rfl
        exact hk List.mem_cons_self
      | ownerKey => trivial
      | _ => rfl
  | semantic =>
    replace hk : k ∉ Statement.awaits tenant (.updateEmbedding .semantic i values) db := hk
    simp only [Statement.awaits] at hk
    dsimp only at h hk
    -- several rows are an error, one is moved to its new key
    cases hrows : db.semanticRows tenant i with
    | nil =>
      rw [hrows] at h
      obtain rfl := except_pure_ok.mp h
      exact sameAt_refl _ _
    | cons first others =>
      rw [hrows] at h hk
      cases others with
      | cons second others => cases h
      | nil =>
        obtain ⟨_, -, h⟩ := except_bind_ok.mp h
        obtain rfl := except_pure_ok.mp h
        cases k with
        | semantic key =>
          refine (Dict.get?_set_of_ne _ _ ?_).trans (Dict.get?_pop_of_ne _ ?_)
          · rintro rfl
            exact hk List.mem_cons_self
          · rintro rfl
            exact hk (List.mem_cons_of_mem _ List.mem_cons_self)
        | ownerKey => trivial
        | _ => rfl

omit [Python R] in
/-- The cut-over changes rows of memories that are eligible. -/
theorem sameAt_cutover {o : String} {profile : EmbeddingProfile}
    (hk : k ∉ (db.eligible tenant o).map fun e => RowKey.memory e.1) :
    (db.cutover tenant o profile).SameAt db k := by
  cases k with
  | memory i =>
    refine (Dict.get?_mapValues _ _ _).trans ?_
    cases hrow : db.memories.get? i with
    | none => rfl
    | some row =>
      refine congrArg some (if_neg fun hsel => hk ?_)
      simp only [Bool.and_eq_true] at hsel
      refine List.mem_map.mpr ⟨(i, row), List.mem_filter.mpr ⟨List.mem_filter.mpr
        ⟨(Dict.mem_items_iff _ _ _).mpr hrow, ?_⟩, hsel.2⟩, rfl⟩
      rw [Bool.and_eq_true]
      exact hsel.1
  | ownerKey => trivial
  | _ => rfl

omit [Python R] in
/-- The INSERT of a relation changes its row. -/
theorem sameAt_insertRelation {doNothing : Bool} {relation : Relation}
    (h : db.insertRelation tenant doNothing relation = .ok db')
    (hk : k ∉ Statement.locks tenant (.insertRelation doNothing relation) db) :
    db'.SameAt db k := by
  simp only [Statement.locks] at hk
  unfold Database.insertRelation at h
  split at h
  · split at h
    · obtain rfl := Except.ok.inj h
      exact sameAt_refl _ _
    · cases h
  · rename_i hfresh
    split at h
    · cases h
    · obtain rfl := Except.ok.inj h
      simp only [hfresh, Bool.false_eq_true, if_false] at hk
      cases k with
      | relation key =>
        refine Dict.get?_set_of_ne _ _ ?_
        rintro rfl
        exact hk List.mem_cons_self
      | ownerKey => trivial
      | _ => rfl

omit [Python R] in
/-- Rewrapping changes a row that it has waited for. -/
theorem sameAt_rewrapMemory {i : UUID} {payload : Payload}
    (hk : k ∉ Statement.awaits tenant (.rewrapMemory i payload) db) :
    (db.rewrapMemory tenant i payload).SameAt db k := by
  simp only [Statement.awaits] at hk
  unfold Database.rewrapMemory
  generalize db.visible tenant i = found at hk ⊢
  cases found with
  | none => exact sameAt_refl _ _
  | some row =>
    cases k with
    | memory j =>
      refine Dict.get?_set_of_ne _ _ ?_
      rintro rfl
      exact hk List.mem_cons_self
    | ownerKey => trivial
    | _ => rfl

omit [Python R] in
/-- So does rewrapping a version. -/
theorem sameAt_rewrapVersion {i : UUID} {v : Int} {payload : Payload}
    (hk : k ∉ Statement.awaits tenant (.rewrapVersion i v payload) db) :
    (db.rewrapVersion tenant i v payload).SameAt db k := by
  simp only [Statement.awaits] at hk
  unfold Database.rewrapVersion
  generalize (db.versions.get? (i, v)).filter _ = found at hk ⊢
  cases found with
  | none => exact sameAt_refl _ _
  | some row =>
    cases k with
    | version j w =>
      refine Dict.get?_set_of_ne _ _ ?_
      intro heq
      obtain ⟨rfl, rfl⟩ := Prod.mk.inj heq
      exact hk List.mem_cons_self
    | ownerKey => trivial
    | _ => rfl

/-- A statement changes the rows that it holds afterwards, and no others. -/
theorem run_sameAt {q : Statement R} {r : q.Result} (h : q.run tenant db = .ok (r, db'))
    (hk : k ∉ q.locks tenant db) : db'.SameAt db k := by
  cases q with
  | insertMemory onConflict i row => exact sameAt_insertMemory h hk
  | updateMemory i o v values => exact sameAt_updateMemory (Except.ok.inj h) hk
  -- the deletion locks what it takes away
  | deleteMemory o i =>
    unfold Statement.run at h
    replace hk : k ∉ Statement.awaits tenant (.deleteMemory o i) db := hk
    simp only [Statement.awaits] at hk
    dsimp only at h
    cases hrow : db.owned tenant o i with
    | none =>
      rw [hrow] at h
      cases h
      exact sameAt_refl _ _
    | some row =>
      simp only [hrow] at h hk
      cases h
      simp only [List.cons_append, List.mem_cons, List.mem_append, not_or] at hk
      exact sameAt_deleteMemory hk.1 hk.2.2
  | insertVersions rows => exact sameAt_insertVersions (of_map_ok h) hk
  | insertEmbedding table i values => exact sameAt_insertEmbedding (of_map_ok h) hk
  | updateEmbedding table i values => exact sameAt_updateEmbedding (of_map_ok h) hk
  | upsertSemantic i v profile vector =>
    have hdb := of_map_ok h
    simp only [Database.upsertSemantic, except_bind_ok, except_pure_ok] at hdb
    obtain ⟨_, -, _, -, rfl⟩ := hdb
    replace hk : k ∉ [RowKey.semantic (i, profile.id, profile.version)] := hk
    cases k with
    | semantic key =>
      refine Dict.get?_set_of_ne _ _ ?_
      rintro rfl
      exact hk List.mem_cons_self
    | ownerKey => trivial
    | _ => rfl
  | cutover o profile =>
    obtain ⟨-, rfl⟩ := Prod.mk.inj (Except.ok.inj h)
    exact sameAt_cutover hk
  -- a tombstone or an operation that is there already stays
  | insertTombstone o i =>
    obtain ⟨-, rfl⟩ := Prod.mk.inj (Except.ok.inj h)
    simp only [Statement.locks] at hk
    unfold Database.insertTombstone
    split at hk
    · rename_i hthere
      rw [if_pos hthere]
      exact sameAt_refl _ _
    · rename_i hthere
      rw [if_neg hthere]
      cases k with
      | tombstone o' j =>
        refine Dict.get?_set_of_ne _ _ ?_
        intro heq
        obtain ⟨rfl, rfl⟩ := Prod.mk.inj heq
        exact hk List.mem_cons_self
      | ownerKey => trivial
      | _ => rfl
  | insertRelation doNothing relation => exact sameAt_insertRelation (of_map_ok h) hk
  | insertOperation key fingerprint =>
    have hdb : (db.insertOperation tenant key fingerprint).2 = db' :=
      (Prod.mk.inj (Except.ok.inj h)).2
    rw [← hdb]
    simp only [Statement.locks] at hk
    unfold Database.insertOperation
    split at hk
    · rename_i hthere
      rw [if_pos hthere]
      exact sameAt_refl _ _
    · rename_i hthere
      rw [if_neg hthere]
      cases k with
      | operation key' =>
        refine Dict.get?_set_of_ne _ _ ?_
        rintro rfl
        exact hk List.mem_cons_self
      | ownerKey => trivial
      | _ => rfl
  | completeOperation key fingerprint i v status =>
    have hdb : (db.completeOperation tenant key fingerprint i v status).2 = db' :=
      (Prod.mk.inj (Except.ok.inj h)).2
    rw [← hdb]
    replace hk : k ∉ Statement.awaits tenant (.completeOperation key fingerprint i v status) db := hk
    simp only [Statement.awaits] at hk
    unfold Database.completeOperation
    generalize (db.operations.get? key).filter _ = found at hk ⊢
    cases found with
    | none => exact sameAt_refl _ _
    | some row =>
      cases k with
      | operation key' =>
        refine Dict.get?_set_of_ne _ _ ?_
        rintro rfl
        exact hk List.mem_cons_self
      | ownerKey => trivial
      | _ => rfl
  | rewrapMemory i payload =>
    obtain ⟨-, rfl⟩ := Prod.mk.inj (Except.ok.inj h)
    exact sameAt_rewrapMemory hk
  | rewrapVersion i v payload =>
    obtain ⟨-, rfl⟩ := Prod.mk.inj (Except.ok.inj h)
    exact sameAt_rewrapVersion hk
  -- the rest reads
  | selectVector table i =>
    cases table <;> cases h <;> exact sameAt_refl _ _
  | _ =>
    cases h
    exact sameAt_refl _ _

end Frame

/-! ## The system -/

/-- Units of work as programs. -/
abbrev DbProg (R : Type) : Type → Type := Prog (Statement R) Statement.Result PyError

/-- A session whose statements interleave with those of others. -/
def Session.interleaved (R : Type) [Python R] (tenant : Option UUID)
    (encryptor : Option TenantEnvelopeEncryptor) : Session (DbProg R) R where
  tenant := tenant
  encryptor := encryptor
  execute q := Prog.statement q

/-- PostgreSQL. -/
def engine (R : Type) [Python R] :
    Engine (Transaction R) (Statement R) Statement.Result (Database R) RowKey PyError where
  run t q := q.run t.tenant
  awaits t q := q.awaits t.tenant
  locks t q := q.locks t.tenant
  overlay := Database.overlay
  locks_subset t := Statement.locks_subset t.tenant

/-- The body of a unit of work, in a deployment with the given encryptor. -/
def Transaction.program (encryptor : Option TenantEnvelopeEncryptor) (t : Transaction R) :
    DbProg R (Outcome R) :=
  t.body (Session.interleaved R t.tenant encryptor)

/-- A unit of work in progress or ended. -/
abbrev Participant (R : Type) [Python R] :=
  Process (Transaction R) (Statement R) Statement.Result (Database R) RowKey PyError (Outcome R)

/-- The database and its units of work. -/
abbrev Cluster (R : Type) [Python R] :=
  System (Transaction R) (Statement R) Statement.Result (Database R) RowKey PyError (Outcome R)

section Views

variable {p p' : Participant R} {c : Database R} {k : RowKey}

omit [Python R] in
theorem sameAt_symm {db db' : Database R} (h : db.SameAt db' k) : db'.SameAt db k := by
  cases k <;> first | trivial | exact Eq.symm h

omit [Python R] in
theorem sameAt_trans {db db' db'' : Database R} (h : db.SameAt db' k) (h' : db'.SameAt db'' k) :
    db.SameAt db'' k := by
  cases k <;> first | trivial | exact Eq.trans h h'

/-- What a transaction sees in a row that it holds. -/
theorem view_of_mem (h : k ∈ p.held) : (p.view (engine R) c).SameAt p.own k :=
  Database.overlay_of_mem h

/-- What it sees in another one. -/
theorem view_of_not_mem (h : k ∉ p.held) : (p.view (engine R) c).SameAt c k :=
  Database.overlay_of_not_mem h

/-- After a statement the transaction sees what the statement left. -/
theorem view_advance {q : Statement R} {r : q.Result} {after : Database R}
    {program : DbProg R (Outcome R)}
    (h : q.run p.agent.tenant (p.view (engine R) c) = .ok (r, after)) :
    ((p.advance (engine R) q (p.view (engine R) c) after program).view (engine R) c).SameAt
      after k := by
  by_cases hk : k ∈ q.locks p.agent.tenant (p.view (engine R) c) ++ p.held
  · exact Database.overlay_of_mem hk
  · have hout := List.mem_append.not.mp hk
    rw [not_or] at hout
    have hsame : after.SameAt (p.view (engine R) c) k := run_sameAt h hout.1
    have hview : (p.view (engine R) c).SameAt c k := view_of_not_mem hout.2
    exact sameAt_trans (Database.overlay_of_not_mem hk) (sameAt_symm (sameAt_trans hsame hview))

/-- Another transaction's commit changes, of what a transaction sees, the rows that the other
held. -/
theorem view_commit (h : k ∉ p.held) :
    (p'.view (engine R) (p.view (engine R) c)).SameAt (p'.view (engine R) c) k := by
  by_cases hk : k ∈ p'.held
  · exact sameAt_trans (view_of_mem hk) (sameAt_symm (view_of_mem hk))
  · have hc : (p.view (engine R) c).SameAt c k := view_of_not_mem h
    exact sameAt_trans (sameAt_trans (view_of_not_mem hk) hc) (sameAt_symm (view_of_not_mem hk))

end Views

/-! ## A deployment -/

/-- A service on day `n` that embeds every text as a constant vector, with the id it draws. -/
def constantService (dimension : Nat) (n : Fin 365) (id : Nat) : MemoryApplicationService ℚ :=
  { serviceOn n id with
    embeddingProvider :=
      { profile := { id := "constant", version := "v1", dimension := dimension }
        embed := fun _ _ => .ok (List.replicate dimension 1) } }

/-- Execute a transaction's next statements. -/
def executes (n : Nat) (times : Nat) : List (Action (Transaction ℚ)) :=
  List.replicate times (.execute n)

/-- A candidate in the inbox. -/
def captured : Database ℚ :=
  afterAll none [{
    service := constantService 64 1 7
    work := .request (.capture (captureCommand "acme" "alice" "likes tea" "capture-1")) }]

def confirmOfCandidate : Transaction ℚ where
  service := constantService 64 2 0
  work := .request (.confirmCandidate
    { tenantId := "acme", ownerId := "alice", memoryId := ⟨7⟩, expectedVersion := 1
      idempotencyKey := "confirm-1" })

end OpenMemory.Postgres
