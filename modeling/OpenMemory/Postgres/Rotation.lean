import OpenMemory.Postgres.Envelopes
import OpenMemory.Postgres.Locks

/-!
# Key rotation (`PostgresMemoryRepository.rewrap_envelopes`)

In a Cloud deployment content and provenance are stored as envelopes, each under a version of
the tenant's key. A rotation reads every row of the tenant, opens it and stores it again under
the new version, so that the old key can be retired. But the other methods go through
`_cloud_fields` as well and leave its `key_version` argument at the default, 1: whatever they
store after a rotation is back under the first key. `rotation_kept_iff` says when that does not
happen.
-/

namespace OpenMemory.Postgres

open Lib
open MonadExcept (ofExcept)
open MemoryApplicationService (truthyKey)

variable {R : Type} [Python R]

/-! ## What a transaction stores -/

namespace Database

variable {db db' db'' : Database R}

/-- The payload stands in a row of `db'` that is not a row of `db`. -/
def Stores (db db' : Database R) (payload : Payload) : Prop :=
  (∃ i row, db'.memories.get? i = some row ∧ db.memories.get? i ≠ some row ∧
    row.payload = payload) ∨
  ∃ k row, db'.versions.get? k = some row ∧ db.versions.get? k ≠ some row ∧ row.payload = payload

/-- From `db` to `db'` no row is lost, and what is stored has `A`. -/
structure Adds (A : Payload → Prop) (db db' : Database R) : Prop where
  stored : ∀ payload, db.Stores db' payload → A payload
  memories : ∀ i, db.memories.contains i = true → db'.memories.contains i = true
  versions : ∀ k, db.versions.contains k = true → db'.versions.contains k = true

omit [Python R] in
/-- What is stored in two steps is stored in one of them. -/
theorem stores_trans {payload : Payload} (h : db.Stores db'' payload) :
    db.Stores db' payload ∨ db'.Stores db'' payload := by
  rcases h with ⟨i, row, hrow, hnew, hpayload⟩ | ⟨k, row, hrow, hnew, hpayload⟩
  · by_cases hmid : db'.memories.get? i = some row
    · exact .inl (.inl ⟨i, row, hmid, hnew, hpayload⟩)
    · exact .inr (.inl ⟨i, row, hrow, hmid, hpayload⟩)
  · by_cases hmid : db'.versions.get? k = some row
    · exact .inl (.inr ⟨k, row, hmid, hnew, hpayload⟩)
    · exact .inr (.inr ⟨k, row, hrow, hmid, hpayload⟩)

instance Adds.refl (A : Payload → Prop) : Std.Refl (Adds (R := R) A) where
  refl db := by
    refine ⟨fun payload hstores => ?_, fun i hi => hi, fun k hk => hk⟩
    rcases hstores with ⟨i, row, hrow, hnew, -⟩ | ⟨k, row, hrow, hnew, -⟩
    · exact absurd hrow hnew
    · exact absurd hrow hnew

instance Adds.trans (A : Payload → Prop) : IsTrans (Database R) (Adds A) where
  trans db db' db'' h h' := by
    refine ⟨fun payload hstores => ?_, fun i hi => h'.memories i (h.memories i hi),
      fun k hk => h'.versions k (h.versions k hk)⟩
    rcases stores_trans hstores with hstores | hstores
    · exact h.stored payload hstores
    · exact h'.stored payload hstores

omit [Python R] in
theorem Adds.mono {A B : Payload → Prop} (h : db.Adds A db') (hAB : ∀ payload, A payload → B payload) :
    db.Adds B db' :=
  ⟨fun payload hstores => hAB payload (h.stored payload hstores), h.memories, h.versions⟩

omit [Python R] in
/-- A row under a new id is stored. -/
theorem stores_new_memory {i : UUID} (hold : db.memories.contains i = false)
    (hnew : db'.memories.contains i = true) : ∃ payload, db.Stores db' payload := by
  obtain ⟨row, hrow⟩ := Option.isSome_iff_exists.mp hnew
  have habsent := (Dict.contains_eq_false_iff _ _).mp hold
  refine ⟨row.payload, .inl ⟨i, row, hrow, ?_, rfl⟩⟩
  rw [habsent]
  exact Option.some_ne_none row |>.symm

omit [Python R] in
/-- A row under a new key of the history is stored. -/
theorem stores_new_version {k : UUID × Int} (hold : db.versions.contains k = false)
    (hnew : db'.versions.contains k = true) : ∃ payload, db.Stores db' payload := by
  obtain ⟨row, hrow⟩ := Option.isSome_iff_exists.mp hnew
  have habsent := (Dict.contains_eq_false_iff _ _).mp hold
  refine ⟨row.payload, .inr ⟨k, row, hrow, ?_, rfl⟩⟩
  rw [habsent]
  exact Option.some_ne_none row |>.symm

end Database

/-- The statement removes no row, and what it stores has `A`. -/
def Statement.Adds (A : Payload → Prop) : Statement R → Prop
  | .insertMemory _ _ row => A row.payload
  | .updateMemory _ _ _ values => A values.payload
  | .insertVersions rows => ∀ e ∈ rows, A e.2.payload
  | .deleteMemory _ _ => False
  | .cutover _ _ => False
  | .rewrapMemory _ _ => False
  | .rewrapVersion _ _ _ => False
  | _ => True

/-- The statement writes neither `memories` nor `memory_versions`. -/
def Statement.aside : Statement R → Bool
  | .insertMemory _ _ _ => false
  | .updateMemory _ _ _ _ => false
  | .deleteMemory _ _ => false
  | .insertVersions _ => false
  | .cutover _ _ => false
  | .rewrapMemory _ _ => false
  | .rewrapVersion _ _ _ => false
  | _ => true

section Adding

variable {A : Payload → Prop} {db db' : Database R}

omit [Python R] in
/-- A statement on other tables adds no payload. -/
theorem Statement.adds_of_aside {q : Statement R} (hq : q.aside = true) : q.Adds A := by
  cases q with
  | insertMemory | updateMemory | deleteMemory | insertVersions | cutover | rewrapMemory
  | rewrapVersion => cases hq
  | _ => trivial

omit [Python R] in
theorem Statement.kinds_of_aside {q : Statement R} (hq : q.aside = true) :
    RowKind.memory ∉ q.kinds ∧ RowKind.version ∉ q.kinds := by
  cases q with
  | insertMemory | updateMemory | deleteMemory | insertVersions | cutover | rewrapMemory
  | rewrapVersion => cases hq
  | insertEmbedding table i values => cases table <;> simp [Statement.kinds]
  | updateEmbedding table i values => cases table <;> simp [Statement.kinds]
  | _ => simp [Statement.kinds]

omit [Python R] in
/-- Nor does a step that leaves memories and versions as they are. -/
theorem adds_of_sameAt (hmemories : ∀ i, db'.SameAt db (.memory i))
    (hversions : ∀ i v, db'.SameAt db (.version i v)) : db.Adds A db' := by
  refine ⟨fun payload hstores => ?_, fun i hi => ?_, fun k hk => ?_⟩
  · rcases hstores with ⟨i, row, hrow, hnew, -⟩ | ⟨k, row, hrow, hnew, -⟩
    · exact absurd ((hmemories i).symm.trans hrow) hnew
    · exact absurd ((hversions k.1 k.2).symm.trans hrow) hnew
  · exact (congrArg Option.isSome (hmemories i)).trans hi
  · exact (congrArg Option.isSome (hversions k.1 k.2)).trans hk

omit [Python R] in
/-- A row that is set adds its own payload. -/
theorem adds_set_memory {i : UUID} {row : MemoryRow R} (hrow : A row.payload) :
    db.Adds A { db with memories := db.memories.set i row } := by
  refine ⟨fun payload hstores => ?_, fun j hj => ?_, fun k hk => hk⟩
  · rcases hstores with ⟨j, new, hnew, hold, rfl⟩ | ⟨k, new, hnew, hold, -⟩
    · by_cases hj : j = i
      · subst hj
        obtain rfl := Option.some.inj ((Dict.get?_set_self _ _ _).symm.trans hnew)
        exact hrow
      · exact absurd ((Dict.get?_set_of_ne _ _ hj).symm.trans hnew) hold
    · exact absurd hnew hold
  · rw [Dict.contains_set, hj, Bool.or_true]

omit [Python R] in
/-- So does a version. -/
theorem adds_set_version {k : UUID × Int} {row : VersionRow R} (hrow : A row.payload) :
    db.Adds A { db with versions := db.versions.set k row } := by
  refine ⟨fun payload hstores => ?_, fun j hj => hj, fun j hj => ?_⟩
  · rcases hstores with ⟨j, new, hnew, hold, -⟩ | ⟨j, new, hnew, hold, rfl⟩
    · exact absurd hnew hold
    · by_cases hj : j = k
      · subst hj
        obtain rfl := Option.some.inj ((Dict.get?_set_self _ _ _).symm.trans hnew)
        exact hrow
      · exact absurd ((Dict.get?_set_of_ne _ _ hj).symm.trans hnew) hold
  · rw [Dict.contains_set, hj, Bool.or_true]

omit [Python R] in
/-- The rows of an insertion into the history are new, and are there afterwards. -/
theorem adds_insertVersions {rows : List ((UUID × Int) × VersionRow R)}
    (hrows : ∀ e ∈ rows, A e.2.payload) (h : db.insertVersions rows = .ok db') :
    db.Adds A db' ∧ ∀ e ∈ rows, db.versions.contains e.1 = false ∧
      db'.versions.contains e.1 = true := by
  induction rows generalizing db with
  | nil =>
    obtain rfl := Except.ok.inj h
    exact ⟨Std.Refl.refl _, fun e he => by cases he⟩
  | cons row rest ih =>
    obtain ⟨key, values⟩ := row
    unfold Database.insertVersions at h
    split at h
    · cases h
    -- the first row is new, and the rest is added to it
    · rename_i hfree
      rw [Bool.or_eq_true, not_or, Bool.not_eq_true] at hfree
      have hset : db.Adds A { db with versions := db.versions.set key values } :=
        adds_set_version (hrows _ List.mem_cons_self)
      obtain ⟨hrest, hkeys⟩ := ih (fun e he => hrows e (List.mem_cons_of_mem _ he)) h
      refine ⟨IsTrans.trans _ _ _ hset hrest, fun e he => ?_⟩
      rcases List.mem_cons.mp he with rfl | he
      · refine ⟨hfree.1, hrest.versions _ ?_⟩
        rw [Dict.contains_set, decide_eq_true rfl, Bool.true_or]
      · obtain ⟨habsent, hthere⟩ := hkeys e he
        refine ⟨?_, hthere⟩
        rw [← Bool.not_eq_true]
        intro hold
        rw [hset.versions _ hold] at habsent
        cases habsent

/-- A statement adds what it says that it adds. -/
theorem run_adds {tenant : Option UUID} {q : Statement R} (hq : q.Adds A) {r : q.Result}
    (h : q.run tenant db = .ok (r, db')) : db.Adds A db' := by
  cases q with
  | insertMemory onConflict i row =>
    cases r with
    | true =>
      obtain ⟨-, rfl⟩ := insertMemory_true h
      exact adds_set_memory hq
    | false =>
      obtain rfl := insertMemory_false h
      exact Std.Refl.refl _
  | updateMemory i o v values =>
    have hupdate : db.updateMemory tenant i o v values = (r, db') := Except.ok.inj h
    unfold Database.updateMemory at hupdate
    split at hupdate
    · obtain ⟨-, rfl⟩ := Prod.mk.inj hupdate
      exact Std.Refl.refl _
    · obtain ⟨-, rfl⟩ := Prod.mk.inj hupdate
      exact adds_set_memory hq
  | insertVersions rows => exact (adds_insertVersions hq (of_map_ok h)).1
  | deleteMemory | cutover | rewrapMemory | rewrapVersion => cases hq
  -- the other statements leave both tables alone
  | _ =>
    exact adds_of_sameAt (fun i => run_sameAt h (not_mem_locks (Statement.kinds_of_aside rfl).1))
      fun i v => run_sameAt h (not_mem_locks (Statement.kinds_of_aside rfl).2)

end Adding

/-! ## What the methods store -/

section Methods

open PostgresMemoryRepository PostgresMemoryAdminRepository

variable {tenant : Option UUID} {encryptor : Option TenantEnvelopeEncryptor} {A : Payload → Prop}

/-- So does executing it. -/
theorem adds_execute {q : Statement R} (hq : q.Adds A) :
    Txn.Along (Database.Adds A) ((Session.sequential R tenant encryptor).execute q) :=
  fun _ _ _ h => run_adds hq h

theorem adds_aside {q : Statement R} (hq : q.aside = true) :
    Txn.Along (Database.Adds A) ((Session.sequential R tenant encryptor).execute q) :=
  adds_execute (Statement.adds_of_aside hq)

/-- Reading a memory adds nothing. -/
theorem adds_get (o : String) (i : UUID) :
    Txn.Along (Database.Adds A) (get (Session.sequential R tenant encryptor) o i) := by
  refine (Txn.Along.ofExcept _).bind fun _ => (adds_aside rfl).bind fun row => ?_
  cases row with
  | none => exact .pure _
  | some row => exact (Txn.Along.ofExcept _).map _

theorem adds_findByIdempotencyKey (o k : String) :
    Txn.Along (Database.Adds A)
      (findByIdempotencyKey (Session.sequential R tenant encryptor) o k) := by
  refine (Txn.Along.ofExcept _).bind fun _ => (adds_aside rfl).bind fun row => ?_
  cases row with
  | none => exact .pure _
  | some row => exact (Txn.Along.ofExcept _).bind fun _ => .pure _

/-- `A` holds of whatever `_cloud_fields` returns for the row of a memory or a version. -/
def Session.Fields (session : Session (DbTxn R) R) (A : Payload → Prop) : Prop :=
  ∀ recordId content provenance payload,
    session.cloudFields recordId content provenance = .ok payload → A payload

/-- The payload of a row is made by the session. -/
theorem Session.Fields.memory {session : Session (DbTxn R) R} (hA : session.Fields A)
    {memory : Memory R} {fingerprint : Option String} {row : MemoryRow R}
    (h : session.memoryValues memory fingerprint = .ok row) : A row.payload := by
  unfold Session.memoryValues at h
  split at h
  · cases h
  · simp only [except_bind_ok, except_pure_ok] at h
    obtain ⟨_, -, payload, hpayload, rfl⟩ := h
    exact hA _ _ _ _ hpayload

omit [Python R] in
/-- So is the payload of a version. -/
theorem Session.Fields.version {session : Session (DbTxn R) R} (hA : session.Fields A)
    {v : MemoryVersion R} {entry : (UUID × Int) × VersionRow R}
    (h : session.versionValues v = .ok entry) : A entry.2.payload := by
  simp only [Session.versionValues, except_bind_ok, except_pure_ok] at h
  obtain ⟨payload, hpayload, rfl⟩ := h
  exact hA _ _ _ _ hpayload

omit [Python R] in
/-- Without `ON CONFLICT (id)`, an insertion that does not raise stores the row exactly when its
key is free. -/
theorem inserted_eq {onConflict : OnConflict} {i : UUID} {row : MemoryRow R} {inserted : Bool}
    {db db' : Database R} (hid : onConflict ≠ .id)
    (h : db.insertMemory onConflict i row = .ok (inserted, db')) :
    inserted = !db.keyTaken row := by
  unfold Database.insertMemory at h
  split at h
  · rename_i hkey
    rw [Bool.and_eq_true] at hkey
    rw [hkey.2]
    exact (Prod.mk.inj (Except.ok.inj h)).1.symm
  · split at h
    · rename_i hthere
      rw [Bool.and_eq_true, decide_eq_true_eq] at hthere
      exact absurd hthere.1 hid
    · split at h
      · cases h
      · rename_i hfree
        rw [Bool.or_eq_true, not_or, Bool.not_eq_true, Bool.not_eq_true] at hfree
        rw [hfree.2]
        exact (Prod.mk.inj (Except.ok.inj h)).1.symm

omit [Python R] in
/-- `ON CONFLICT (id) DO NOTHING` did nothing because the id was there. -/
theorem contains_of_not_inserted {i : UUID} {row : MemoryRow R} {db db' : Database R}
    (h : db.insertMemory .id i row = .ok (false, db')) : db.memories.contains i = true := by
  by_contra hout
  rw [Bool.not_eq_true] at hout
  simp only [Database.insertMemory, reduceCtorEq, decide_false, Bool.false_and, hout,
    Bool.and_false, Bool.false_eq_true, if_false, Bool.false_or] at h
  split at h <;> cases h

/-- The owner holds a memory under the key; null keys are distinct. -/
def Database.holdsKey (db : Database R) (ownerId : String) (idempotencyKey : Option String) :
    Bool :=
  idempotencyKey.isSome && db.memories.values.any fun row =>
    decide (row.ownerId = ownerId) && decide (row.idempotencyKey = idempotencyKey)

/-- Whether the key of a new row is taken depends on owner and key. -/
theorem keyTaken_memoryValues {session : Session (DbTxn R) R} {memory : Memory R}
    {fingerprint : Option String} {row : MemoryRow R} {db : Database R}
    (h : session.memoryValues memory fingerprint = .ok row) :
    db.keyTaken row = db.holdsKey memory.ownerId memory.idempotencyKey := by
  unfold Session.memoryValues at h
  split at h
  · cases h
  · simp only [except_bind_ok, except_pure_ok] at h
    obtain ⟨_, -, payload, -, rfl⟩ := h
    rfl

variable (hA : (Session.sequential R tenant encryptor).Fields A)

include hA in
/-- A create that commits stores the memory, unless its key is held already. -/
theorem create_adds {memory : Memory R} {fp : String} {vector : List R} {r : WriteMemoryResult R}
    {db db' : Database R}
    (h : (create (Session.sequential R tenant encryptor) memory fp vector).run db = .ok (r, db')) :
    db.Adds A db' ∧ ((∃ payload, db.Stores db' payload) ↔
      db.holdsKey memory.ownerId memory.idempotencyKey = false) := by
  simp only [create, Txn.bind_ok, Txn.ofExcept_ok] at h
  obtain ⟨_, _, ⟨-, rfl⟩, row, db₀, ⟨hrow, rfl⟩, inserted, db₁, hinsert, hrest⟩ := h
  replace hinsert := Txn.rethrow_ok.mp hinsert
  -- the row of the memory is encrypted by the session
  have hfirst : Database.Adds A _ _ := adds_execute (by exact hA.memory hrow) _ _ _ hinsert
  have hheld := inserted_eq (by split <;> simp) hinsert
  rw [keyTaken_memoryValues hrow] at hheld
  cases inserted with
  -- inserted: so is the row of its first version
  | true =>
    rw [if_pos rfl] at hrest
    simp only [Txn.bind_ok, Txn.ofExcept_ok, Txn.pure_ok] at hrest
    obtain ⟨table, _, ⟨-, rfl⟩, values, _, ⟨-, rfl⟩, _, db₂, hembed, entry, _, ⟨hentry, rfl⟩, _, _,
      hversions, -, rfl⟩ := hrest
    have hsecond : Database.Adds A _ _ := adds_aside rfl _ _ _ hembed
    have hentries : ∀ e ∈ [entry], A e.2.payload := by
      intro e he
      obtain rfl := List.mem_singleton.mp he
      exact hA.version hentry
    have hthird := (adds_insertVersions hentries (of_map_ok hversions)).1
    have hlater := IsTrans.trans _ _ _ hsecond hthird
    refine ⟨IsTrans.trans _ _ _ hfirst hlater, iff_of_true ?_ (by simpa using hheld)⟩
    obtain ⟨habsent, rfl⟩ := insertMemory_true hinsert
    refine Database.stores_new_memory ((Dict.contains_eq_false_iff _ _).mpr habsent)
      (hlater.memories _ ?_)
    rw [Dict.contains_set, decide_eq_true rfl, Bool.true_or]
  -- not inserted: the prior memory is read
  | false =>
    rw [if_neg Bool.false_ne_true] at hrest
    obtain rfl := insertMemory_false hinsert
    obtain ⟨prior, db₂, hprior, hrest⟩ := Txn.bind_ok.mp hrest
    have hnothing : Database.Adds (fun _ => False) _ _ :=
      adds_findByIdempotencyKey _ _ _ _ _ hprior
    obtain rfl : db' = db₂ := by
      cases prior with
      | none => cases hrest
      | some prior =>
        simp only [Txn.bind_ok, raiseIf_ok, Txn.pure_ok] at hrest
        obtain ⟨_, _, ⟨-, rfl⟩, -, rfl⟩ := hrest
        rfl
    refine ⟨hnothing.mono fun _ hfalse => hfalse.elim, iff_of_false ?_ (by simpa using hheld)⟩
    rintro ⟨payload, hstores⟩
    exact hnothing.stored payload hstores

include hA in
/-- An update that commits stores at least a version of the history. -/
theorem update_adds {memory r : Memory R} {v : Int} {snapshot : MemoryVersion R} {vector : List R}
    {db db' : Database R}
    (h : (update (Session.sequential R tenant encryptor) memory v snapshot vector).run db
      = .ok (r, db')) :
    db.Adds A db' ∧ ∃ payload, db.Stores db' payload := by
  simp only [PostgresMemoryRepository.update, Txn.bind_ok, Txn.ofExcept_ok] at h
  obtain ⟨_, _, ⟨-, rfl⟩, row, db₀, ⟨hvalues, rfl⟩, h⟩ := h
  obtain ⟨rowcount, db₁, hupdate, hrest⟩ := Txn.bind_ok.mp h
  -- the update hits the row, and the next version is new
  by_cases hcount : rowcount = 1
  · simp only [ne_eq, hcount, not_true_eq_false, if_false, Txn.bind_ok, Txn.ofExcept_ok,
      Txn.pure_ok] at hrest
    obtain ⟨entry, _, ⟨hentry, rfl⟩, _, db₂, hversions, table, _, ⟨-, rfl⟩, values, _, ⟨-, rfl⟩, _,
      _, hlast, -, rfl⟩ := hrest
    have hfirst : Database.Adds A _ _ := adds_execute (by exact hA.memory hvalues) _ _ _ hupdate
    have hentries : ∀ e ∈ [entry], A e.2.payload := by
      intro e he
      obtain rfl := List.mem_singleton.mp he
      exact hA.version hentry
    obtain ⟨hsecond, hnew⟩ := adds_insertVersions hentries (of_map_ok hversions)
    have hthird : Database.Adds A _ _ := adds_aside rfl _ _ _ hlast
    obtain ⟨habsent, hthere⟩ := hnew entry List.mem_cons_self
    refine ⟨IsTrans.trans _ _ _ hfirst (IsTrans.trans _ _ _ hsecond hthird), ?_⟩
    refine Database.stores_new_version ?_ (hthird.versions _ hthere)
    rw [← Bool.not_eq_true]
    intro hold
    rw [hfirst.versions _ hold] at habsent
    cases habsent
  -- or it does not, and raises
  · simp only [ne_eq, hcount, not_false_eq_true, if_true, Txn.bind_ok] at hrest
    obtain ⟨_, _, -, _, _, -, _, _, hthrow, -⟩ := hrest
    cases hthrow

/-- The rows that an import stores for a memory. -/
theorem adds_importRows (hA : (Session.sequential R tenant encryptor).Fields A)
    (record : MemoryRecordDto R) (vector : List R) :
    Txn.Along (Database.Adds A)
      (importRows (Session.sequential R tenant encryptor) record vector) := by
  refine (Txn.Along.ofExcept _).bind fun table => (Txn.Along.ofExcept _).bind fun values =>
    (adds_aside rfl).bind fun _ => Txn.Along.ofExcept_bind fun entries hentries => ?_
  refine (adds_execute (q := .insertVersions entries) fun e he => ?_).bind fun _ => .pure _
  obtain ⟨v, -, hv⟩ := mem_of_mapM_ok hentries he
  exact hA.version hv

include hA in
/-- After an import the memory of a record is there; if it was there before, the record stores
nothing. -/
theorem importRecord_adds {record : MemoryRecordDto R} {stored : Bool} {db db' : Database R}
    (h : (importRecord (Session.sequential R tenant encryptor) record).run db
      = .ok (stored, db')) :
    db.Adds A db' ∧ db'.memories.contains record.memory.id = true ∧
      (db.memories.contains record.memory.id = true → db.Adds (fun _ => False) db') := by
  simp only [importRecord, Txn.bind_ok, Txn.ofExcept_ok, raiseIf_ok] at h
  obtain ⟨_, _, ⟨-, rfl⟩, _, _, htomb, _, _, ⟨-, rfl⟩, row, db₁, ⟨hrow, rfl⟩, inserted, db₂,
    hinsert, hrest⟩ := h
  -- looking for a tombstone adds nothing
  have hread : Txn.Along (Database.Adds fun _ => False)
      (isTombstoned (Session.sequential R tenant encryptor) record.memory.ownerId
        record.memory.id) := (Txn.Along.ofExcept _).bind fun _ => adds_aside rfl
  have hbefore := hread _ _ _ htomb
  replace hinsert := Txn.rethrow_ok.mp hinsert
  have hfirst : Database.Adds A _ _ := adds_execute (by exact hA.memory hrow) _ _ _ hinsert
  replace hinsert : db₁.insertMemory .id record.memory.id row = .ok (inserted, db₂) := hinsert
  cases inserted with
  -- a new memory comes with its versions
  | true =>
    rw [if_pos rfl] at hrest
    obtain ⟨habsent, rfl⟩ := insertMemory_true hinsert
    cases hembedding : record.embedding with
    | none =>
      rw [hembedding] at hrest
      cases hrest
    | some vector =>
      rw [hembedding] at hrest
      obtain ⟨_, db₃, hrows, hpure⟩ := Txn.bind_ok.mp hrest
      obtain ⟨-, rfl⟩ := Txn.pure_ok.mp hpure
      have hsecond := adds_importRows hA record vector _ _ _ (Txn.rethrow_ok.mp hrows)
      have hall := IsTrans.trans _ _ _ (hbefore.mono fun _ hfalse => hfalse.elim)
        (IsTrans.trans _ _ _ hfirst hsecond)
      refine ⟨hall, hsecond.memories _ ?_, fun hthere => ?_⟩
      · rw [Dict.contains_set, decide_eq_true rfl, Bool.true_or]
      · have hstill := hbefore.memories _ hthere
        rw [(Dict.contains_eq_false_iff _ _).mpr habsent] at hstill
        cases hstill
  -- one that is there is read only
  | false =>
    rw [if_neg Bool.false_ne_true] at hrest
    have hthere := contains_of_not_inserted hinsert
    obtain rfl := insertMemory_false hinsert
    simp only [Txn.bind_ok, raiseIf_ok, Txn.pure_ok] at hrest
    obtain ⟨current, db₃, hget, _, _, ⟨-, rfl⟩, -, rfl⟩ := hrest
    have hafter : Database.Adds (fun _ => False) _ _ := adds_get _ _ _ _ _ hget
    have hall := IsTrans.trans _ _ _ hbefore hafter
    exact ⟨hall.mono fun _ hfalse => hfalse.elim, hafter.memories _ hthere, fun _ => hall⟩

include hA in
/-- What the records of an import store: nothing exactly if all their memories are there. -/
theorem importRecords_adds {records : List (MemoryRecordDto R)} {r : ImportResult}
    {db db' : Database R}
    (h : (importRecords (Session.sequential R tenant encryptor) records).run db = .ok (r, db')) :
    db.Adds A db' ∧ (∀ record ∈ records, db'.memories.contains record.memory.id = true) ∧
      ((∀ record ∈ records, db.memories.contains record.memory.id = true) →
        db.Adds (fun _ => False) db') := by
  induction records generalizing db r with
  | nil =>
    obtain ⟨-, rfl⟩ := Txn.pure_ok.mp h
    exact ⟨Std.Refl.refl _, fun record hrecord => (List.not_mem_nil hrecord).elim,
      fun _ => Std.Refl.refl _⟩
  | cons record rest ih =>
    simp only [importRecords, Txn.bind_ok, Txn.pure_ok] at h
    obtain ⟨stored, db₁, hone, result, db₂, hrest, -, rfl⟩ := h
    obtain ⟨hadds, hthere, hnothing⟩ := importRecord_adds hA hone
    obtain ⟨hadds', hthere', hnothing'⟩ := ih hrest
    refine ⟨IsTrans.trans _ _ _ hadds hadds', fun other hother => ?_, fun hall => ?_⟩
    · rcases List.mem_cons.mp hother with rfl | hother
      · exact hadds'.memories _ hthere
      · exact hthere' other hother
    · refine IsTrans.trans _ _ _ (hnothing (hall record List.mem_cons_self)) (hnothing' ?_)
      intro other hother
      exact hadds.memories _ (hall other (List.mem_cons_of_mem _ hother))

/-- Imported relations carry no payload. -/
theorem adds_importRelations (seen : List RelationKey) (relations : List Relation) :
    Txn.Along (Database.Adds A)
      (importRelations (Session.sequential R tenant encryptor) seen relations) := by
  induction relations generalizing seen with
  | nil => exact .pure _
  | cons relation rest ih =>
    unfold importRelations
    split
    · exact ih _
    · exact (adds_aside rfl).bind fun _ => ih _

include hA in
/-- An import adds payloads exactly if one of its records is new. -/
theorem importMemories_adds {records : List (MemoryRecordDto R)} {r : ImportResult}
    {db db' : Database R}
    (h : (importMemories (Session.sequential R tenant encryptor) records).run db = .ok (r, db')) :
    db.Adds A db' ∧ ((∃ payload, db.Stores db' payload) ↔
      ∃ record ∈ records, db.memories.contains record.memory.id = false) := by
  simp only [importMemories, Txn.bind_ok, Txn.pure_ok] at h
  obtain ⟨result, db₁, hrecords, _, db₂, hrelations, -, rfl⟩ := h
  obtain ⟨hadds, hthere, hnothing⟩ := importRecords_adds hA hrecords
  have hlast : Database.Adds (fun _ => False) _ _ := adds_importRelations _ _ _ _ _ hrelations
  refine ⟨IsTrans.trans _ _ _ hadds (hlast.mono fun _ hfalse => hfalse.elim), ?_, ?_⟩
  · rintro ⟨payload, hstores⟩
    by_contra hnone
    have hall : ∀ record ∈ records, db.memories.contains record.memory.id = true := by
      intro record hrecord
      by_contra hout
      exact hnone ⟨record, hrecord, Bool.eq_false_iff.mpr hout⟩
    exact (IsTrans.trans _ _ _ (hnothing hall) hlast).stored payload hstores
  · rintro ⟨record, hrecord, habsent⟩
    exact Database.stores_new_memory habsent (hlast.memories _ (hthere record hrecord))

end Methods

/-! ## Runs of calls -/

/-- A tenant of a Cloud deployment. -/
structure CloudTenant where
  tenantId : UUID
  encryptor : TenantEnvelopeEncryptor

/-- A call on the tenant's repositories. -/
inductive CloudCall (R : Type) [Python R]
  | create (memory : Memory R) (fingerprint : String) (embedding : List R)
  | update (memory : Memory R) (expectedVersion : Int) (versionSnapshot : MemoryVersion R)
      (embedding : List R)
  | importMemories (records : List (MemoryRecordDto R))
  | rewrapEnvelopes (keyVersion : Int)

namespace CloudCall

/-- The transaction of the call. -/
def body (cloud : CloudTenant) (call : CloudCall R) : DbTxn R Unit :=
  let session := Session.sequential R (some cloud.tenantId) (some cloud.encryptor)
  match call with
  | .create memory fingerprint embedding =>
    (fun _ => ()) <$> PostgresMemoryRepository.create session memory fingerprint embedding
  | .update memory expectedVersion versionSnapshot embedding =>
    (fun _ => ()) <$> PostgresMemoryRepository.update session memory expectedVersion
      versionSnapshot embedding
  | .importMemories records =>
    (fun _ => ()) <$> PostgresMemoryAdminRepository.importMemories session records
  | .rewrapEnvelopes keyVersion =>
    (fun _ => ()) <$> PostgresMemoryRepository.rewrapEnvelopes session keyVersion

/-- The database after the call, rolled back if it raises. -/
def next (cloud : CloudTenant) (db : Database R) (call : CloudCall R) : Database R :=
  ((call.body cloud).attempt db).2

/-- The call returns. -/
def commits (cloud : CloudTenant) (db : Database R) (call : CloudCall R) : Bool :=
  ((call.body cloud).attempt db).1.isOk

/-- A create, an update or an import. -/
def writes : CloudCall R → Bool
  | .rewrapEnvelopes _ => false
  | _ => true

/-- The call has something to store: a memory whose key is free, a new version, a record whose
memory is not there. -/
def brings (db : Database R) : CloudCall R → Bool
  | .create memory _ _ => !db.holdsKey memory.ownerId memory.idempotencyKey
  | .update _ _ _ _ => true
  | .importMemories records => records.any fun record => !db.memories.contains record.memory.id
  | .rewrapEnvelopes _ => false

end CloudCall

/-- Both envelopes of the payload are under version `k` or a later one. -/
def Payload.atLeast (keyVersion : String → Int) (k : Int) : Payload → Prop
  | .plain _ _ => True
  | .cipher content provenance => k ≤ keyVersion content ∧ k ≤ keyVersion provenance

/-- Both envelopes of the payload are under version `k`. -/
def Payload.under (keyVersion : String → Int) (k : Int) : Payload → Prop
  | .plain _ _ => False
  | .cipher content provenance => keyVersion content = k ∧ keyVersion provenance = k

/-- The database after some calls. -/
def afterCalls (cloud : CloudTenant) (db : Database R) (calls : List (CloudCall R)) : Database R :=
  calls.foldl (CloudCall.next cloud) db

/-- In a run of calls from `db`, the call commits on `here`, and a rotation to `k` committed
before. -/
def AfterRotation (cloud : CloudTenant) (db : Database R) (calls : List (CloudCall R)) (k : Int)
    (call : CloudCall R) (here : Database R) : Prop :=
  ∃ before between rest, calls = before ++ .rewrapEnvelopes k :: (between ++ call :: rest) ∧
    (CloudCall.rewrapEnvelopes k).commits cloud (afterCalls cloud db before) = true ∧
    here = afterCalls cloud db (before ++ .rewrapEnvelopes k :: between) ∧
    call.commits cloud here = true

variable {cloud : CloudTenant} {keyVersion : String → Int}

/-- A call after a rotation is one that commits. -/
theorem AfterRotation.commits {db here : Database R} {calls : List (CloudCall R)} {k : Int}
    {call : CloudCall R} (h : AfterRotation cloud db calls k call here) :
    call.commits cloud here = true := by
  obtain ⟨_, _, _, -, -, -, hcommits⟩ := h
  exact hcommits

/-- And the rotation is among the calls. -/
theorem AfterRotation.mem {db here : Database R} {calls : List (CloudCall R)} {k : Int}
    {call : CloudCall R} (h : AfterRotation cloud db calls k call here) :
    .rewrapEnvelopes k ∈ calls := by
  obtain ⟨before, between, rest, rfl, -⟩ := h
  exact List.mem_append_right _ List.mem_cons_self

/-- The default of `_cloud_fields` is the first version of the key. -/
theorem fields_under (hlabels : cloud.encryptor.Labels keyVersion) :
    (Session.sequential R (some cloud.tenantId) (some cloud.encryptor)).Fields
      (Payload.under keyVersion 1) := by
  intro recordId content provenance payload h
  simp only [Session.cloudFields, Session.sequential, except_bind_ok, except_pure_ok] at h
  obtain ⟨text, htext, text', htext', rfl⟩ := h
  exact ⟨hlabels.content _ _ _ _ _ htext, hlabels.provenance _ _ _ _ _ htext'⟩

/-- What a create, an update or an import stores is under the first version of the key, and it
stores something exactly if it brings something. -/
theorem CloudCall.stores_iff (hlabels : cloud.encryptor.Labels keyVersion) {call : CloudCall R}
    {db : Database R} (hwrites : call.writes = true) (hcommits : call.commits cloud db = true) :
    (∀ payload, db.Stores (call.next cloud db) payload → payload.under keyVersion 1) ∧
      ((∃ payload, db.Stores (call.next cloud db) payload) ↔ call.brings db = true) := by
  have hfields := fields_under (R := R) hlabels
  -- the call has committed
  obtain ⟨u, hok⟩ : ∃ u, ((call.body cloud).attempt db).1 = .ok u := by
    unfold CloudCall.commits at hcommits
    cases hattempt : ((call.body cloud).attempt db).1 with
    | error e =>
      rw [hattempt] at hcommits
      cases hcommits
    | ok u => exact ⟨u, rfl⟩
  have hrun : (call.body cloud).run db = .ok (u, call.next cloud db) :=
    Txn.attempt_ok.mp (Prod.ext hok rfl)
  -- each of the three writes in turn
  cases call with
  | create memory fingerprint embedding =>
    obtain ⟨r, hr, -⟩ := Txn.map_ok.mp hrun
    obtain ⟨hadds, hstores⟩ := create_adds hfields hr
    refine ⟨hadds.stored, hstores.trans ?_⟩
    show _ ↔ (!_) = true
    rw [Bool.not_eq_true']
  | update memory v snapshot embedding =>
    obtain ⟨r, hr, -⟩ := Txn.map_ok.mp hrun
    obtain ⟨hadds, hstores⟩ := update_adds hfields hr
    exact ⟨hadds.stored, iff_of_true hstores rfl⟩
  | importMemories records =>
    obtain ⟨r, hr, -⟩ := Txn.map_ok.mp hrun
    obtain ⟨hadds, hstores⟩ := importMemories_adds hfields hr
    refine ⟨hadds.stored, hstores.trans ?_⟩
    show _ ↔ records.any _ = true
    simp only [List.any_eq_true, Bool.not_eq_true']
  | rewrapEnvelopes k => cases hwrites

/-- Along every run of calls for a tenant, what a create, an update or an import stores after a
rotation to `k` has committed is under version `k` of the key or a later one, if and only if
none that follows a rotation beyond the first version has anything to store. -/
theorem rotation_kept_iff (hlabels : cloud.encryptor.Labels keyVersion) (db : Database R)
    (calls : List (CloudCall R)) :
    (∀ k call here, AfterRotation cloud db calls k call here → call.writes = true →
      ∀ payload, here.Stores (call.next cloud here) payload → payload.atLeast keyVersion k) ↔
    ∀ k call here, AfterRotation cloud db calls k call here → 1 < k → call.brings here = false := by
  constructor
  -- a later write that brings payloads would bring one under version 1
  · intro hkept k call here hafter hk
    by_contra hbrings
    rw [Bool.not_eq_false] at hbrings
    have hwrites : call.writes = true := by
      cases call with
      | rewrapEnvelopes => cases hbrings
      | _ => rfl
    obtain ⟨hunder, hstores⟩ := CloudCall.stores_iff hlabels hwrites hafter.commits
    obtain ⟨payload, hpayload⟩ := hstores.mpr hbrings
    have hone := hunder payload hpayload
    have hleast := hkept k call here hafter hwrites payload hpayload
    cases payload with
    | plain => cases hone
    | cipher content provenance =>
      have hversion : k ≤ keyVersion content := hleast.1
      rw [hone.1] at hversion
      omega
  -- a write of version 1 meets the rotation to 1 only
  · intro hcond k call here hafter hwrites payload hpayload
    obtain ⟨hunder, hstores⟩ := CloudCall.stores_iff hlabels hwrites hafter.commits
    have hone := hunder payload hpayload
    have hk : k ≤ 1 := by
      by_contra hlater
      have hnothing := hcond k call here hafter (by omega)
      rw [hstores.mp ⟨payload, hpayload⟩] at hnothing
      cases hnothing
    cases payload with
    | plain => trivial
    | cipher content provenance =>
      refine ⟨?_, ?_⟩
      · rw [hone.1]
        exact hk
      · rw [hone.2]
        exact hk

/-! ### An update after a rotation -/

/-- A tenant of a deployment with the encryptor of the examples. -/
def acme : CloudTenant where
  tenantId := ⟨1⟩
  encryptor := labelling

/-- A memory of one of its users. -/
def cloudNote (content : String) (version : Int)
    (h : (content, version) ∈ [("likes tea", 1), ("likes coffee", 2)]) : Memory ℚ where
  id := ⟨7⟩
  ownerId := "cloud:00000000-0000-0000-0000-000000000001:00000000-0000-0000-0000-000000000002"
  content := content
  memoryType := .fact
  importance := 1 / 2
  confidence := 1 / 2
  state := .active
  version := version
  createdAt := day2026 1
  updatedAt := day2026 1
  occurredAt := none
  space := none
  provenance := typedByUser
  embedding := some { profileId := "constant", profileVersion := "v1", dimension := 64, checked := by decide }
  idempotencyKey := none
  checked := by
    simp only [List.mem_cons, Prod.mk.injEq, List.not_mem_nil, or_false] at h
    rcases h with ⟨rfl, rfl⟩ | ⟨rfl, rfl⟩ <;> decide +kernel

def createTea : CloudCall ℚ :=
  .create (cloudNote "likes tea" 1 (by decide)) "fingerprint" (List.replicate 64 1)

def updateToCoffee : CloudCall ℚ :=
  .update (cloudNote "likes coffee" 2 (by decide)) 1
    ((cloudNote "likes coffee" 2 (by decide)).snapshot "updated") (List.replicate 64 1)

/-- A note is written, rewrapped and updated: every call commits. -/
theorem updates_commit (k : Int) (hk : k ∈ [1, 2]) :
    (CloudCall.rewrapEnvelopes k).commits acme (afterCalls acme {} [createTea]) = true ∧
      updateToCoffee.commits acme (afterCalls acme {} [createTea, .rewrapEnvelopes k]) = true := by
  simp only [List.mem_cons, List.not_mem_nil, or_false] at hk
  rcases hk with rfl | rfl <;> decide +kernel

/-- After a rotation to the first version, updates are kept under it. -/
theorem rotation_kept_first :
    (∃ here, AfterRotation acme {} [createTea, .rewrapEnvelopes 1, updateToCoffee] 1 updateToCoffee
        here) ∧
      ∀ k call here,
        AfterRotation acme {} [createTea, .rewrapEnvelopes 1, updateToCoffee] k call here →
        call.writes = true → ∀ payload, here.Stores (call.next acme here) payload →
          payload.atLeast labelOf k := by
  obtain ⟨hrotated, hupdated⟩ := updates_commit 1 (by decide)
  refine ⟨⟨_, [createTea], [], [], rfl, hrotated, rfl, hupdated⟩, ?_⟩
  refine (rotation_kept_iff labelling_labels {} _).mpr fun k call here hafter hk => ?_
  have hmem := hafter.mem
  simp only [createTea, updateToCoffee, List.mem_cons, CloudCall.rewrapEnvelopes.injEq, reduceCtorEq,
    List.not_mem_nil, or_false, false_or] at hmem
  omega

/-- A rotation to the second version is undone by the next update. -/
theorem rotation_undone :
    ¬ ∀ (calls : List (CloudCall ℚ)) k call here, AfterRotation acme {} calls k call here →
      call.writes = true → ∀ payload, here.Stores (call.next acme here) payload →
        payload.atLeast labelOf k := by
  intro hclaim
  obtain ⟨hrotated, hupdated⟩ := updates_commit 2 (by decide)
  have hafter : AfterRotation acme {} [createTea, .rewrapEnvelopes 2, updateToCoffee] 2
      updateToCoffee (afterCalls acme {} [createTea, .rewrapEnvelopes 2]) :=
    ⟨[createTea], [], [], rfl, hrotated, rfl, hupdated⟩
  obtain ⟨hunder, hstores⟩ := CloudCall.stores_iff labelling_labels rfl hupdated
  obtain ⟨payload, hpayload⟩ := hstores.mpr rfl
  have hone := hunder payload hpayload
  have hleast := hclaim _ _ _ _ hafter rfl payload hpayload
  cases payload with
  | plain => cases hone
  | cipher content provenance =>
    have hversion : 2 ≤ labelOf content := hleast.1
    rw [hone.1] at hversion
    omega

end OpenMemory.Postgres
