import OpenMemory.Postgres.Freshness

/-!
# No stale vectors, over whole runs

Each unit of work that writes, updates, imports, re-embeds or cuts over keeps `Fresh`, if it is
`Careful`: a write whose text is embedded like its normal form, an update that does not leave
a hash row behind. `search_sourced` follows by induction on the run, and
`stale_after_switch` is a run with an update that is not careful.
-/

namespace OpenMemory.Postgres

open Lib
open MonadExcept (ofExcept)
open MemoryApplicationService PostgresMemoryRepository

variable {R : Type} [Python R]

/-! ## What a run must avoid -/

/-- The update leaves a vector behind in the hash table: it is made under a profile of another
dimension, for the first time, of a memory that has a hash row, and it changes the content, or
the vector is the one that an import supplied of the version that ends. -/
structure LeavesStale (encryptor : Option TenantEnvelopeEncryptor) (before : List (Transaction R))
    (t : Transaction R) (c : UpdateMemoryCommand R) (db : Database R) : Prop where
  dimension : t.profile.dimension ≠ 64
  first : ((truthyKey c.idempotencyKey).map fun k =>
    (c.ownerId, IdempotencyOperationType.update, k)).any (db.ledgered t.tenant) = false
  succeeds : ∃ outcome, (t.attempt encryptor db).1 = .ok outcome
  stale : ∃ row e, db.memories.get? c.memoryId = some row ∧
    db.embeddings.get? c.memoryId = some e ∧
    ((∃ content, Opens encryptor c.memoryId row content ∧
        collapse (c.content.getD content) ≠ content) ∨
      Supplied before c.memoryId row.version e.vector)

/-- The unit of work is one of those that write to the index, and leaves no stale vector. -/
def Careful (encryptor : Option TenantEnvelopeEncryptor) (before : List (Transaction R))
    (t : Transaction R) (db : Database R) : Prop :=
  match t.work with
  | .request (.write c) => t.service.embeddingProvider.embed c.content false =
      t.service.embeddingProvider.embed (collapse c.content) false
  | .request (.update c) => ¬ LeavesStale encryptor before t c db
  | .request (.importMemories _ _) => True
  | .batch _ _ _ _ => True
  | .cutover _ => True
  | _ => False

/-! ## Reading rows -/

/-- A memory that is read from a row has the content that the row opens to. -/
theorem opens_of_memoryFromRow {execute : (q : Statement R) → DbTxn R q.Result}
    {tenant : Option UUID} {encryptor : Option TenantEnvelopeEncryptor} {i : UUID}
    {row : MemoryRow R} {memory : Memory R}
    (h : Session.memoryFromRow ⟨tenant, encryptor, execute⟩ i row = .ok memory) :
    ∃ content, Opens encryptor i row content ∧ memory.content = collapse content ∧
      ∀ other, Opens encryptor i row other → other = content := by
  obtain ⟨-, -, content, provenance, hopen, hcontent⟩ := memoryFromRow_ok h
  refine ⟨content, ?_⟩
  unfold Opens
  -- a plain payload is its own content
  cases hpayload : row.payload with
  | plain text json =>
    rw [hpayload] at hopen
    simp only [Session.openPayload, except_bind_ok, except_pure_ok] at hopen
    obtain ⟨_, -, heq⟩ := hopen
    obtain ⟨rfl, -⟩ := Prod.mk.inj heq
    exact ⟨rfl, hcontent, fun other hother => hother⟩
  -- an encrypted one opens under its own tenant only
  | cipher text json =>
    rw [hpayload] at hopen
    cases encryptor with
    | none => cases hopen
    | some e =>
      cases htenant : row.tenantId with
      | none =>
        rw [htenant] at hopen
        cases hopen
      | some owner =>
        rw [htenant] at hopen
        simp only [Session.openPayload, except_bind_ok, except_pure_ok] at hopen
        obtain ⟨opened, hopened, _, -, _, -, heq⟩ := hopen
        obtain ⟨rfl, -⟩ := Prod.mk.inj heq
        refine ⟨⟨e, owner, rfl, rfl, hopened⟩, hcontent, ?_⟩
        rintro other ⟨e', owner', he', howner, hother⟩
        obtain rfl := Option.some.inj he'
        obtain rfl := Option.some.inj howner
        exact Except.ok.inj (hother.symm.trans hopened)

namespace Fresh

variable {encryptor : Option TenantEnvelopeEncryptor} {before : List (Transaction R)}
  {db db' : Database R} {tenant : Option UUID}

/-- In a fresh database a memory's content is what its row opens to. -/
theorem opens_read {execute : (q : Statement R) → DbTxn R q.Result} {i : UUID}
    {row : MemoryRow R} {memory : Memory R} (hfresh : Fresh encryptor before db)
    (hrow : db.memories.get? i = some row)
    (h : Session.memoryFromRow ⟨tenant, encryptor, execute⟩ i row = .ok memory) :
    Opens encryptor i row memory.content ∧
      ∀ other, Opens encryptor i row other → other = memory.content := by
  obtain ⟨content, hopens, hcontent, hunique⟩ := opens_of_memoryFromRow h
  rw [hfresh.normal i row content hrow hopens] at hcontent
  rw [hcontent]
  exact ⟨hopens, hunique⟩

/-! ## Requests -/

/-- A vector that the provider of a transaction computed. -/
theorem sourced_computed {t : Transaction R} {d : EmbeddingDescriptor} {i : UUID} {version : Int}
    {content : String} {vector : List R} (ran : t ∈ before)
    (hd : t.profile.descriptor = .ok d)
    (h : t.service.embeddingProvider.embed content false = .ok vector) :
    Sourced before d.profileId d.profileVersion d.dimension i version content vector := by
  obtain ⟨hid, hversion, hdimension⟩ := descriptor_ok hd
  exact .computed t ran hid.symm hversion.symm hdimension.symm h

/-- A write stores the vector of its own text with the normalised content. -/
theorem write (hrev : Reversible encryptor) (hfresh : Fresh encryptor before db)
    {t : Transaction R} (ran : t ∈ before) {c : WriteMemoryCommand R} {r : WriteMemoryResult R}
    (hcareful : t.service.embeddingProvider.embed c.content false =
      t.service.embeddingProvider.embed (collapse c.content) false)
    (h : (t.service.write (postgresUnitOfWork (Session.sequential R tenant encryptor)) c).run db
      = .ok (r, db')) : Fresh encryptor before db' := by
  -- a new memory is embedded from the content it was written with
  have hnew : ∀ {db₁ : Database R} {at_ : DateTime} {fp : String}, Fresh encryptor before db₁ →
      (t.service.writeNew (postgresUnitOfWork (Session.sequential R tenant encryptor)) c at_
        fp).run db₁ = .ok (r, db') → Fresh encryptor before db' := by
    intro db₁ at_ fp hfresh₁ hrun
    simp only [writeNew, Txn.bind_ok, Txn.ofExcept_ok] at hrun
    obtain ⟨vector, _, hvec, descriptor, _, ⟨hdesc, rfl⟩, memory, _, ⟨hmemory, rfl⟩, hcreate⟩ :=
      hrun
    obtain ⟨hvector, -, rfl⟩ := embedChecked_ok hvec
    rcases create_ok hcreate with hinserted | hindex
    · refine hfresh₁.inserted hrev hinserted fun d hd => ?_
      obtain ⟨hcontent, -⟩ := Memory.create_holds hmemory
      have hdescribed : memory.embedding = some descriptor := Memory.create_embedding hmemory
      obtain rfl := Option.some.inj (hd.symm.trans hdescribed)
      rw [hcontent]
      exact sourced_computed ran hdesc (hcareful.symm.trans hvector)
    · exact hfresh₁.congr hindex
  simp only [MemoryApplicationService.write, Txn.bind_ok, Txn.ofExcept_ok] at h
  obtain ⟨_, _, ⟨-, rfl⟩, at_, _, hat, h⟩ := h
  obtain ⟨-, rfl⟩ := now_ok hat
  -- a prior memory changes nothing
  cases hkey : truthyKey c.idempotencyKey with
  | none =>
    rw [hkey] at h
    exact hnew hfresh h
  | some k =>
    rw [hkey] at h
    obtain ⟨prior, db₁, hfind, h⟩ := Txn.bind_ok.mp h
    have hfresh₁ := hfresh.congr (keeps_findByIdempotencyKey _ _ _ _ _ hfind)
    cases prior with
    | none => exact hnew hfresh₁ h
    | some prior =>
      simp only [Txn.bind_ok, raiseIf_ok, Txn.pure_ok] at h
      obtain ⟨_, _, ⟨-, rfl⟩, -, rfl⟩ := h
      exact hfresh₁

/-- An update stores the vector of the new content in the table of its profile. A hash row that
it leaves behind is of the same content, since the update is careful. -/
theorem update (hrev : Reversible encryptor) (hfresh : Fresh encryptor before db)
    {t : Transaction R} {c : UpdateMemoryCommand R} {r : Memory R}
    (hwork : t.work = .request (.update c)) (hcareful : ¬ LeavesStale encryptor before t c db)
    (h : (t.service.update (postgresUnitOfWork (Session.sequential R t.tenant encryptor)) c).run db
      = .ok (r, db')) : Fresh encryptor (before ++ [t]) db' := by
  have hmono : ∀ t' ∈ before, t' ∈ before ++ [t] := fun t' ht' => List.mem_append_left _ ht'
  have ran : t ∈ before ++ [t] := List.mem_append_right _ (List.mem_singleton_self t)
  rcases serviceUpdate_ok h with ⟨-, hindex⟩ | ⟨hfirst, m, at_, d, hdesc, hnext⟩
  · exact (hfresh.congr hindex).mono hmono
  · obtain ⟨o, row, howned, hread⟩ := hnext.read
    obtain ⟨hget, -, -⟩ := get?_of_owned howned
    obtain ⟨hopens, -⟩ := hfresh.opens_read hget hread
    have hid : r.id = c.memoryId := hnext.id
    have hembedding : r.embedding = some d := hnext.evolved.embedding
    have hcontent : r.content = collapse (c.content.getD m.content) := hnext.evolved.content
    have hversion : r.version = c.expectedVersion + 1 := by
      rw [hnext.evolved.version, hnext.version]
    obtain ⟨vector, old, new, table, values, db₁, db₂, db₃, hvector, hbefore, hup, hafter⟩ :=
      hnext.stored
    refine Fresh.congr ?_ hafter
    refine ((hfresh.congr hbefore).mono hmono).updated hrev hup hversion ?_ ?_
    · intro d' hd'
      obtain rfl := Option.some.inj (hd'.symm.trans hembedding)
      exact sourced_computed ran hdesc hvector
    · intro htable e he
      rw [hid] at he ⊢
      have he' : db.embeddings.get? c.memoryId = some e := by
        rw [← (Prod.mk.inj (Prod.mk.inj hbefore).2).1]
        exact he
      have hdimension : t.profile.dimension ≠ 64 := by
        intro h64
        have hchosen := hup.chosen
        rw [tableOf, hembedding] at hchosen
        replace hchosen : embeddingTable d.dimension = .ok table := hchosen
        rw [(descriptor_ok hdesc).2.2] at hchosen
        replace hchosen : embeddingTable t.profile.dimension = .ok table := hchosen
        rw [h64] at hchosen
        exact htable (Except.ok.inj hchosen).symm
      have hsucceeds : ∃ outcome, (t.attempt encryptor db).1 = .ok outcome := by
        have hbody : (t.body (Session.sequential R t.tenant encryptor)).run db =
            .ok (.answered (.memory r), db') := by
          unfold Transaction.body
          rw [hwork]
          exact Txn.map_ok.mpr ⟨_, Txn.map_ok.mpr ⟨r, h, rfl⟩, rfl⟩
        exact ⟨_, congrArg Prod.fst (Txn.attempt_ok.mpr hbody)⟩
      -- were the row of another content, or supplied, the update would not be careful
      have hnot : ¬ ((∃ content, Opens encryptor c.memoryId row content ∧
          collapse (c.content.getD content) ≠ content) ∨
          Supplied before c.memoryId row.version e.vector) :=
        fun hstale => hcareful ⟨hdimension, hfirst, hsucceeds, row, e, hget, he', hstale⟩
      have hsame : r.content = m.content := by
        rw [hcontent]
        by_contra hne
        exact hnot (.inl ⟨m.content, hopens, hne⟩)
      obtain ⟨row', hrow', -, hsourced⟩ := hfresh.hash _ e he'
      obtain rfl := Option.some.inj (hget.symm.trans hrow')
      rw [hsame]
      cases hsourced m.content hopens with
      | computed t' ran' id ofVersion ofDimension embedded =>
        exact .computed t' (hmono t' ran') id ofVersion ofDimension embedded
      | supplied imported => exact absurd (.inr imported) hnot

/-- A record of an import brings the vector that was supplied, or the one that the provider
computed for it. -/
theorem importRecords (hrev : Reversible encryptor) {t : Transaction R} (ran : t ∈ before)
    {o : String} {records prepared : List (MemoryRecordDto R)} {result : ImportResult}
    (hwork : ∀ record ∈ records, ∃ all, t.work = .request (.importMemories o all) ∧ record ∈ all)
    (hprepared : List.Forall₂ (Prepared t.service) records prepared)
    (hfresh : Fresh encryptor before db)
    (h : (PostgresMemoryAdminRepository.importRecords (Session.sequential R tenant encryptor)
      prepared).run db = .ok (result, db')) : Fresh encryptor before db' := by
  induction hprepared generalizing db result with
  | nil =>
    obtain ⟨-, rfl⟩ := Txn.pure_ok.mp h
    exact hfresh
  | @cons record record' rest rest' hone hrest ih =>
    simp only [PostgresMemoryAdminRepository.importRecords, Txn.bind_ok, Txn.pure_ok] at h
    obtain ⟨stored, db₁, hrecord, more, db₂, hmore, -, rfl⟩ := h
    refine ih (fun r hr => hwork r (List.mem_cons_of_mem _ hr)) ?_ hmore
    rcases importRecord_ok hrecord with ⟨vector, hvector, hinserted⟩ | hindex
    · refine hfresh.inserted hrev hinserted fun d hd => ?_
      cases hone with
      | kept =>
        obtain ⟨all, hall, hmem⟩ := hwork record List.mem_cons_self
        exact .supplied ⟨t, ran, o, all, hall, record, hmem, rfl, rfl, hvector⟩
      | embedded hdescribed hours hembed =>
        obtain rfl := Option.some.inj hvector
        obtain rfl := Option.some.inj (hd.symm.trans hdescribed)
        exact sourced_computed ran hours hembed
    · exact hfresh.congr hindex

theorem importMemories (hrev : Reversible encryptor) (hfresh : Fresh encryptor before db)
    {t : Transaction R} (ran : t ∈ before) {o : String} {records : List (MemoryRecordDto R)}
    {result : ImportResult} (hwork : t.work = .request (.importMemories o records))
    (h : (t.service.importMemories (postgresUnitOfWork (Session.sequential R tenant encryptor)) o
      records).run db = .ok (result, db')) : Fresh encryptor before db' := by
  simp only [MemoryApplicationService.importMemories, Txn.bind_ok, Txn.ofExcept_ok] at h
  obtain ⟨_, _, ⟨-, rfl⟩, ids, _, ⟨-, rfl⟩, _, db₁, hends, existing, db₂, hexisting, prepared, db₃,
    hprepare, h⟩ := h
  obtain ⟨rfl, hprepared⟩ := prepareRecords_ok hprepare
  have hends := keeps_checkEndpoints _ _ _ _ _ _ hends
  have hexisting := keeps_existingRecords _ _ _ _ _ hexisting
  obtain ⟨stored, db₄, hstored, h⟩ := Txn.bind_ok.mp h
  obtain ⟨_, db₅, hrelations, h⟩ := Txn.bind_ok.mp h
  obtain ⟨-, rfl⟩ := Txn.pure_ok.mp h
  have hfresh₃ := hfresh.congr (hexisting.trans hends)
  have hfresh₄ := importRecords hrev ran (fun record hrecord => ⟨records, hwork, hrecord⟩) hprepared
    hfresh₃ hstored
  exact hfresh₄.congr (keeps_importRelations _ _ _ _ _ hrelations)

/-! ## Re-embedding and cutover -/

/-- The memories of a batch: each is read from a row that the session sees. -/
def Listed (encryptor : Option TenantEnvelopeEncryptor) (tenant : Option UUID) (db : Database R)
    (memory : Memory R) : Prop :=
  ∃ row, db.visible tenant memory.id = some row ∧
    (Session.sequential R tenant encryptor).memoryFromRow memory.id row = .ok memory

theorem listed_of_listForReembedding {o : String} {cursor : Option UUID} {limit : Int}
    {memories : List (Memory R)}
    (h : (listForReembedding (Session.sequential R tenant encryptor) o cursor limit).run db
      = .ok (memories, db')) :
    db' = db ∧ ∀ memory ∈ memories, Listed encryptor tenant db memory := by
  simp only [listForReembedding, Txn.bind_ok, Txn.ofExcept_ok] at h
  obtain ⟨_, _, ⟨-, rfl⟩, rows, _, hrows, hmap, rfl⟩ := h
  obtain ⟨rfl, rfl⟩ := Prod.mk.inj (Except.ok.inj hrows)
  refine ⟨rfl, fun memory hmemory => ?_⟩
  obtain ⟨row, hrow, hread⟩ := mem_of_mapM_ok hmap hmemory
  obtain ⟨hid, -⟩ := memoryFromRow_ok hread
  have hmem := List.mem_of_mem_take hrow
  rw [List.mem_insertionSort] at hmem
  obtain ⟨heligible, -⟩ := List.mem_filter.mp hmem
  obtain ⟨howned, -⟩ := List.mem_filter.mp heligible
  obtain ⟨hitem, htenant⟩ := List.mem_filter.mp howned
  rw [Bool.and_eq_true] at htenant
  refine ⟨row.2, ?_, hid ▸ hread⟩
  rw [hid]
  exact Option.filter_eq_some_iff.mpr ⟨(Dict.mem_items_iff _ _ _).mp hitem, htenant.1⟩

/-- `upsert_embedding_profile` finds the memory at another version, or stores the vector. -/
theorem upsertEmbeddingProfile_ok {i : UUID} {v : Int} {profile : EmbeddingProfile}
    {vector : List R} {done : Bool}
    (h : (upsertEmbeddingProfile (Session.sequential R tenant encryptor) i v profile vector).run db
      = .ok (done, db')) :
    db' = db ∨ ∃ row, db.visible tenant i = some row ∧ row.version = v ∧
      db.upsertSemantic tenant i v profile vector = .ok db' := by
  obtain ⟨_, _, hraise, hrest⟩ := Txn.bind_ok.mp h
  obtain ⟨-, rfl⟩ := raiseIf_ok.mp hraise
  obtain ⟨current, db₁, hcurrent, hlast⟩ := Txn.bind_ok.mp hrest
  obtain ⟨hseen, rfl⟩ := Prod.mk.inj (Except.ok.inj hcurrent)
  cases current with
  | false =>
    obtain ⟨-, rfl⟩ := Txn.pure_ok.mp hlast
    exact .inl rfl
  | true =>
    obtain ⟨_, db₂, hupsert, hpure⟩ := Txn.bind_ok.mp hlast
    obtain ⟨-, rfl⟩ := Txn.pure_ok.mp hpure
    cases hrow : Database.visible _ tenant i with
    | none =>
      rw [hrow] at hseen
      cases hseen
    | some row =>
      rw [hrow] at hseen
      exact .inr ⟨row, rfl, of_decide_eq_true hseen, of_map_ok hupsert⟩

/-- One memory of a batch: the vector, if it is stored, is of the content that was read. -/
theorem reembed (hfresh : Fresh encryptor before db) {t : Transaction R} (ran : t ∈ before)
    {memory : Memory R} {counter : EmbeddingReembeddingJob.Counter}
    (hlisted : Listed encryptor tenant db memory)
    (h : (EmbeddingReembeddingJob.reembed t.service.embeddingProvider
      (Session.sequential R tenant encryptor) memory).run db = .ok (counter, db')) :
    Fresh encryptor before db' ∧ db'.memories = db.memories := by
  unfold EmbeddingReembeddingJob.reembed at h
  rcases Txn.tryCatch_ok.mp h with hdone | ⟨e, -, hfailed⟩
  -- the vector of a listed memory is that of its content
  · simp only [Txn.bind_ok, Txn.ofExcept_ok, raiseIf_ok, Txn.pure_ok] at hdone
    obtain ⟨vector, _, ⟨hvector, rfl⟩, _, _, ⟨-, rfl⟩, done, db₁, hupsert, -, rfl⟩ := hdone
    rcases upsertEmbeddingProfile_ok hupsert with rfl | ⟨row, hrow, hversion, hupserted⟩
    · exact ⟨hfresh, rfl⟩
    · obtain ⟨row', hrow', hread⟩ := hlisted
      obtain rfl := Option.some.inj (hrow.symm.trans hrow')
      rw [← hversion] at hupserted
      obtain ⟨hget, -⟩ := Option.filter_eq_some_iff.mp hrow
      obtain ⟨-, hunique⟩ := hfresh.opens_read hget hread
      constructor
      · refine hfresh.upserted hrow (fun content hcontent => ?_) hupserted
        rw [hunique content hcontent]
        exact .computed t ran rfl rfl rfl hvector
      · simp only [Database.upsertSemantic, except_bind_ok, except_pure_ok] at hupserted
        obtain ⟨_, -, _, -, rfl⟩ := hupserted
        rfl
  -- a failure is counted, and nothing is stored
  · obtain ⟨-, rfl⟩ := Txn.pure_ok.mp hfailed
    exact ⟨hfresh, rfl⟩

/-- The loop of a batch. Its upserts leave `memories` alone, so each memory is still listed when
its turn comes. -/
theorem reembedAll {t : Transaction R} (ran : t ∈ before) {memories : List (Memory R)}
    {counters : List EmbeddingReembeddingJob.Counter} (hfresh : Fresh encryptor before db)
    (hlisted : ∀ memory ∈ memories, Listed encryptor tenant db memory)
    (h : (EmbeddingReembeddingJob.reembedAll t.service.embeddingProvider
      (Session.sequential R tenant encryptor) memories).run db = .ok (counters, db')) :
    Fresh encryptor before db' := by
  induction memories generalizing db counters with
  | nil =>
    obtain ⟨-, rfl⟩ := Txn.pure_ok.mp h
    exact hfresh
  | cons memory rest ih =>
    simp only [EmbeddingReembeddingJob.reembedAll, Txn.bind_ok, Txn.pure_ok] at h
    obtain ⟨counter, db₁, hone, more, db₂, hmore, -, rfl⟩ := h
    obtain ⟨hfresh₁, hmemories⟩ := hfresh.reembed ran (hlisted memory List.mem_cons_self) hone
    refine ih hfresh₁ (fun other hother => ?_) hmore
    obtain ⟨row, hrow, hread⟩ := hlisted other (List.mem_cons_of_mem _ hother)
    refine ⟨row, ?_, hread⟩
    unfold Database.visible at hrow ⊢
    rw [hmemories]
    exact hrow

theorem batch (hfresh : Fresh encryptor before db) {t : Transaction R} (ran : t ∈ before)
    {o : String} {cursor : Option UUID} {batchSize : Int} {dryRun : Bool}
    {counters : List EmbeddingReembeddingJob.Counter}
    (h : (EmbeddingReembeddingJob.batch t.service.embeddingProvider
      (Session.sequential R tenant encryptor) o cursor batchSize dryRun).run db
        = .ok (counters, db')) : Fresh encryptor before db' := by
  simp only [EmbeddingReembeddingJob.batch, Txn.bind_ok, Txn.ofExcept_ok, raiseIf_ok] at h
  obtain ⟨_, _, ⟨-, rfl⟩, _, _, ⟨-, rfl⟩, _, _, ⟨-, rfl⟩, memories, db₁, hlist, h⟩ := h
  obtain ⟨rfl, hlisted⟩ := listed_of_listForReembedding hlist
  cases dryRun with
  | true =>
    obtain ⟨-, rfl⟩ := Txn.pure_ok.mp h
    exact hfresh
  | false => exact reembedAll ran hfresh hlisted h

theorem cutoverEmbeddingProfile (hfresh : Fresh encryptor before db) {o : String}
    {profile : EmbeddingProfile} {count : Nat}
    (h : (PostgresMemoryRepository.cutoverEmbeddingProfile (Session.sequential R tenant encryptor) o
      profile).run db = .ok (count, db')) : Fresh encryptor before db' := by
  obtain ⟨_, _, howner, hrest⟩ := Txn.bind_ok.mp h
  obtain ⟨-, rfl⟩ := Txn.ofExcept_ok.mp howner
  obtain ⟨counts, db₁, hcounts, hlast⟩ := Txn.bind_ok.mp hrest
  simp only [semanticCoverage, Txn.bind_ok, Txn.ofExcept_ok, Txn.pure_ok] at hcounts
  obtain ⟨_, _, ⟨-, rfl⟩, eligible, _, heligible, covered, _, hcovered, -, rfl⟩ := hcounts
  obtain ⟨-, rfl⟩ := Prod.mk.inj (Except.ok.inj heligible)
  obtain ⟨-, rfl⟩ := Prod.mk.inj (Except.ok.inj hcovered)
  obtain ⟨_, _, hraise, hcut⟩ := Txn.bind_ok.mp hlast
  obtain ⟨-, rfl⟩ := raiseIf_ok.mp hraise
  obtain ⟨-, rfl⟩ := Prod.mk.inj (Except.ok.inj hcut)
  exact hfresh.cutover tenant o profile

/-! ## Runs -/

/-- One careful unit of work keeps the database fresh. -/
theorem attempt (hrev : Reversible encryptor) (hfresh : Fresh encryptor before db)
    {t : Transaction R} (hcareful : Careful encryptor before t db) :
    Fresh encryptor (before ++ [t]) (t.attempt encryptor db).2 := by
  have hmono : ∀ t' ∈ before, t' ∈ before ++ [t] := fun t' ht' => List.mem_append_left _ ht'
  have ran : t ∈ before ++ [t] := List.mem_append_right _ (List.mem_singleton_self t)
  have hlater := hfresh.mono hmono
  -- an error rolls everything back
  cases hrun : (t.body (Session.sequential R t.tenant encryptor)).run db with
  | error e =>
    have hdb : (t.attempt encryptor db).2 = db :=
      congrArg Prod.snd (Txn.attempt_error.mpr ⟨hrun, rfl⟩)
    rw [hdb]
    exact hlater
  | ok result =>
    obtain ⟨outcome, db'⟩ := result
    have hdb : (t.attempt encryptor db).2 = db' := congrArg Prod.snd (Txn.attempt_ok.mpr hrun)
    rw [hdb]
    unfold Careful at hcareful
    unfold Transaction.body at hrun
    -- what embeds, embeds the content that it stores
    cases hwork : t.work with
    | batch o cursor batchSize dryRun =>
      rw [hwork] at hrun
      obtain ⟨counters, hrun, -⟩ := Txn.map_ok.mp hrun
      exact hlater.batch ran hrun
    | cutover o =>
      rw [hwork] at hrun
      obtain ⟨count, hrun, -⟩ := Txn.map_ok.mp hrun
      exact hlater.cutoverEmbeddingProfile hrun
    | rotation k =>
      rw [hwork] at hcareful
      exact hcareful.elim
    | request request =>
      rw [hwork] at hrun hcareful
      obtain ⟨response, hrun, -⟩ := Txn.map_ok.mp hrun
      -- the other requests are not careful
      cases request with
      | write c =>
        obtain ⟨r, hr, -⟩ := Txn.map_ok.mp hrun
        exact hlater.write hrev ran hcareful hr
      | update c =>
        obtain ⟨r, hr, -⟩ := Txn.map_ok.mp hrun
        exact hfresh.update hrev hwork hcareful hr
      | importMemories o records =>
        obtain ⟨r, hr, -⟩ := Txn.map_ok.mp hrun
        exact hlater.importMemories hrev ran hwork hr
      | _ => exact hcareful.elim

end Fresh

theorem afterAll_concat (encryptor : Option TenantEnvelopeEncryptor) (ts : List (Transaction R))
    (t : Transaction R) :
    afterAll encryptor (ts ++ [t]) = (t.attempt encryptor (afterAll encryptor ts)).2 :=
  List.foldl_concat _ _ _ _

/-- A careful run keeps the database fresh. -/
theorem fresh_afterAll {encryptor : Option TenantEnvelopeEncryptor} (hrev : Reversible encryptor)
    (ts : List (Transaction R))
    (hcareful : ∀ before t rest, ts = before ++ t :: rest →
      Careful encryptor before t (afterAll encryptor before)) :
    Fresh encryptor ts (afterAll encryptor ts) := by
  -- induction from the end: the last unit of work sees the run before it
  induction ts using List.reverseRecOn with
  | nil => exact .empty
  | append_singleton ts t ih =>
    have hbefore : Fresh encryptor ts (afterAll encryptor ts) := by
      refine ih fun before t' rest hts => hcareful before t' (rest ++ [t]) ?_
      rw [hts, List.append_assoc, List.cons_append]
    rw [afterAll_concat]
    exact hbefore.attempt hrev (hcareful ts t [] rfl)

/-- The join of a search finds only sourced vectors in a fresh database. -/
theorem sourced_of_joined {encryptor : Option TenantEnvelopeEncryptor}
    {before : List (Transaction R)} {db : Database R} (hfresh : Fresh encryptor before db)
    {tenant : Option UUID} {table : EmbeddingTable} {profile : EmbeddingProfile} {i : UUID}
    {row : MemoryRow R} {vector : List R} {content : String}
    (hrow : db.memories.get? i = some row) (hopens : Opens encryptor i row content)
    (h : db.joined tenant table profile i row = some vector) :
    Sourced before profile.id profile.version profile.dimension i row.version content vector := by
  cases table with
  | hash =>
    obtain ⟨e, he, rfl⟩ := Option.map_eq_some_iff.mp h
    obtain ⟨hget, hpass⟩ := Option.filter_eq_some_iff.mp he
    simp only [Bool.and_eq_true, decide_eq_true_eq] at hpass
    obtain ⟨row', hrow', -, hsourced⟩ := hfresh.hash i e hget
    obtain rfl := Option.some.inj (hrow.symm.trans hrow')
    rw [← hpass.1.1.2, ← hpass.1.2, ← hpass.2]
    exact hsourced content hopens
  | semantic =>
    obtain ⟨e, he, rfl⟩ := Option.map_eq_some_iff.mp h
    obtain ⟨hget, hpass⟩ := Option.filter_eq_some_iff.mp he
    simp only [Bool.and_eq_true, decide_eq_true_eq] at hpass
    obtain ⟨row', hrow', -, -, hsourced⟩ := hfresh.semantic _ e hget
    obtain rfl := Option.some.inj (hrow.symm.trans hrow')
    rw [← hpass.2]
    exact hsourced hpass.1.2 content hopens

/-- Along every run of writes, updates, imports, re-embedding batches and cutovers, by services
of any profiles, in which the provider embeds the text of each write like its normal form and no
update leaves a stale vector in the hash table: each candidate of `search_candidates` for a
profile is scored with a vector that the profile's provider computed of the memory's current
content, or that the import of its current version supplied. -/
theorem search_sourced {encryptor : Option TenantEnvelopeEncryptor} (hrev : Reversible encryptor)
    (ts : List (Transaction R))
    (hcareful : ∀ before t rest, ts = before ++ t :: rest →
      Careful encryptor before t (afterAll encryptor before))
    (tenant : Option UUID) (ownerId : String) (query : List R) (profile : EmbeddingProfile)
    (filters : SearchFilters R) (limit : Int) (candidates : List (MemorySearchCandidate R))
    (db' : Database R)
    (h : (searchCandidates (Session.sequential R tenant encryptor) ownerId query profile filters
      limit).run (afterAll encryptor ts) = .ok (candidates, db')) :
    ∀ candidate ∈ candidates, ∃ vector,
      candidate.similarity = Python.sub (Python.ofInt 1) (Database.cosineDistance vector query) ∧
      Sourced ts profile.id profile.version profile.dimension candidate.memory.id
        candidate.memory.version candidate.memory.content vector := by
  have hfresh := fresh_afterAll hrev ts hcareful
  simp only [searchCandidates, Txn.bind_ok, Txn.ofExcept_ok] at h
  obtain ⟨_, _, ⟨-, rfl⟩, table, _, ⟨-, rfl⟩, rows, _, hrows, hmap, rfl⟩ := h
  obtain ⟨rfl, -⟩ := Prod.mk.inj (Except.ok.inj hrows)
  intro candidate hcandidate
  obtain ⟨⟨i, row, similarity⟩, hrow, hread⟩ := mem_of_mapM_ok hmap hcandidate
  obtain ⟨memory, hmemory, hpure⟩ := except_bind_ok.mp hread
  obtain rfl := except_pure_ok.mp hpure
  obtain ⟨hid, hversion, -⟩ := memoryFromRow_ok hmemory
  -- the row was found by the join of its own memory
  have hfound := List.mem_of_mem_take hrow
  rw [List.mem_insertionSort] at hfound
  obtain ⟨⟨j, row'⟩, howned, hsome⟩ := List.mem_filterMap.mp hfound
  dsimp only at hsome
  split at hsome
  · obtain ⟨vector, hvector, heq⟩ := Option.map_eq_some_iff.mp hsome
    obtain ⟨rfl, hrest⟩ := Prod.mk.inj heq
    obtain ⟨rfl, rfl⟩ := Prod.mk.inj hrest
    have hget := (Dict.mem_items_iff _ _ _).mp (List.mem_filter.mp howned).1
    refine ⟨vector, rfl, ?_⟩
    show Sourced ts _ _ _ memory.id memory.version memory.content vector
    rw [hid, hversion]
    exact sourced_of_joined hfresh hget (hfresh.opens_read hget hmemory).1 hvector
  · cases hsome

/-! ### A profile switch that leaves a vector behind -/

/-- A service on day `n` that embeds a text as the unit vector at the text's length. -/
def spotService (dimension : Nat) (n : Fin 365) : MemoryApplicationService ℚ :=
  { serviceOn n 7 with
    embeddingProvider :=
      { profile := { id := "spot", version := "v1", dimension := dimension }
        embed := fun text _ => .ok ((List.replicate dimension 0).set text.length 1) } }

/-- Written while the 64-dimensional profile was configured. -/
def teaUnder64 : Transaction ℚ where
  service := spotService 64 1
  work := .request (.write (noteCommand "alice" "likes tea" none none))

/-- The new content, stored under a profile of the given dimension. -/
def coffeeUnder (dimension : Nat) : Transaction ℚ where
  service := spotService dimension 2
  work := .request (.update
    { ownerId := "alice", memoryId := ⟨7⟩, expectedVersion := 1, content := some "likes coffee" })

/-- The vector of a text under the 64-dimensional profile. -/
def spotVector (text : String) : List ℚ := (List.replicate 64 0).set text.length 1

/-- A search for the text under the 64-dimensional profile. -/
def searchUnder64 (text : String) : DbTxn ℚ (List (MemorySearchCandidate ℚ)) :=
  searchCandidates (Session.sequential ℚ none none) "alice" (spotVector text)
    (spotService 64 3).embeddingProvider.profile {} 10

theorem search_sourced_after_update :
    Reversible none ∧ ∃ candidates db', (searchUnder64 "likes coffee").run
        (afterAll none [teaUnder64, coffeeUnder 64]) = .ok (candidates, db') ∧
      candidates.length = 1 ∧ ∀ candidate ∈ candidates, ∃ vector,
        candidate.similarity = Python.sub (Python.ofInt 1)
          (Database.cosineDistance vector (spotVector "likes coffee")) ∧
        Sourced [teaUnder64, coffeeUnder 64] "spot" "v1" 64 candidate.memory.id
          candidate.memory.version candidate.memory.content vector := by
  have hrev : Reversible none := fun e he => by cases he
  have hlength : ((searchUnder64 "likes coffee").attempt
      (afterAll none [teaUnder64, coffeeUnder 64])).1.map List.length = .ok 1 := by
    decide +kernel
  obtain ⟨candidates, hrun, hone⟩ := Txn.run_of_attempt_map hlength
  refine ⟨hrev, candidates, _, hrun, hone, ?_⟩
  refine search_sourced hrev [teaUnder64, coffeeUnder 64] ?_ none "alice" _ _ {} 10 candidates _ hrun
  intro before t rest hts
  rcases before with _ | ⟨first, _ | ⟨second, others⟩⟩
  · obtain ⟨rfl, -⟩ := List.cons.inj hts
    exact congrArg (fun text => Except.ok (spotVector text)) (by decide)
  · obtain ⟨-, hts'⟩ := List.cons.inj hts
    obtain ⟨rfl, -⟩ := List.cons.inj hts'
    exact fun hstale => hstale.dimension rfl
  · simp at hts

theorem stale_after_switch :
    ¬ ∀ (ts : List (Transaction ℚ)), (∀ t ∈ ts, t.work.writesIndex = true) →
      ∀ (ownerId : String) (query : List ℚ) (profile : EmbeddingProfile)
        (filters : SearchFilters ℚ) (limit : Int) (candidates : List (MemorySearchCandidate ℚ))
        (db' : Database ℚ),
        (searchCandidates (Session.sequential ℚ none none) ownerId query profile filters limit).run
          (afterAll none ts) = .ok (candidates, db') →
        ∀ candidate ∈ candidates, ∃ vector,
          candidate.similarity = Python.sub (Python.ofInt 1) (Database.cosineDistance vector query) ∧
          Sourced ts profile.id profile.version profile.dimension candidate.memory.id
            candidate.memory.version candidate.memory.content vector := by
  intro hclaim
  -- the search for the old text finds the memory at full similarity
  have hfound : ((searchUnder64 "likes tea").attempt
      (afterAll none [teaUnder64, coffeeUnder 384])).1.map (List.map fun candidate =>
        (candidate.memory.content, candidate.similarity)) = .ok [("likes coffee", 1)] := by
    decide +kernel
  obtain ⟨candidates, hrun, hlist⟩ := Txn.run_of_attempt_map hfound
  obtain ⟨candidate, hcandidates, hpair⟩ := List.map_eq_singleton_iff.mp hlist
  obtain ⟨hcontent, hsimilarity⟩ := Prod.mk.inj hpair
  obtain ⟨vector, hvector, hsourced⟩ := hclaim [teaUnder64, coffeeUnder 384] (by simp [teaUnder64,
    coffeeUnder, Work.writesIndex]) "alice" _ _ {} 10 candidates _ hrun candidate
    (hcandidates ▸ List.mem_singleton_self candidate)
  rw [hcontent] at hsourced
  cases hsourced with
  | computed t ran id ofVersion ofDimension embedded =>
    -- the 64-dimensional provider embeds the new content elsewhere
    have ht : t.service.embeddingProvider.embed "likes coffee" false =
        .ok (spotVector "likes coffee") := by
      rcases List.mem_pair.mp ran with rfl | rfl
      · rfl
      · exact absurd ofDimension (by decide)
    obtain rfl := Except.ok.inj (ht.symm.trans embedded)
    have hzero : (1 : ℚ) ≠ Python.sub (Python.ofInt 1)
        (Database.cosineDistance (spotVector "likes coffee") (spotVector "likes tea")) := by
      decide +kernel
    exact hzero (hsimilarity.symm.trans hvector)
  | supplied imported =>
    obtain ⟨t, ran, o, records, hwork, -⟩ := imported
    rcases List.mem_pair.mp ran with rfl | rfl
    · cases hwork
    · cases hwork

end OpenMemory.Postgres
