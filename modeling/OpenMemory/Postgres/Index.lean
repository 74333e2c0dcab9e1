import OpenMemory.Application.Reference
import OpenMemory.Postgres.Effects

/-!
# The vector index over whole runs

Each memory is searchable through the embedding table of the profile that a service is
configured with. `Database.indexed` says that the join of `search_candidates` finds the
memory there; it is what every update and confirmation by that service is meant to leave
behind. But `update` writes the new vector with a plain `UPDATE` of the table of the new
dimension, which does nothing when that table holds no row of the memory yet, as after a
profile switch. `runs_index_iff` says that this is the only gap: along every run, the
mutations leave their memories indexed exactly when each finds a row to update.
-/

namespace OpenMemory.Postgres

open Lib
open MonadExcept (ofExcept)

variable {R : Type} [Python R]

/-! ## The index tables -/

namespace Database

/-- The join finds the memory under the profile. -/
def indexed (db : Database R) (tenant : Option UUID) (profile : EmbeddingProfile)
    (memoryId : UUID) : Bool :=
  match embeddingTable profile.dimension with
  | .error _ => false
  | .ok table => someAnd (fun row => (db.joined tenant table profile memoryId row).isSome)
      (db.visible tenant memoryId)

/-- The table of the dimension holds a row of the memory, under whatever profile. -/
def hasRow (db : Database R) (tenant : Option UUID) (dimension : Int) (memoryId : UUID) : Bool :=
  match embeddingTable dimension with
  | .error _ => false
  | .ok .hash =>
    ((db.embeddings.get? memoryId).filter fun row => decide (row.tenantId = tenant)).isSome
  | .ok .semantic => !(db.semanticRows tenant memoryId).isEmpty

variable {db db' : Database R}

omit [Python R] in
theorem indexed_congr (h : db'.index = db.index) (tenant : Option UUID)
    (profile : EmbeddingProfile) (memoryId : UUID) :
    db'.indexed tenant profile memoryId = db.indexed tenant profile memoryId := by
  obtain ⟨hmemories, hrest⟩ := Prod.mk.inj h
  obtain ⟨hembeddings, hsemantic⟩ := Prod.mk.inj hrest
  unfold indexed visible joined
  rw [hmemories, hembeddings, hsemantic]

omit [Python R] in
theorem hasRow_congr (hembeddings : db'.embeddings = db.embeddings)
    (hsemantic : db'.semantic = db.semantic) (tenant : Option UUID) (dimension : Int)
    (memoryId : UUID) :
    db'.hasRow tenant dimension memoryId = db.hasRow tenant dimension memoryId := by
  unfold hasRow semanticRows
  rw [hembeddings, hsemantic]

omit [Python R] in
theorem hasRow_of_index (h : db'.index = db.index) (tenant : Option UUID) (dimension : Int)
    (memoryId : UUID) :
    db'.hasRow tenant dimension memoryId = db.hasRow tenant dimension memoryId := by
  obtain ⟨hembeddings, hsemantic⟩ := Prod.mk.inj (Prod.mk.inj h).2
  exact hasRow_congr hembeddings hsemantic tenant dimension memoryId

end Database

/-! ## What a mutation does to the index -/

section Mutations

open MemoryApplicationService PostgresMemoryRepository

variable {tenant : Option UUID} {encryptor : Option TenantEnvelopeEncryptor}

/-- Values for the tables that name the profile, at a version of the memory. -/
structure OfProfile (tenant : Option UUID) (profile : EmbeddingProfile) (version : Int)
    (values : EmbeddingValues R) : Prop where
  tenantId : values.tenantId = tenant
  profileId : values.profileId = profile.id
  profileVersion : values.profileVersion = profile.version
  dimension : values.dimension = profile.dimension
  sourceVersion : profile.dimension = 384 → values.sourceVersion = some version

variable {profile : EmbeddingProfile} {i : UUID}

omit [Python R] in
theorem indexed_eq {table : EmbeddingTable} {db : Database R} {row : MemoryRow R}
    (htable : embeddingTable profile.dimension = .ok table)
    (hrow : db.visible tenant i = some row) :
    db.indexed tenant profile i = (db.joined tenant table profile i row).isSome := by
  unfold Database.indexed
  rw [htable, hrow]
  rfl

omit [Python R] in
/-- Without a row of the memory in the hash table, the profile has none there. -/
theorem joined_hash_eq_none {db : Database R} {row : MemoryRow R}
    (h : ((db.embeddings.get? i).filter fun row => decide (row.tenantId = tenant)) = none) :
    db.joined tenant .hash profile i row = none := by
  unfold Database.joined
  rw [Option.map_eq_none_iff, Option.filter_eq_none_iff]
  intro e he hpass
  simp only [Bool.and_eq_true] at hpass
  exact Option.filter_eq_none_iff.mp h e he hpass.1.1.1

omit [Python R] in
/-- Without a row of the memory in the semantic table, no profile has one there. -/
theorem joined_semantic_eq_none {db : Database R} {row : MemoryRow R}
    (h : db.semanticRows tenant i = []) :
    db.joined tenant .semantic profile i row = none := by
  unfold Database.joined
  rw [Option.map_eq_none_iff, Option.filter_eq_none_iff]
  intro e he hpass
  have hmem := (db.semantic.mem_items_iff _ e).mpr he
  have habsent := List.filter_eq_nil_iff.mp h _ hmem
  simp only [Bool.and_eq_true, decide_eq_true_eq] at hpass habsent
  exact habsent ⟨trivial, hpass.1.1⟩

omit [Python R] in
/-- The `UPDATE` leaves the memory indexed exactly when there was a row to update. -/
theorem indexed_updateEmbedding {table : EmbeddingTable} {values : EmbeddingValues R}
    {db db' : Database R} {row : MemoryRow R}
    (htable : embeddingTable profile.dimension = .ok table)
    (hvalues : OfProfile tenant profile row.version values)
    (hrow : db.visible tenant i = some row)
    (h : db.updateEmbedding tenant table i values = .ok db') :
    db'.indexed tenant profile i = db.hasRow tenant profile.dimension i := by
  obtain ⟨hmemories, hcases⟩ := updateEmbedding_ok h
  have hvisible : db'.visible tenant i = some row := by
    unfold Database.visible
    rw [hmemories]
    exact hrow
  rw [indexed_eq htable hvisible]
  unfold Database.hasRow
  rw [htable]
  cases hcases with
  | hashNone hnone hembeddings _ =>
    have hnone' := hembeddings ▸ hnone
    rw [joined_hash_eq_none hnone', hnone]
    rfl
  | hashRow e hone hembeddings _ =>
    rw [hone]
    simp [Database.joined, hembeddings, EmbeddingValues.row, hvalues.tenantId, hvalues.profileId,
      hvalues.profileVersion, hvalues.dimension]
  | semanticNone hnone _ hsemantic =>
    have hnone' : db'.semanticRows tenant i = [] := by
      unfold Database.semanticRows
      rw [hsemantic]
      exact hnone
    rw [joined_semantic_eq_none hnone', hnone]
    rfl
  | semanticRow key e hone _ hsemantic =>
    have hsource := hvalues.sourceVersion (embeddingTable_semantic htable)
    rw [hone]
    simp [Database.joined, hsemantic, EmbeddingValues.semanticRow, hvalues.tenantId,
      hvalues.profileId, hvalues.profileVersion, hvalues.dimension, hsource]

/-- The values that an update writes into the embedding table. -/
theorem embeddingValues_ok {session : Session (DbTxn R) R} {memory : Memory R}
    {descriptor : EmbeddingDescriptor} {vector : List R} {values : EmbeddingValues R}
    (hembedding : memory.embedding = some descriptor)
    (hprofile : profile.descriptor = .ok descriptor)
    (h : session.embeddingValues memory vector = .ok values) :
    OfProfile session.tenant profile memory.version values := by
  obtain ⟨d, hd, rfl⟩ := embeddingValues_eq h
  obtain rfl := Option.some.inj (hd.symm.trans hembedding)
  obtain ⟨hid, hversion, hdimension⟩ := descriptor_ok hprofile
  refine ⟨rfl, hid, hversion, hdimension, fun h384 => ?_⟩
  rw [← hdimension] at h384
  exact if_pos h384

/-- A new version is indexed under the profile it is stored with exactly when the table of that
profile's dimension held a row of the memory. -/
theorem indexed_nextVersion {svc : MemoryApplicationService R} {v : Int}
    {args : Memory.EvolveArgs R} {descriptor : EmbeddingDescriptor} {m r : Memory R}
    {db db' : Database R}
    (hnext : NextVersion svc (Session.sequential R tenant encryptor) i v args m r db db')
    (hargs : args.embedding = some (some descriptor))
    (hprofile : profile.descriptor = .ok descriptor) :
    db'.indexed tenant profile i = db.hasRow tenant profile.dimension i := by
  obtain rfl := hnext.id
  obtain ⟨vector, old, row, table, values, db₁, db₂, db₃, -, hbefore, hup, hafter⟩ := hnext.stored
  have hembedding : r.embedding = some descriptor := by
    rw [hnext.evolved.embedding, hargs]
    rfl
  obtain ⟨htenant, hversion⟩ := memoryValues_ok hup.encoded
  have hprofileTable : embeddingTable profile.dimension = .ok table := by
    rw [← (descriptor_ok hprofile).2.2, ← hup.chosen, tableOf, hembedding]
    rfl
  obtain ⟨hmemories, hembeddings, hsemantic⟩ := hup.stored
  let stored : MemoryRow R := { old with toMemoryValues := row.toMemoryValues }
  have hof : OfProfile tenant profile stored.version values := by
    show OfProfile tenant profile row.version values
    rw [hversion]
    exact embeddingValues_ok hembedding hprofile hup.described
  have hvisible : db₂.visible tenant r.id = some stored := by
    unfold Database.visible
    rw [hmemories, Dict.get?_set_self]
    exact Option.filter_eq_some_iff.mpr ⟨rfl, decide_eq_true htenant⟩
  rw [Database.indexed_congr hafter,
    indexed_updateEmbedding hprofileTable hof hvisible hup.embedded,
    Database.hasRow_congr hembeddings hsemantic, Database.hasRow_of_index hbefore]

/-- What a mutation under a key needs: a replay finds the memory indexed, a first call finds a
row to update. -/
def Database.prepared (db : Database R) (tenant : Option UUID) (profile : EmbeddingProfile)
    (key : Option OperationKey) (memoryId : UUID) : Bool :=
  if key.any (db.ledgered tenant) then db.indexed tenant profile memoryId
  else db.hasRow tenant profile.dimension memoryId

theorem indexed_serviceUpdate {svc : MemoryApplicationService R} {c : UpdateMemoryCommand R}
    {r : Memory R} {db db' : Database R}
    (h : (svc.update (postgresUnitOfWork (Session.sequential R tenant encryptor)) c).run db
      = .ok (r, db')) :
    db'.indexed tenant svc.embeddingProvider.profile c.memoryId =
      db.prepared tenant svc.embeddingProvider.profile
        ((truthyKey c.idempotencyKey).map fun k => (c.ownerId, .update, k)) c.memoryId := by
  unfold Database.prepared
  rcases serviceUpdate_ok h with ⟨hledgered, hindex⟩ | ⟨hledgered, m, at_, d, hdesc, hnext⟩
  · rw [if_pos hledgered]
    exact Database.indexed_congr hindex _ _ _
  · rw [if_neg (Bool.eq_false_iff.mp hledgered)]
    exact indexed_nextVersion hnext rfl hdesc

theorem indexed_confirmCandidate {svc : MemoryApplicationService R} {c : ConfirmCandidateCommand}
    {r : Memory R} {db db' : Database R}
    (h : (svc.confirmCandidate (postgresUnitOfWork (Session.sequential R tenant encryptor))
      c).run db = .ok (r, db')) :
    db'.indexed tenant svc.embeddingProvider.profile c.memoryId =
      db.prepared tenant svc.embeddingProvider.profile
        (some (c.ownerId, .confirm, c.idempotencyKey)) c.memoryId := by
  unfold Database.prepared
  rw [Option.any_some]
  rcases confirmCandidate_ok h with ⟨hledgered, hindex⟩ | ⟨hledgered, m, at_, d, hdesc, hnext⟩
  · rw [if_pos hledgered]
    exact Database.indexed_congr hindex _ _ _
  · rw [if_neg (Bool.eq_false_iff.mp hledgered)]
    exact indexed_nextVersion hnext rfl hdesc

end Mutations

/-! ## Searching the index -/

/-- `search_candidates` under the profile considers the memory: whatever the query, filters that
its row passes find it, unless the limit cuts it off. -/
def Database.Considers (db : Database R) (tenant : Option UUID) (profile : EmbeddingProfile)
    (memoryId : UUID) : Prop :=
  ∃ table row, embeddingTable profile.dimension = .ok table ∧
    db.visible tenant memoryId = some row ∧
    ∀ (queryEmbedding : List R) (filters : SearchFilters R) (limit : Int),
      Database.passes filters row = true → (db.memories.items.length : Int) ≤ limit →
      ∃ similarity, (memoryId, row, similarity) ∈
        db.selectCandidates tenant row.ownerId table queryEmbedding profile filters limit

theorem considers_of_indexed {db : Database R} {tenant : Option UUID} {profile : EmbeddingProfile}
    {i : UUID} (h : db.indexed tenant profile i = true) : db.Considers tenant profile i := by
  unfold Database.indexed at h
  cases htable : embeddingTable profile.dimension with
  | error e =>
    rw [htable] at h
    cases h
  | ok table =>
    cases hrow : db.visible tenant i with
    | none =>
      rw [htable, hrow] at h
      cases h
    | some row =>
      rw [htable, hrow] at h
      obtain ⟨vector, hvector⟩ := Option.isSome_iff_exists.mp h
      refine ⟨table, row, htable, hrow, fun query filters limit hpass hlimit => ?_⟩
      obtain ⟨hget, htenant⟩ := Option.filter_eq_some_iff.mp hrow
      have howned : (i, row) ∈ db.ownedRows tenant row.ownerId :=
        List.mem_filter.mpr ⟨(db.memories.mem_items_iff i row).mpr hget, by simpa using htenant⟩
      refine ⟨Python.sub (Python.ofInt 1) (Database.cosineDistance vector query), ?_⟩
      unfold Database.selectCandidates
      rw [List.take_of_length_le, List.mem_insertionSort]
      · refine List.mem_filterMap.mpr ⟨(i, row), howned, ?_⟩
        simp only [hpass, if_true, hvector, Option.map_some]
      · rw [List.length_insertionSort]
        have hfound := List.length_filterMap_le (fun e : UUID × MemoryRow R =>
          if Database.passes filters e.2 = true then
            (db.joined tenant table profile e.1 e.2).map fun vector =>
              (e.1, e.2, Python.sub (Python.ofInt 1) (Database.cosineDistance vector query))
          else none) (db.ownedRows tenant row.ownerId)
        have hrows : (db.ownedRows tenant row.ownerId).length ≤ db.memories.items.length :=
          List.length_filter_le _ _
        omega

/-! ## Runs -/

/-- A call of the service, or one transaction of the re-embedding job. -/
inductive Operation (R : Type) [Python R]
  | request (request : Request R)
  | reembed (memoryId : UUID) (expectedVersion : Int) (profile : EmbeddingProfile)
      (embedding : List R)
  | cutover (ownerId : String) (profile : EmbeddingProfile)

/-- An operation, with the service that carries it out and its session. -/
structure Step (R : Type) [Python R] where
  service : MemoryApplicationService R
  tenant : Option UUID := none
  encryptor : Option TenantEnvelopeEncryptor := none
  operation : Operation R

namespace Step

/-- The profile that the service is configured with. -/
def profile (step : Step R) : EmbeddingProfile := step.service.embeddingProvider.profile

/-- The transaction. -/
def body (step : Step R) : DbTxn R Unit :=
  let session := Session.sequential R step.tenant step.encryptor
  match step.operation with
  | .request request =>
    (fun _ => ()) <$> request.execOn step.service (postgresUnitOfWork session)
  | .reembed memoryId expectedVersion profile embedding =>
    (fun _ => ()) <$> PostgresMemoryRepository.upsertEmbeddingProfile session memoryId
      expectedVersion profile embedding
  | .cutover ownerId profile =>
    (fun _ => ()) <$> PostgresMemoryRepository.cutoverEmbeddingProfile session ownerId profile

/-- The database after the step, rolled back if it raises. -/
def next (db : Database R) (step : Step R) : Database R := (step.body.attempt db).2

/-- The memory that an update or a confirmation addresses, with its ledger key. -/
def mutation (step : Step R) : Option (UUID × Option OperationKey) :=
  match step.operation with
  | .request (.update c) =>
    some (c.memoryId, (MemoryApplicationService.truthyKey c.idempotencyKey).map fun k =>
      (c.ownerId, .update, k))
  | .request (.confirmCandidate c) =>
    some (c.memoryId, some (c.ownerId, .confirm, c.idempotencyKey))
  | _ => none

/-- The step is an update or a confirmation of the memory that succeeds. -/
def Mutates (step : Step R) (db : Database R) (memoryId : UUID) : Prop :=
  (step.mutation.map Prod.fst) = some memoryId ∧ ∃ u, (step.body.attempt db).1 = .ok u

/-- What the step needs of the database in order to leave the memory indexed. -/
def prepared (step : Step R) (db : Database R) (memoryId : UUID) : Bool :=
  db.prepared step.tenant step.profile (step.mutation.bind Prod.snd) memoryId

/-- A successful mutation leaves its memory indexed exactly when it was prepared. -/
theorem indexed_next {step : Step R} {db : Database R} {i : UUID} (h : step.Mutates db i) :
    (next db step).indexed step.tenant step.profile i = step.prepared db i := by
  obtain ⟨hmutation, u, hok⟩ := h
  have hrun : step.body.run db = .ok (u, next db step) :=
    Txn.attempt_ok.mp (Prod.ext hok rfl)
  unfold prepared
  unfold body at hrun
  unfold mutation at hmutation ⊢
  cases hop : step.operation with
  | reembed | cutover =>
    rw [hop] at hmutation
    cases hmutation
  | request request =>
    rw [hop] at hmutation hrun
    obtain ⟨response, hrun, -⟩ := Txn.map_ok.mp hrun
    cases request with
    | update c =>
      cases hmutation
      obtain ⟨r, hr, -⟩ := Txn.map_ok.mp hrun
      exact indexed_serviceUpdate hr
    | confirmCandidate c =>
      cases hmutation
      obtain ⟨r, hr, -⟩ := Txn.map_ok.mp hrun
      exact indexed_confirmCandidate hr
    | _ => cases hmutation

end Step

/-- The database after some steps, from empty tables. -/
def after (steps : List (Step R)) : Database R := steps.foldl Step.next {}

/-- Along every run, each successful update or confirmation leaves its memory in the index of
the service's profile, where a search considers it, if and only if each of them finds a row of
the memory in the table of the profile's dimension; one that is replayed must find the memory
indexed already. -/
theorem runs_index_iff (steps : List (Step R)) :
    (∀ before step rest i, steps = before ++ step :: rest → step.Mutates (after before) i →
      (after (before ++ [step])).indexed step.tenant step.profile i = true ∧
        (after (before ++ [step])).Considers step.tenant step.profile i) ↔
    ∀ before step rest i, steps = before ++ step :: rest → step.Mutates (after before) i →
      step.prepared (after before) i = true := by
  have hafter : ∀ before (step : Step R), after (before ++ [step]) = Step.next (after before) step :=
    fun before step => List.foldl_concat Step.next {} step before
  constructor
  · intro h before step rest i hsteps hmutates
    have hindexed := (h before step rest i hsteps hmutates).1
    rw [hafter, Step.indexed_next hmutates] at hindexed
    exact hindexed
  · intro h before step rest i hsteps hmutates
    have hindexed := h before step rest i hsteps hmutates
    rw [← Step.indexed_next hmutates, ← hafter] at hindexed
    exact ⟨hindexed, considers_of_indexed hindexed⟩

/-! ### A profile switch -/

/-- A service on day `n` that embeds every text as a constant vector. -/
def serviceWith (dimension : Nat) (n : Fin 365) : MemoryApplicationService ℚ :=
  { serviceOn n 7 with
    embeddingProvider :=
      { profile := { id := "constant", version := "v1", dimension := dimension }
        embed := fun _ _ => .ok (List.replicate dimension 1) } }

/-- Written while the 64-dimensional profile was configured. -/
def writtenUnder64 : Step ℚ where
  service := serviceWith 64 1
  operation := .request (.write (noteCommand "alice" "likes tea" none none))

/-- Updated after the switch to 384 dimensions. -/
def updatedUnder384 : Step ℚ where
  service := serviceWith 384 2
  operation := .request (.update
    { ownerId := "alice", memoryId := ⟨7⟩, expectedVersion := 1, content := some "likes coffee" })

theorem unindexed_after_switch :
    ¬ ∀ (steps before : List (Step ℚ)) (step : Step ℚ) (rest : List (Step ℚ)) (i : UUID),
      steps = before ++ step :: rest → step.Mutates (after before) i →
      (after (before ++ [step])).indexed step.tenant step.profile i = true := by
  intro hclaim
  have hrun : (updatedUnder384.body.attempt (after [writtenUnder64])).1.isOk = true ∧
      (after [writtenUnder64, updatedUnder384]).indexed none updatedUnder384.profile ⟨7⟩ = false := by
    decide +kernel
  have hok : ∃ u, (updatedUnder384.body.attempt (after [writtenUnder64])).1 = .ok u := by
    cases hattempt : (updatedUnder384.body.attempt (after [writtenUnder64])).1 with
    | error e =>
      rw [hattempt] at hrun
      cases hrun.1
    | ok u => exact ⟨u, rfl⟩
  have hindexed := hclaim [writtenUnder64, updatedUnder384] [writtenUnder64] updatedUnder384 []
    ⟨7⟩ rfl ⟨rfl, hok⟩
  exact Bool.false_ne_true (hrun.2.symm.trans hindexed)

end OpenMemory.Postgres
