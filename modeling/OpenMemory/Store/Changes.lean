import OpenMemory.Store.Requests

/-!
# Elementary changes of the store

Whatever the operation, a committed call is a sequence of elementary changes, each
with its guard (`Change`): a memory created under a fresh id, a new version of a
live memory, a removal with its tombstone, a relation between two live memories, a
record restored from a package (only a call without one removes anything), a
completed ledger entry. `exec_changes` proves this for every request, import
included, so that an invariant of the store needs one case per elementary change
and none per operation.

A `Call` is a request made through a configured service. A run is a sequence of
calls, successful or not: a failed one leaves the store as it was.
-/

namespace OpenMemory

open Lib

variable {R : Type} [Python R]

namespace InMemoryStore

/-- A new id: no memory is stored under it and none was deleted under it. -/
def Fresh (s : InMemoryStore R) (i : UUID) : Prop :=
  s.memories.get? i = none ∧ ∀ o t, (o, t, i) ∉ s.tombstones

/-- Without tombstones, an id that is absent is fresh. -/
theorem fresh_of_no_tombstone {s : InMemoryStore R} {i : UUID} (habsent : s.memories.get? i = none)
    (hnone : s.tombstones = ∅) : s.Fresh i :=
  ⟨habsent, fun _ _ h => by simp [hnone] at h⟩

open MemoryApplicationService in
/-- What `_validate_import_record` has established of an accepted record. -/
structure ValidRecord (o : String) (record : MemoryRecordDto R) : Prop where
  owner : record.memory.ownerId = o
  versions : record.history.map MemoryVersion.version = versionRange record.memory.version
  ids : ∀ v ∈ record.history, v.memoryId = record.memory.id
  relations : ∀ r ∈ record.relations, r.ownerId = o

/-- One elementary change made on behalf of owner `o` with the memories of `package`
at hand. -/
inductive Change (o : String) (package : List (Memory R)) :
    InMemoryStore R → InMemoryStore R → Prop
  | created {s : InMemoryStore R} {m : Memory R} {fingerprint : String} {vector : List R}
      (owner : m.ownerId = o) (version : m.version = 1) (fresh : s.Fresh m.id)
      (unused : ∀ k, m.idempotencyKey = some k → s.fingerprints.get? (o, k) = none) :
      Change o package s (s.putNew m fingerprint vector)
  | versioned {s : InMemoryStore R} {m m' : Memory R} {history : List (MemoryVersion R)}
      {reason : String} {vector : List R} (live : s.memories.get? m.id = some m)
      (owner : m.ownerId = o) (identity : m.SameIdentity m') (next : m'.version = m.version + 1)
      (past : s.historyByMemory.get? m.id = some history) :
      Change o package s (s.putVersion m' history (m'.snapshot reason) vector)
  | removed {s : InMemoryStore R} {m : Memory R} {i : UUID} (noPackage : package = [])
      (live : s.memories.get? i = some m) (owner : m.ownerId = o) :
      Change o package s (s.remove o m i)
  | related {s : InMemoryStore R} {r : Relation} (owner : r.ownerId = o)
      (able : s.Relatable r) : Change o package s (s.addRelation r)
  | restored {s : InMemoryStore R} {record : MemoryRecordDto R} {vector : List R}
      (member : record.memory ∈ package) (valid : ValidRecord o record)
      (absent : s.memories.get? record.memory.id = none)
      (unblocked : (o, record.memory.tenantId, record.memory.id) ∉ s.tombstones) :
      Change o package s (InMemoryMemoryAdminRepository.storeRecord s record vector)
  | recorded {s : InMemoryStore R} {key : OperationKey} {entry : StoredIdempotencyOperation}
      (owner : key.1 = o) (new : s.idempotencyOperations.get? key = none)
      (status : entry.status = .completed) : Change o package s (s.record key entry)

/-- Any number of elementary changes. -/
abbrev Changes (o : String) (package : List (Memory R)) :
    InMemoryStore R → InMemoryStore R → Prop :=
  Reaches (Change o package)

end InMemoryStore

open InMemoryStore

variable {s s' : InMemoryStore R} {o : String} {package : List (Memory R)}

/-! ## Bodies as changes -/

/-- A new version is one change, and leaves the ledger. -/
theorem InMemoryStore.NewVersion.changes {i : UUID} {t : Option String} {v : Int}
    {args : Memory.EvolveArgs R} {m m' : Memory R} (hk : s.Keyed)
    (h : NewVersion s o i t v args m m' s') :
    Changes o package s s' ∧ s'.idempotencyOperations = s.idempotencyOperations := by
  obtain ⟨history, reason, vector, hh, rfl⟩ := h.stored
  obtain ⟨hget, howner, -⟩ := lookup_eq_some.mp h.live
  have hev := Memory.evolve_ok h.evolved
  have hid : m.id = i := hk i m hget
  rw [hev.identity.id] at hh
  refine ⟨.single (.versioned ?_ howner hev.identity hev.version hh), rfl⟩
  rw [hid, hget]

/-- So is a stored relation, where one is asked for. -/
theorem relationStored_changes {source : UUID} {rel : Option (RelationType × UUID)}
    (h : MemoryApplicationService.RelationStored o source rel s s') :
    Changes o package s s' ∧ s'.idempotencyOperations = s.idempotencyOperations := by
  unfold MemoryApplicationService.RelationStored at h
  cases rel with
  | none =>
    subst h
    exact ⟨.refl, rfl⟩
  | some p =>
    obtain ⟨r, howner, -, -, -, hable, rfl⟩ := h
    exact ⟨.single (.related howner hable), rfl⟩

/-- An update changes the memory and may store a relation. -/
theorem updated_changes {svc : MemoryApplicationService R} {c : UpdateMemoryCommand R}
    {r : Memory R} (hk : s.Keyed) (h : MemoryApplicationService.Updated svc c s r s') :
    Changes c.ownerId package s s' ∧
      s'.idempotencyOperations = s.idempotencyOperations := by
  obtain ⟨m, at_, descriptor, s₁, -, hver, hrel⟩ := h
  obtain ⟨hch₁, hops₁⟩ := hver.changes hk
  obtain ⟨hch₂, hops₂⟩ := relationStored_changes hrel
  exact ⟨hch₁.trans hch₂, hops₂.trans hops₁⟩

/-- Forgetting is one change, or none. -/
theorem forgot_changes {i : UUID} {t : Option String} {b : Bool}
    (h : MemoryApplicationService.Forgot s o i t b s') :
    Changes o [] s s' ∧ s'.idempotencyOperations = s.idempotencyOperations := by
  rcases h with ⟨-, -, rfl⟩ | ⟨m, -, hm, rfl⟩
  · exact ⟨.refl, rfl⟩
  · obtain ⟨hget, howner, -⟩ := lookup_eq_some.mp hm
    exact ⟨.single (.removed rfl hget howner), rfl⟩

/-- A ledgered operation is its body's changes and the completed entry. -/
theorem ledgered_changes {key : OperationKey} {fp : String}
    {replay : StoredIdempotencyOperation → Prop}
    {body : InMemoryStore R → StoredIdempotencyOperation → Prop} (howner : key.1 = o)
    (hbody : ∀ s₁ entry, body s₁ entry →
      Changes o package s s₁ ∧ s₁.idempotencyOperations = s.idempotencyOperations)
    (h : Ledgered s key fp replay body s') : Changes o package s s' := by
  cases h with
  | replayed => exact .refl
  | executed hnew hran _ hstatus =>
    obtain ⟨hch, hops⟩ := hbody _ _ hran
    exact hch.tail (.recorded howner (by rw [hops]; exact hnew) hstatus)

/-- A write creates a memory, or answers from the ledger. -/
theorem writeCases_changes {svc : MemoryApplicationService R} {t key : Option String}
    {fp : String} {r : WriteMemoryResult R} (hfresh : s.Fresh svc.uuid4)
    (h : MemoryApplicationService.WriteCases svc s o t key fp r s') :
    Changes o package s s' := by
  cases h with
  | reread => exact .refl
  | wrote hdrawn howner _ _ hcreated hunused =>
    obtain ⟨hid, ho, -, hv, -, -⟩ := Memory.create_ok hcreated
    have ho : r.memory.ownerId = o := ho.trans howner
    rw [ho] at hunused
    refine .single (.created ho hv ?_ hunused)
    rw [hid, hdrawn]
    exact hfresh

/-! ## Import as changes -/

namespace MemoryApplicationService

open InMemoryMemoryAdminRepository

/-- A record without its vector: what preparation leaves alone. -/
def bare (record : MemoryRecordDto R) : MemoryRecordDto R := { record with embedding := none }

theorem validateImportRecord_ok {ids : List UUID} {record : MemoryRecordDto R} {u : Unit}
    (h : validateImportRecord o ids record = .ok u) : ValidRecord o record := by
  simp only [validateImportRecord, except_bind_ok, raiseIf_except_ok] at h
  obtain ⟨_, -, _, howner, _, hhist, _, -, _, -, _, -, hrel⟩ := h
  simp only [Bool.or_eq_false_iff, decide_eq_false_iff_not, not_not, List.any_eq_false,
    decide_eq_true_eq] at howner hhist hrel
  exact ⟨howner, hhist.1, hhist.2, hrel⟩

/-- An accepted package: every record is valid, and every id comes from a record. -/
theorem validateImport_ok {ids ids' : List UUID} {records : List (MemoryRecordDto R)}
    (h : validateImport o ids records = .ok ids') :
    (∀ record ∈ records, ValidRecord o record) ∧
      ∀ i ∈ ids', i ∈ ids ∨ ∃ record ∈ records, record.memory.id = i := by
  induction records generalizing ids with
  | nil =>
    obtain rfl := except_pure_ok.mp h
    exact ⟨by simp, fun i hi => .inl hi⟩
  | cons record rest ih =>
    simp only [validateImport, except_bind_ok] at h
    obtain ⟨_, hrecord, hrest⟩ := h
    obtain ⟨hvalid, hids⟩ := ih hrest
    refine ⟨List.forall_mem_cons.mpr ⟨validateImportRecord_ok hrecord, hvalid⟩, fun i hi => ?_⟩
    rcases hids i hi with hmem | ⟨r, hr, rfl⟩
    · rcases List.mem_cons.mp hmem with rfl | hmem
      · exact .inr ⟨record, List.mem_cons_self, rfl⟩
      · exact .inl hmem
    · exact .inr ⟨r, List.mem_cons_of_mem _ hr, rfl⟩

/-- The endpoints of the relations are in the package or in the store. -/
theorem checkEndpoints_ok {ids endpoints : List UUID} {u : Unit}
    (h : (checkEndpoints (inMemoryUnitOfWork R) o ids endpoints).run s = .ok (u, s')) :
    s' = s ∧ ∀ i ∈ endpoints, i ∈ ids ∨ (s.lookup o i none).isSome := by
  induction endpoints with
  | nil =>
    obtain ⟨-, rfl⟩ := Txn.pure_ok.mp h
    exact ⟨rfl, by simp⟩
  | cons i rest ih =>
    unfold checkEndpoints at h
    by_cases hi : i ∈ ids
    · rw [if_pos hi] at h
      obtain ⟨rfl, hrest⟩ := ih h
      exact ⟨rfl, List.forall_mem_cons.mpr ⟨.inl hi, hrest⟩⟩
    · rw [if_neg hi] at h
      obtain ⟨found, s₁, hget, hthen⟩ := Txn.bind_ok.mp h
      cases hget
      obtain ⟨_, s₂, hraise, hloop⟩ := Txn.bind_ok.mp hthen
      obtain ⟨hsome, rfl⟩ := raiseIf_ok.mp hraise
      obtain ⟨rfl, hrest⟩ := ih hloop
      have hsome : (s'.lookup o i none).isSome := by
        simpa [Option.isSome_iff_ne_none] using hsome
      exact ⟨rfl, List.forall_mem_cons.mpr ⟨.inr hsome, hrest⟩⟩

/-- Looking for the existing records changes nothing. -/
theorem readOnly_existingRecords (records : List (MemoryRecordDto R)) :
    Txn.ReadOnly (existingRecords (inMemoryUnitOfWork R) o records) := by
  induction records with
  | nil => exact .pure _
  | cons record rest ih =>
    refine .bind (.of_run (fun _ => .ok _) fun _ => rfl) fun current => ?_
    cases current with
    | none =>
      exact .bind (.of_run (fun _ => .ok _) fun _ => rfl) fun _ =>
        .bind (readOnly_raiseIf _ _) fun _ => ih
    | some current => exact .bind (readOnly_raiseIf _ _) fun _ => .bind ih fun _ => .pure _

/-- Preparing the records adds their vectors only. -/
theorem map_bare_of_prepared {svc : MemoryApplicationService R}
    {records prepared : List (MemoryRecordDto R)}
    (h : List.Forall₂ (Prepared svc) records prepared) :
    prepared.map bare = records.map bare := by
  induction h with
  | nil => rfl
  | cons hrecord _ ih =>
    rw [List.map_cons, List.map_cons, ih]
    cases hrecord <;> rfl

/-- A record of the package, up to its vector. -/
theorem mem_of_map_bare {records prepared : List (MemoryRecordDto R)}
    (h : prepared.map bare = records.map bare) {p : MemoryRecordDto R} (hp : p ∈ prepared) :
    ∃ record ∈ records, bare record = bare p := by
  have hmem : bare p ∈ records.map bare := h ▸ List.mem_map_of_mem hp
  exact List.mem_map.mp hmem

/-- A record is stored if it is absent, or skipped as equal to the one there. -/
theorem importRecord_ok {record : MemoryRecordDto R} {stored : Bool}
    (h : importRecord s record = .ok (stored, s')) :
    (∃ vector, s.memories.get? record.memory.id = none ∧
      (record.memory.ownerId, record.memory.tenantId, record.memory.id) ∉ s.tombstones ∧
      s' = storeRecord s record vector) ∨
    ∃ current, s.memories.get? record.memory.id = some current ∧
      current.pyEq record.memory = true ∧ s' = s := by
  unfold importRecord at h
  -- a forgotten id is an error, and so is a new one without a vector
  by_cases htomb : (record.memory.ownerId, record.memory.tenantId, record.memory.id) ∈ s.tombstones
  · rw [if_pos htomb] at h
    cases h
  · rw [if_neg htomb] at h
    cases hm : s.memories.get? record.memory.id with
    -- an equal memory is there already
    | some current =>
      rw [hm] at h
      dsimp only at h
      by_cases heq : current.pyEq record.memory = true
      · rw [if_pos heq] at h
        cases h
        exact .inr ⟨current, rfl, heq, rfl⟩
      · rw [if_neg heq] at h
        cases h
    | none =>
      rw [hm] at h
      dsimp only at h
      cases hvec : record.embedding with
      | none =>
        rw [hvec] at h
        cases h
      | some vector =>
        rw [hvec] at h
        cases h
        exact .inl ⟨vector, rfl, htomb, rfl⟩

theorem ownerId_of_pyEq {a b : Memory R} (h : a.pyEq b = true) : a.ownerId = b.ownerId := by
  simp only [Memory.pyEq, Bool.and_eq_true, decide_eq_true_eq] at h
  exact h.1.1.1.1.1.1.1.1.1.1.1.1.1.1.1.2

/-- The first import loop: every record ends up live, and what was live stays. -/
theorem importRecords_changes {records : List (MemoryRecordDto R)} {result : ImportResult}
    (hvalid : ∀ record ∈ records, ValidRecord o record ∧ record.memory ∈ package)
    (h : importRecords records s = .ok (result, s')) :
    Changes o package s s' ∧
      (∀ i, (s.lookup o i none).isSome → (s'.lookup o i none).isSome) ∧
      ∀ record ∈ records, (s'.lookup o record.memory.id none).isSome := by
  induction records generalizing s result with
  | nil =>
    cases h
    exact ⟨.refl, fun _ hi => hi, by simp⟩
  | cons record rest ih =>
    simp only [importRecords, except_bind_ok] at h
    obtain ⟨⟨stored, s₁⟩, hone, ⟨result', s₂⟩, hrest, h⟩ := h
    cases h
    obtain ⟨hrec, hvalid⟩ := List.forall_mem_cons.mp hvalid
    obtain ⟨hch, hkeep, hlive⟩ := ih hvalid hrest
    -- the first record is restored, and what was live stays so
    rcases importRecord_ok hone with ⟨vector, habsent, htomb, rfl⟩ | ⟨current, hcur, heq, rfl⟩
    · have howner := hrec.1.owner
      rw [howner] at htomb
      refine ⟨.head (.restored hrec.2 hrec.1 habsent htomb) hch, fun i hi => hkeep i ?_,
        List.forall_mem_cons.mpr ⟨hkeep _ ?_, hlive⟩⟩
      · obtain ⟨m, hm⟩ := Option.isSome_iff_exists.mp hi
        obtain ⟨hget, ho, -⟩ := lookup_eq_some.mp hm
        have hne : i ≠ record.memory.id := by
          rintro rfl
          rw [habsent] at hget
          cases hget
        exact Option.isSome_iff_exists.mpr ⟨m, lookup_eq_some.mpr
          ⟨(Dict.get?_set_of_ne _ _ hne).trans hget, ho, .inl rfl⟩⟩
      · exact Option.isSome_iff_exists.mpr ⟨record.memory, lookup_eq_some.mpr
          ⟨Dict.get?_set_self _ _ _, howner, .inl rfl⟩⟩
    -- or it was there
    · refine ⟨hch, hkeep, List.forall_mem_cons.mpr ⟨hkeep _ ?_, hlive⟩⟩
      exact Option.isSome_iff_exists.mpr ⟨current, lookup_eq_some.mpr
        ⟨hcur, (ownerId_of_pyEq heq).trans hrec.1.owner, .inl rfl⟩⟩

/-- The second import loop: relations between live memories. -/
theorem importRelations_changes {relations : List Relation}
    (h : ∀ r ∈ relations, r.ownerId = o ∧ (s.lookup o r.sourceId none).isSome ∧
      (s.lookup o r.targetId none).isSome) :
    Changes o package s (relations.foldl importRelation s) := by
  induction relations generalizing s with
  | nil => exact .refl
  | cons r rest ih =>
    obtain ⟨⟨howner, hsource, htarget⟩, hrest⟩ := List.forall_mem_cons.mp h
    rw [List.foldl_cons]
    -- a relation that is there is left out
    by_cases hc : s.relations.contains r.key = true
    · have hsame : importRelation s r = s := by
        unfold importRelation
        rw [if_pos hc]
      rw [hsame]
      exact ih hrest
    -- a new one is between live memories of the owner
    · have hadd : importRelation s r = s.addRelation r := by
        unfold importRelation
        rw [if_neg hc]
        rfl
      rw [Bool.not_eq_true, Dict.contains_eq_false_iff] at hc
      rw [hadd]
      refine .head (.related howner ⟨?_, ?_, hc⟩) (ih hrest)
      · rw [howner]
        exact hsource
      · rw [howner]
        exact htarget

/-- A successful import is a sequence of restored records and added relations. -/
theorem importMemories_changes {svc : MemoryApplicationService R}
    {records : List (MemoryRecordDto R)} {result : ImportResult}
    (h : (svc.importMemories (inMemoryUnitOfWork R) o records).run s = .ok (result, s')) :
    Changes o (records.map MemoryRecordDto.memory) s s' := by
  simp only [importMemories, Txn.bind_ok, Txn.ofExcept_ok] at h
  obtain ⟨_, _, ⟨-, rfl⟩, ids, _, ⟨hval, rfl⟩, _, s₁, hends, existing, s₂, hex, prepared, s₃, hprep,
    himport⟩ := h
  obtain ⟨hvalid, hids⟩ := validateImport_ok hval
  obtain ⟨rfl, hends⟩ := checkEndpoints_ok hends
  obtain rfl := readOnly_existingRecords _ _ _ _ hex
  obtain ⟨rfl, hprepared⟩ := prepareRecords_ok hprep
  have hmap := map_bare_of_prepared hprepared
  replace himport : InMemoryMemoryAdminRepository.importMemories prepared s₃
    = .ok (result, s') := himport
  unfold InMemoryMemoryAdminRepository.importMemories at himport
  cases hloop : importRecords prepared s₃ with
  | error e =>
    rw [hloop] at himport
    cases himport
  | ok done =>
    obtain ⟨result', s₄⟩ := done
    rw [hloop] at himport
    cases himport
    have hprepared : ∀ p ∈ prepared, ValidRecord o p ∧
        p.memory ∈ records.map MemoryRecordDto.memory := by
      intro p hp
      obtain ⟨record, hrecord, hbare⟩ := mem_of_map_bare hmap hp
      obtain ⟨m, hist, rels, e, fp⟩ := p
      obtain ⟨m', hist', rels', e', fp'⟩ := record
      simp only [bare, MemoryRecordDto.mk.injEq] at hbare
      obtain ⟨rfl, rfl, rfl, -, rfl⟩ := hbare
      have hv := hvalid _ hrecord
      exact ⟨⟨hv.owner, hv.versions, hv.ids, hv.relations⟩, List.mem_map.mpr ⟨_, hrecord, rfl⟩⟩
    obtain ⟨hch, hkeep, hlive⟩ := importRecords_changes hprepared hloop
    refine hch.trans (importRelations_changes ?_)
    intro r hr
    obtain ⟨p, hp, hr⟩ := List.mem_flatMap.mp hr
    obtain ⟨record, hrecord, hbare⟩ := mem_of_map_bare hmap hp
    have hrels : (bare record).relations = (bare p).relations := by rw [hbare]
    -- an endpoint is in the package (live after the first loop) or was live before
    have hend : ∀ i, (i = r.sourceId ∨ i = r.targetId) → (s₄.lookup o i none).isSome := by
      intro i hi
      have hmem : i ∈ packageEndpoints records := by
        refine List.mem_flatMap.mpr ⟨record, hrecord, List.mem_flatMap.mpr ⟨r, hrels ▸ hr, ?_⟩⟩
        rcases hi with rfl | rfl <;> simp
      rcases hends i hmem with hin | hbefore
      · rcases hids i hin with hnil | ⟨record', hrecord', rfl⟩
        · simp at hnil
        · have hback : bare record' ∈ prepared.map bare := hmap ▸ List.mem_map_of_mem hrecord'
          obtain ⟨p', hp', hbare'⟩ := List.mem_map.mp hback
          have hid : (bare p').memory = (bare record').memory := by rw [hbare']
          exact (congrArg MemoryFields.id (congrArg Memory.toMemoryFields hid)) ▸ hlive p' hp'
      · exact hkeep i hbefore
    exact ⟨(hprepared p hp).1.relations r hr, hend _ (.inl rfl), hend _ (.inr rfl)⟩

end MemoryApplicationService

theorem forget_changes {c : ForgetMemoryCommand} {r : ForgetMemoryResult}
    (h : (MemoryApplicationService.forget (inMemoryUnitOfWork R) c).run s = .ok (r, s')) :
    Changes c.ownerId [] s s' := by
  rcases MemoryApplicationService.forget_ok h with ⟨-, hforgot⟩ | ⟨k, -, hled⟩
  · exact (forgot_changes hforgot).1
  · exact ledgered_changes rfl (fun s₁ entry hforgot => forgot_changes hforgot) hled

/-! ## Calls and runs -/

/-- Every committed request is a sequence of elementary changes for its owner. -/
theorem Request.exec_changes {svc : MemoryApplicationService R} {req : Request R}
    {resp : Response R} (hk : s.Keyed) (hfresh : req.drawsUuid = true → s.Fresh svc.uuid4)
    (h : (req.exec svc).run s = .ok (resp, s')) : Changes req.ownerId req.package s s' := by
  cases req with
  | write c =>
    obtain ⟨r, hr, -⟩ := Txn.map_ok.mp h
    exact writeCases_changes (hfresh rfl) (MemoryApplicationService.write_ok hr)
  | capture c =>
    obtain ⟨r, hr, -⟩ := Txn.map_ok.mp h
    exact writeCases_changes (hfresh rfl) (MemoryApplicationService.capture_ok hr)
  | listInbox c =>
    obtain ⟨r, hr, -⟩ := Txn.map_ok.mp h
    -- reading changes nothing
    obtain rfl := MemoryApplicationService.readOnly_listInbox c _ _ _ hr
    exact .refl
  | confirmCandidate c =>
    obtain ⟨r, hr, -⟩ := Txn.map_ok.mp h
    refine ledgered_changes rfl ?_ (MemoryApplicationService.confirmCandidate_ok hr)
    rintro s₁ entry ⟨⟨m, at_, descriptor, -, hver⟩, -⟩
    exact hver.changes hk
  | pin c =>
    obtain ⟨r, hr, -⟩ := Txn.map_ok.mp h
    refine ledgered_changes rfl ?_ (MemoryApplicationService.pin_ok hr)
    -- pinned already, or a next version
    rintro s₁ entry ⟨⟨-, rfl⟩ | ⟨m, args, -, hver⟩, -⟩
    · exact ⟨.refl, rfl⟩
    · exact hver.changes hk
  | discardCandidate c =>
    obtain ⟨r, hr, -⟩ := Txn.map_ok.mp h
    refine ledgered_changes rfl ?_ (MemoryApplicationService.discardCandidate_ok hr)
    rintro s₁ entry ⟨-, hforgot⟩
    exact forgot_changes hforgot
  | «recall» c =>
    obtain ⟨r, hr, -⟩ := Txn.map_ok.mp h
    obtain rfl := MemoryApplicationService.readOnly_recall svc c _ _ _ hr
    exact .refl
  | search c =>
    obtain ⟨r, hr, -⟩ := Txn.map_ok.mp h
    obtain rfl := MemoryApplicationService.readOnly_search svc c _ _ _ hr
    exact .refl
  | update c =>
    obtain ⟨r, hr, -⟩ := Txn.map_ok.mp h
    rcases MemoryApplicationService.update_ok hr with ⟨-, hup⟩ | ⟨k, -, hled⟩
    · exact (updated_changes hk hup).1
    · refine ledgered_changes rfl ?_ hled
      rintro s₁ entry ⟨hup, -⟩
      exact updated_changes hk hup
  | forget c =>
    obtain ⟨r, hr, -⟩ := Txn.map_ok.mp h
    exact forget_changes hr
  | relate c =>
    obtain ⟨r, hr, -⟩ := Txn.map_ok.mp h
    -- a relation, and at last the package
    obtain ⟨howner, hable, rfl⟩ := MemoryApplicationService.relate_ok hr
    exact .single (.related howner hable)
  | exportMemories o e =>
    obtain ⟨r, hr, -⟩ := Txn.map_ok.mp h
    obtain rfl := MemoryApplicationService.readOnly_exportMemories o e _ _ _ hr
    exact .refl
  | importMemories o records =>
    obtain ⟨r, hr, -⟩ := Txn.map_ok.mp h
    exact MemoryApplicationService.importMemories_changes hr

/-- A request made through a configured service. -/
structure Call (R : Type) [Python R] where
  service : MemoryApplicationService R
  request : Request R

namespace Call

/-- Outcome of a call and the store it leaves. -/
def attempt (call : Call R) (s : InMemoryStore R) :
    Except PyError (Response R) × InMemoryStore R :=
  Txn.attempt (call.request.exec call.service) s

/-- `uuid4()` gives ids that are new to the store. -/
def DrawsFresh (call : Call R) (s : InMemoryStore R) : Prop :=
  call.request.drawsUuid = true → s.Fresh call.service.uuid4

/-- Whatever a call does, it does by changes made for its owner. -/
theorem attempt_changes {call : Call R} (hk : s.Keyed) (hfresh : call.DrawsFresh s) :
    Changes call.request.ownerId call.request.package s (call.attempt s).2 := by
  cases h : (call.request.exec call.service).run s with
  | error e =>
    have hs : call.attempt s = (.error e, s) := Txn.attempt_error.mpr ⟨h, rfl⟩
    rw [hs]
  | ok r =>
    have hs : call.attempt s = (.ok r.1, r.2) := Txn.attempt_ok.mpr h
    rw [hs]
    exact Request.exec_changes hk hfresh h

end Call

namespace InMemoryStore

/-- One call that `may` be made in the state, successful or not. -/
def Step (may : InMemoryStore R → Call R → Prop) (s s' : InMemoryStore R) : Prop :=
  ∃ call : Call R, call.DrawsFresh s ∧ may s call ∧ s' = (call.attempt s).2

/-- A run of calls that `may` be made. -/
abbrev Run (may : InMemoryStore R → Call R → Prop) : InMemoryStore R → InMemoryStore R → Prop :=
  Reaches (Step may)

/-- The stores that some sequence of calls leaves, starting empty. -/
def Reachable (s : InMemoryStore R) : Prop := Run (fun _ _ => True) {} s

end InMemoryStore

end OpenMemory
