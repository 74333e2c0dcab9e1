import OpenMemory.Lib.Sha256
import OpenMemory.Store.Imports
import OpenMemory.Store.Isolation
import OpenMemory.Store.Vectors

/-!
# Moving an owner to another store

What `export_memories` returns for an owner is a package that `import_memories` accepts on an
empty store, and the store is then the owner's part of the source (`transfer`). The import
validates the package anew, so this rests on what holds of every store that calls of one
embedding provider leave: the representation invariant, the key index, and `Portable` below.
-/

namespace OpenMemory

open Lib MemoryApplicationService InMemoryStore InMemoryMemoryRepository
open InMemoryMemoryAdminRepository

variable {R : Type} [Python R]

namespace InMemoryStore

variable {s s' : InMemoryStore R} {calls : List (Call R)} {call : Call R}
  {provider : EmbeddingProvider R}

/-- A call of a service with the provider that does not import. -/
def OneProvider (provider : EmbeddingProvider R) (_ : InMemoryStore R) (call : Call R) : Prop :=
  call.service.embeddingProvider = provider ∧
    ∀ o records, call.request ≠ .importMemories o records

/-- Vectors have the dimension of their descriptors, and fingerprints are digests. -/
structure Portable (provider : EmbeddingProvider R) (s : InMemoryStore R) : Prop where
  sized : ∀ i m, s.memories.get? i = some m → ∃ vector d, s.vectors.get? i = some vector ∧
    m.embedding = some d ∧ d.dimension = provider.profile.dimension ∧
    (vector.length : Int) = provider.profile.dimension
  digests : ∀ key fp, s.fingerprints.get? key = some fp →
    ∃ text, fp = Python.sha256Hexdigest R text

theorem Portable.alike (h : Portable provider s) (hs : s.Alike s') : Portable provider s' where
  sized i m hm := by
    rw [hs.memories] at hm
    rw [hs.vectors]
    exact h.sized i m hm
  digests key fp hfp := by
    rw [hs.fingerprints] at hfp
    exact h.digests key fp hfp

/-- A memory is stored with a vector of the provider. -/
theorem Portable.put (h : Portable provider s) {m : Memory R} {vector : List R}
    {d : EmbeddingDescriptor} (hmemories : s'.memories = s.memories.set m.id m)
    (hvectors : s'.vectors = s.vectors.set m.id vector) (hd : m.embedding = some d)
    (hdimension : d.dimension = provider.profile.dimension)
    (hsize : (vector.length : Int) = provider.profile.dimension)
    (hdigests : ∀ key fp, s'.fingerprints.get? key = some fp →
      s.fingerprints.get? key = some fp ∨ ∃ text, fp = Python.sha256Hexdigest R text) :
    Portable provider s' where
  sized i m' hm' := by
    rw [hmemories, Dict.get?_set] at hm'
    rw [hvectors, Dict.get?_set]
    by_cases hi : i = m.id
    · rw [if_pos hi] at hm' ⊢
      obtain rfl := Option.some.inj hm'
      exact ⟨vector, d, rfl, hd, hdimension, hsize⟩
    · rw [if_neg hi] at hm' ⊢
      exact h.sized i m' hm'
  digests key fp hfp := (hdigests key fp hfp).elim (h.digests key fp) id

/-- A created memory has the provider's descriptor, and a digest is recorded. -/
theorem portable_creation {m : Memory R} {fingerprint : String} {vector : List R}
    (h : call.Creation m fingerprint vector) :
    (∃ d, m.embedding = some d ∧
      d.dimension = call.service.embeddingProvider.profile.dimension) ∧
      ∃ text, fingerprint = Python.sha256Hexdigest R text := by
  cases h with
  | @written c timestamp descriptor asked recorded ours created embedded =>
    exact ⟨⟨descriptor, Memory.create_embedding created,
      EmbeddingProfile.descriptor_dimension ours⟩, _, recorded⟩
  | @captured c timestamp descriptor asked recorded ours created embedded =>
    exact ⟨⟨descriptor, Memory.create_embedding created,
      EmbeddingProfile.descriptor_dimension ours⟩, _, recorded⟩

/-- A new version has the provider's descriptor, or the one it had. -/
theorem portable_revision {m m' : Memory R} (h : call.Revision m m')
    (hd : ∃ d, m.embedding = some d ∧
      d.dimension = call.service.embeddingProvider.profile.dimension) :
    ∃ d, m'.embedding = some d ∧
      d.dimension = call.service.embeddingProvider.profile.dimension := by
  cases h with
  | @confirmed c timestamp descriptor _ _ _ _ ours evolved =>
    exact ⟨descriptor, (Memory.evolve_ok evolved).embedding,
      EmbeddingProfile.descriptor_dimension ours⟩
  | pinned _ _ _ _ _ evolved =>
    obtain ⟨d, hd, hdimension⟩ := hd
    exact ⟨d, (Memory.evolve_ok evolved).embedding.trans hd, hdimension⟩
  | @updated c timestamp descriptor _ _ _ ours evolved =>
    exact ⟨descriptor, (Memory.evolve_ok evolved).embedding,
      EmbeddingProfile.descriptor_dimension ours⟩

theorem Portable.effect (h : Portable provider s)
    (hprovider : call.service.embeddingProvider = provider) (heffect : call.Effect s s') :
    Portable provider s' := by
  subst hprovider
  cases heffect with
  | kept same => exact h.alike same
  | @created m fingerprint vector creation size fresh unused same =>
    obtain ⟨⟨d, hd, hdimension⟩, hdigest⟩ := portable_creation creation
    have hput : Portable call.service.embeddingProvider (s.putNew m fingerprint vector) := by
      refine h.put rfl rfl hd hdimension size fun key fp hfp => ?_
      rw [putNew_fingerprints, recordKey] at hfp
      -- the digest is stored under the key of the new memory, if it has one
      cases hkey : m.idempotencyKey with
      | none =>
        rw [hkey] at hfp
        exact .inl hfp
      | some k =>
        rw [hkey] at hfp
        dsimp only at hfp
        rw [Dict.get?_set] at hfp
        split at hfp
        · exact .inr (Option.some.inj hfp ▸ hdigest)
        · exact .inl hfp
    exact hput.alike same
  -- an update stores a vector of the descriptor's dimension
  | @versioned m m' history reason vector revision live past embedded size same =>
    obtain ⟨_, d₀, -, hd₀, hdimension₀, -⟩ := h.sized m.id m (lookup_eq_some.mp live).1
    obtain ⟨d, hd, hdimension⟩ := portable_revision revision ⟨d₀, hd₀, hdimension₀⟩
    have hput : Portable call.service.embeddingProvider
        (s.putVersion m' history (m'.snapshot reason) vector) :=
      h.put rfl rfl hd hdimension size fun _ _ hfp => .inl hfp
    exact hput.alike same
  | @removed m i live same =>
    have hremoved : Portable call.service.embeddingProvider (s.remove call.request.ownerId m i) := by
      -- what is left was sized before
      refine ⟨fun j m' hm' => ?_, fun key fp hfp => ?_⟩
      · replace hm' : (s.memories.pop i).get? j = some m' := hm'
        change ∃ vector d, (s.vectors.pop i).get? j = some vector ∧ _
        rw [Dict.get?_pop] at hm' ⊢
        by_cases hj : j = i
        · rw [if_pos hj] at hm'
          cases hm'
        · rw [if_neg hj] at hm' ⊢
          exact h.sized j m' hm'
      -- and at most one key has gone
      · refine h.digests key fp ?_
        unfold InMemoryStore.remove at hfp
        dsimp only at hfp
        cases hkey : m.idempotencyKey with
        | none =>
          rw [hkey] at hfp
          exact hfp
        | some k =>
          rw [hkey] at hfp
          dsimp only at hfp
          split at hfp
          · exact hfp
          · rw [Dict.get?_pop] at hfp
            split at hfp
            · cases hfp
            · exact hfp
    exact hremoved.alike same

theorem portable_of_played (h : Played (OneProvider provider) calls s) : Portable provider s := by
  induction h with
  | start =>
    exact ⟨fun _ _ hm => (by cases hm), fun _ _ hfp => by cases hfp⟩
  | @next calls s call before fresh allowed ih =>
    exact ih.effect allowed.1 (Call.effect before.inv.keyed fresh allowed.2)

end InMemoryStore

namespace MemoryApplicationService

variable {s s' : InMemoryStore R} {o : String} {records : List (MemoryRecordDto R)}
  {record : MemoryRecordDto R}

/-! ## The package of an owner -/

/-- What `export_memories` returns with the vectors. -/
def ownerPackage (s : InMemoryStore R) (o : String) : List (MemoryRecordDto R) :=
  ((s.memories.values.insertionSort fun a b => a.id.str ≤ b.id.str).filter fun m =>
    decide (m.ownerId = o)).filterMap fun m =>
      (s.lookup o m.id none).map (recordOf s o m.id true)

theorem exportMemories_run {u : String} (howner : validateOwnerId o = .ok u) :
    (exportMemories (inMemoryUnitOfWork R) o true).run s = .ok (ownerPackage s o, s) :=
  Txn.run_bind_of_ok (Txn.ofExcept_ok.mpr ⟨howner, rfl⟩)

/-- A record for each live memory of the owner. -/
theorem mem_ownerPackage (hkeyed : s.Keyed) : record ∈ ownerPackage s o ↔
    ∃ i m, s.memories.get? i = some m ∧ m.ownerId = o ∧ m.id = i ∧
      record = recordOf s o i true m := by
  unfold ownerPackage
  rw [List.mem_filterMap]
  constructor
  · rintro ⟨m, hm, hrecord⟩
    obtain ⟨m', hlookup, rfl⟩ := Option.map_eq_some_iff.mp hrecord
    obtain ⟨hget, howner, -⟩ := lookup_eq_some.mp hlookup
    exact ⟨m.id, m', hget, howner, hkeyed _ _ hget, rfl⟩
  · rintro ⟨i, m, hm, howner, rfl, rfl⟩
    refine ⟨m, ?_, ?_⟩
    · rw [List.mem_filter, List.mem_insertionSort, Dict.mem_values_iff]
      exact ⟨⟨m.id, hm⟩, decide_eq_true howner⟩
    · rw [lookup_eq_some.mpr ⟨hm, howner, .inl rfl⟩]
      rfl

/-- No memory is listed twice. -/
theorem nodup_ownerPackage (hkeyed : s.Keyed) :
    ((ownerPackage s o).map fun record => record.memory.id).Nodup := by
  -- the ids of the store are its keys
  have hvalues : (s.memories.values.map fun m => m.id).Nodup := by
    have hkeys : (s.memories.values.map fun m => m.id) = s.memories.items.map Prod.fst := by
      unfold Dict.values
      rw [List.map_map]
      refine List.map_congr_left fun e he => ?_
      exact hkeyed e.1 e.2 ((Dict.mem_items_iff _ _ _).mp he)
    rw [hkeys]
    exact s.memories.nodup
  -- sorting and filtering keep them distinct
  have hsorted : (((s.memories.values.insertionSort fun a b => a.id.str ≤ b.id.str).filter fun m =>
      decide (m.ownerId = o)).map fun m => m.id).Nodup := by
    refine List.Nodup.sublist (List.Sublist.map _ List.filter_sublist) ?_
    exact ((List.perm_insertionSort _ _).map _).nodup_iff.mpr hvalues
  refine hsorted.sublist ?_
  unfold ownerPackage
  -- a memory that cannot be read is left out of the package
  induction (s.memories.values.insertionSort fun a b => a.id.str ≤ b.id.str).filter fun m =>
      decide (m.ownerId = o) with
  | nil => exact List.Sublist.slnil
  | cons m rest ih =>
    rw [List.filterMap_cons]
    cases hlookup : s.lookup o m.id none with
    | none => exact ih.cons _
    | some m' =>
      have hid : m'.id = m.id := hkeyed _ _ (lookup_eq_some.mp hlookup).1
      change List.Sublist (m'.id :: _) (m.id :: _)
      rw [hid]
      exact ih.cons_cons _

/-! ## The import succeeds -/

/-- A package passes the checks, record by record. -/
theorem validateImport_of (ids : List UUID)
    (hnodup : (records.map fun record => record.memory.id).Nodup)
    (hfresh : ∀ record ∈ records, record.memory.id ∉ ids)
    (h : ∀ record ∈ records, validateImportRecord o [] record = .ok ()) :
    ∃ ids', validateImport o ids records = .ok ids' ∧ (∀ i ∈ ids, i ∈ ids') ∧
      ∀ record ∈ records, record.memory.id ∈ ids' := by
  induction records generalizing ids with
  | nil => exact ⟨ids, rfl, fun _ hi => hi, List.forall_mem_nil _⟩
  | cons record rest ih =>
    obtain ⟨hone, hrest⟩ := List.forall_mem_cons.mp h
    obtain ⟨hnew, hfresh⟩ := List.forall_mem_cons.mp hfresh
    rw [List.map_cons, List.nodup_cons] at hnodup
    obtain ⟨ids', hvalid, hkeep, hall⟩ := ih (record.memory.id :: ids) hnodup.2 (by
      intro r hr hmem
      rcases List.mem_cons.mp hmem with heq | hmem
      · exact hnodup.1 (List.mem_map.mpr ⟨r, hr, heq⟩)
      · exact hfresh r hr hmem) hrest
    have hrecord : validateImportRecord o ids record = .ok () := by
      unfold validateImportRecord at hone ⊢
      simp only [List.not_mem_nil, decide_false, hnew] at hone ⊢
      exact hone
    refine ⟨ids', ?_, fun i hi => hkeep i (List.mem_cons_of_mem _ hi),
      List.forall_mem_cons.mpr ⟨hkeep _ List.mem_cons_self, hall⟩⟩
    rw [validateImport, hrecord]
    exact hvalid

/-- On an empty store nothing exists and nothing is in the way. -/
theorem existingRecords_empty :
    (existingRecords (inMemoryUnitOfWork R) o records).run {} = .ok ([], {}) := by
  induction records with
  | nil => rfl
  | cons record rest ih => exact ih

theorem prepareRecords_of_embedded {svc : MemoryApplicationService R} {existing : List UUID}
    (h : ∀ record ∈ records, record.embedding.isSome = true) :
    (svc.prepareRecords existing records : StoreTxn R _).run s = .ok (records, s) := by
  induction records with
  | nil => rfl
  | cons record rest ih =>
    obtain ⟨hfirst, hrest⟩ := List.forall_mem_cons.mp h
    unfold prepareRecords
    rw [if_pos (.inr hfirst)]
    exact Txn.run_bind_of_ok (ih hrest)

theorem importRecords_of_new (hnodup : (records.map fun record => record.memory.id).Nodup)
    (hembedded : ∀ record ∈ records, record.embedding.isSome = true)
    (hnew : ∀ record ∈ records, IsNew s record) (htombstones : s.tombstones = ∅) :
    ∃ result s', importRecords records s = .ok (result, s') := by
  induction records generalizing s with
  | nil => exact ⟨_, _, rfl⟩
  | cons record rest ih =>
    obtain ⟨hfirst, hembedded⟩ := List.forall_mem_cons.mp hembedded
    obtain ⟨hfresh, hnew⟩ := List.forall_mem_cons.mp hnew
    rw [List.map_cons, List.nodup_cons] at hnodup
    obtain ⟨vector, hvector⟩ := Option.isSome_iff_exists.mp hfirst
    -- nothing is there, so the first record is stored
    have hone : importRecord s record = .ok (true, storeRecord s record vector) := by
      unfold importRecord
      rw [IsNew] at hfresh
      rw [if_neg (by rw [htombstones]; exact Finset.notMem_empty _), hfresh, hvector]
    -- and the rest is still new
    obtain ⟨result, s', hrest⟩ := ih (s := storeRecord s record vector) hnodup.2 hembedded (by
      intro r hr
      have hne : r.memory.id ≠ record.memory.id := fun heq =>
        hnodup.1 (List.mem_map.mpr ⟨r, hr, heq⟩)
      exact (Dict.get?_set_of_ne _ _ hne).trans (hnew r hr)) htombstones
    rw [importRecords, hone]
    change ∃ result' s'', (importRecords rest (storeRecord s record vector) >>= _) =
      Except.ok (result', s'')
    rw [hrest]
    exact ⟨_, _, rfl⟩

/-- What an import asks of every record of its package. -/
theorem validateImportRecord_of (hvalid : ValidRecord o record)
    (hkeyed : record.memory.idempotencyKey.isSome = true → record.writeFingerprint.isSome = true)
    (hdigest : ∀ fp, record.writeFingerprint = some fp → isHexDigest fp = true)
    (hsized : ∀ vector, record.embedding = some vector → ∃ d, record.memory.embedding = some d ∧
      (vector.length : Int) = d.dimension) :
    validateImportRecord o [] record = .ok () := by
  -- each check in turn: history, fingerprint, digest, dimension, relations
  have hhistory : (decide (record.history.map MemoryVersion.version ≠
      versionRange record.memory.version) ||
      record.history.any fun snapshot => decide (snapshot.memoryId ≠ record.memory.id)) = false := by
    rw [Bool.or_eq_false_iff, List.any_eq_false]
    exact ⟨by simp [hvalid.versions], fun v hv => by simp [hvalid.ids v hv]⟩
  have hfingerprint : (record.memory.idempotencyKey.isSome && record.writeFingerprint.isNone) =
      false := by
    cases hkey : record.memory.idempotencyKey.isSome with
    | false => rfl
    | true =>
      obtain ⟨fp, hfp⟩ := Option.isSome_iff_exists.mp (hkeyed hkey)
      rw [hfp]
      rfl
  have hhex : someAnd (fun text => !isHexDigest text) record.writeFingerprint = false := by
    cases hfp : record.writeFingerprint with
    | none => rfl
    | some fp => simp [someAnd, hdigest fp hfp]
  have hrelations : (record.relations.any fun relation => decide (relation.ownerId ≠ o)) = false := by
    rw [List.any_eq_false]
    exact fun r hr => by simp [hvalid.relations r hr]
  unfold validateImportRecord
  simp only [except_bind_ok, raiseIf_except_ok]
  refine ⟨(), decide_eq_false List.not_mem_nil, (), by simp [hvalid.owner], (), hhistory, (), hfingerprint, (),
    hhex, (), ?_, hrelations⟩
  cases hvector : record.embedding with
  | none => rfl
  | some vector =>
    obtain ⟨d, hd, hlength⟩ := hsized vector hvector
    simp [someAnd, hd, hlength]

/-- A store whose exports can be imported: the laws of its maps, with an index of its keys. -/
structure Exportable (provider : EmbeddingProvider R) (s : InMemoryStore R) : Prop where
  inv : Inv s
  index : KeyIndex s
  portable : Portable provider s

theorem exportable_of_played {provider : EmbeddingProvider R} {calls : List (Call R)}
    (h : Played (OneProvider provider) calls s) : Exportable provider s where
  inv := h.inv
  index := keyIndex_of_played (h.mono fun _ _ hcall o records hrequest =>
    absurd hrequest (hcall.2 o records))
  portable := portable_of_played h

section Export

variable {provider : EmbeddingProvider R} (h : Exportable provider s) {i : UUID} {m : Memory R}

include h

/-- The exported parts of a memory of the owner. -/
theorem Exportable.parts (hm : s.memories.get? i = some m) (howner : m.ownerId = o) :
    ∃ history vector, s.historyByMemory.get? i = some history ∧ s.vectors.get? i = some vector ∧
      ValidRecord o (recordOf s o i true m) ∧ (recordOf s o i true m).history = history ∧
      (recordOf s o i true m).embedding = some vector := by
  -- every live memory has a history and a vector
  obtain ⟨history, hhistory⟩ : ∃ history, s.historyByMemory.get? i = some history := by
    rw [← Dict.contains_iff, h.inv.histories, Dict.contains_iff]
    exact ⟨m, hm⟩
  obtain ⟨vector, -, hvector, -⟩ := h.portable.sized i m hm
  obtain ⟨hversions, hids⟩ := h.inv.versions i m history hm hhistory
  have hget : (recordOf s o i true m).history = history := by
    change (s.historyByMemory.get? i).getD [] = history
    rw [hhistory]
    rfl
  refine ⟨history, vector, hhistory, hvector, ⟨howner, ?_, ?_, fun r hr => ?_⟩, hget, hvector⟩
  · rw [hget]
    exact hversions
  · rw [hget]
    intro v hv
    exact (hids v hv).trans (h.inv.keyed i m hm).symm
  -- its relations are its owner's
  · change r ∈ relationsOf s o i at hr
    unfold relationsOf at hr
    have hr := (List.mem_filter.mp hr).2
    rw [Bool.and_eq_true, decide_eq_true_eq] at hr
    exact hr.1

/-- The fingerprint that is exported with a key is the recorded one. -/
theorem Exportable.fingerprint (hm : s.memories.get? i = some m) (howner : m.ownerId = o)
    {k : String} (hk : m.idempotencyKey = some k) :
    ∃ fp, s.fingerprints.get? (o, k) = some fp ∧
      (recordOf s o i true m).writeFingerprint = some fp := by
  have hrecorded := h.index.recorded i m k hm hk
  rw [howner, Dict.contains_iff] at hrecorded
  obtain ⟨fp, hfp⟩ := hrecorded
  refine ⟨fp, hfp, ?_⟩
  unfold recordOf
  dsimp only
  rw [hk]
  exact hfp

/-- A record of the export passes the checks. -/
theorem Exportable.checked (hsha : ∀ text, isHexDigest (Python.sha256Hexdigest R text) = true)
    (hrecord : record ∈ ownerPackage s o) : validateImportRecord o [] record = .ok () := by
  obtain ⟨i, m, hm, howner, hid, rfl⟩ := (mem_ownerPackage h.inv.keyed).mp hrecord
  obtain ⟨history, vector, hhistory, hvector, hvalid, -, -⟩ := h.parts hm howner
  refine validateImportRecord_of hvalid ?_ ?_ ?_
  -- a key comes with its fingerprint
  · intro hkey
    obtain ⟨k, hk⟩ := Option.isSome_iff_exists.mp hkey
    obtain ⟨fp, -, hfp⟩ := h.fingerprint hm howner hk
    rw [hfp]
    rfl
  -- which is a digest
  · intro fp hfp
    cases hk : m.idempotencyKey with
    | none =>
      unfold recordOf at hfp
      dsimp only at hfp
      rw [hk] at hfp
      cases hfp
    | some k =>
      obtain ⟨fp', hstored, hfp'⟩ := h.fingerprint hm howner hk
      obtain rfl := Option.some.inj (hfp.symm.trans hfp')
      obtain ⟨text, rfl⟩ := h.portable.digests _ _ hstored
      exact hsha text
  -- the vector has the dimension of the descriptor
  · intro vector' hvector'
    obtain ⟨vector, d, hvector, hd, hdimension, hlength⟩ := h.portable.sized i m hm
    obtain rfl := Option.some.inj (hvector.symm.trans hvector')
    exact ⟨d, hd, hlength.trans hdimension.symm⟩

/-- The endpoints of an exported relation are exported. -/
theorem Exportable.endpoints (hi : i ∈ packageEndpoints (ownerPackage s o)) :
    ∃ record ∈ ownerPackage s o, record.memory.id = i := by
  unfold packageEndpoints at hi
  obtain ⟨record, hrecord, hi₁⟩ := List.mem_flatMap.mp hi
  obtain ⟨r, hr, hi₂⟩ := List.mem_flatMap.mp hi₁
  obtain ⟨j, m, hm, howner, hid, rfl⟩ := (mem_ownerPackage h.inv.keyed).mp hrecord
  change r ∈ relationsOf s o j at hr
  unfold relationsOf at hr
  rw [List.mem_filter, Dict.mem_values_iff, Bool.and_eq_true, decide_eq_true_eq] at hr
  obtain ⟨⟨key, hkey⟩, rfl, -⟩ := hr
  obtain ⟨-, -, hsource, htarget⟩ := h.inv.relations key r hkey
  have hlive : (s.lookup r.ownerId i none).isSome := by
    rcases List.mem_cons.mp hi₂ with rfl | hi₃
    · exact hsource
    · obtain rfl := List.mem_singleton.mp hi₃
      exact htarget
  obtain ⟨m', hm'⟩ := Option.isSome_iff_exists.mp hlive
  obtain ⟨hget, howner', -⟩ := lookup_eq_some.mp hm'
  have hid' := h.inv.keyed _ _ hget
  exact ⟨_, (mem_ownerPackage h.inv.keyed).mpr ⟨i, m', hget, howner', hid', rfl⟩, hid'⟩

/-- The empty store takes the export. -/
theorem Exportable.imported {svc : MemoryApplicationService R} {u : String}
    (hsha : ∀ text, isHexDigest (Python.sha256Hexdigest R text) = true)
    (howner : validateOwnerId o = .ok u) :
    ∃ result s', (svc.importMemories (inMemoryUnitOfWork R) o (ownerPackage s o)).run {} =
      .ok (result, s') := by
  -- every record brings its vector, so nothing is embedded
  have hembedded : ∀ record ∈ ownerPackage s o, record.embedding.isSome = true := by
    intro record hrecord
    obtain ⟨i, m, hm, hown, -, rfl⟩ := (mem_ownerPackage h.inv.keyed).mp hrecord
    obtain ⟨_, vector, -, -, -, -, hvector⟩ := h.parts hm hown
    rw [hvector]
    rfl
  have hnodup := nodup_ownerPackage (o := o) h.inv.keyed
  -- the empty store has nothing to compare with, and no tombstone
  obtain ⟨ids, hvalid, -, hids⟩ := validateImport_of [] hnodup (fun _ _ => List.not_mem_nil)
    fun record hrecord => h.checked hsha hrecord
  have hends : (checkEndpoints (inMemoryUnitOfWork R) o ids
      (packageEndpoints (ownerPackage s o))).run {} = .ok ((), {}) := by
    refine checkEndpoints_of fun i hi => .inl ?_
    obtain ⟨record, hrecord, rfl⟩ := h.endpoints hi
    exact hids record hrecord
  obtain ⟨result, s₁, hloop⟩ := importRecords_of_new (s := {}) hnodup hembedded
    (fun _ _ => rfl) rfl
  refine ⟨result, (((ownerPackage s o).flatMap MemoryRecordDto.relations).foldl importRelation s₁), ?_⟩
  -- the steps of `import_memories` one after the other
  unfold importMemories
  refine (Txn.run_bind_of_ok (Txn.ofExcept_ok.mpr ⟨howner, rfl⟩)).trans ?_
  refine (Txn.run_bind_of_ok (Txn.ofExcept_ok.mpr ⟨hvalid, rfl⟩)).trans ?_
  refine (Txn.run_bind_of_ok hends).trans ?_
  refine (Txn.run_bind_of_ok existingRecords_empty).trans ?_
  refine (Txn.run_bind_of_ok (prepareRecords_of_embedded hembedded)).trans ?_
  change (importRecords (ownerPackage s o) {}).map _ = _
  rw [hloop]
  rfl

end Export

/-! ## The imported store -/

/-- The two stores hold the same memories, vectors, histories, relations and fingerprints. -/
structure SameContents (a b : InMemoryStore R) : Prop where
  memories : ∀ i, a.memories.get? i = b.memories.get? i
  vectors : ∀ i, a.vectors.get? i = b.vectors.get? i
  histories : ∀ i, a.historyByMemory.get? i = b.historyByMemory.get? i
  relations : ∀ key, a.relations.get? key = b.relations.get? key
  fingerprints : ∀ key, a.fingerprints.get? key = b.fingerprints.get? key

section Arrival

variable {provider : EmbeddingProvider R} (h : Exportable provider s)
  (hlanded : Landed {} s' o (ownerPackage s o))

include h hlanded

/-- Under an id of the owner stands what stood there in the source. -/
theorem arrived_of_owned {i : UUID} {m : Memory R} (hm : s.memories.get? i = some m)
    (howner : m.ownerId = o) :
    s'.memories.get? i = some m ∧ s'.vectors.get? i = s.vectors.get? i ∧
      s'.historyByMemory.get? i = s.historyByMemory.get? i := by
  have hid := h.inv.keyed i m hm
  have hrecord := (mem_ownerPackage h.inv.keyed).mpr ⟨i, m, hm, howner, hid, rfl⟩
  obtain ⟨history, vector, hhistory, hvector, -, hhistory', hvector'⟩ := h.parts hm howner
  obtain ⟨hm', hh', hv'⟩ := hlanded.stored _ hrecord rfl
  change s'.memories.get? m.id = some m at hm'
  change s'.historyByMemory.get? m.id = some _ at hh'
  change _ → s'.vectors.get? m.id = _ at hv'
  rw [hid] at hm' hh' hv'
  refine ⟨hm', ?_, ?_⟩
  · rw [hv' (by rw [hvector']; rfl), hvector', hvector]
  · rw [hh', hhistory', hhistory]

/-- Under any other id stands nothing. -/
theorem empty_of_unowned {i : UUID} (hunowned : ¬ s.owns o i = true) :
    s'.memories.get? i = none ∧ s'.historyByMemory.get? i = none ∧ s'.vectors.get? i = none := by
  refine hlanded.others i fun hmem => hunowned ?_
  obtain ⟨record, hrecord, rfl⟩ := List.mem_map.mp hmem
  obtain ⟨j, m, hm, howner, hid, rfl⟩ := (mem_ownerPackage h.inv.keyed).mp hrecord
  exact owns_iff.mpr ⟨m, by rw [← hid] at hm; exact hm, howner⟩

/-- The relations of the owner arrive, each of them listed at its two endpoints. -/
theorem arrived_relations (key : RelationKey) :
    s'.relations.get? key = (view o s).relations.get? key := by
  have hview : (view o s).relations.get? key =
      (s.relations.get? key).filter fun r => decide (r.ownerId = o) := Dict.get?_filter _ _ _
  -- the package has every relation of the owner, and no other
  have hlisted : ∀ r, r ∈ (ownerPackage s o).flatMap MemoryRecordDto.relations ↔
      s.relations.get? r.key = some r ∧ r.ownerId = o := by
    intro r
    rw [List.mem_flatMap]
    constructor
    · rintro ⟨record, hrecord, hr⟩
      obtain ⟨i, m, hm, howner, hid, rfl⟩ := (mem_ownerPackage h.inv.keyed).mp hrecord
      change r ∈ relationsOf s o i at hr
      unfold relationsOf at hr
      rw [List.mem_filter, Dict.mem_values_iff, Bool.and_eq_true, decide_eq_true_eq] at hr
      obtain ⟨⟨k, hk⟩, hown, -⟩ := hr
      exact ⟨(h.inv.relations k r hk).1 ▸ hk, hown⟩
    · rintro ⟨hr, rfl⟩
      -- a relation is listed with its source
      obtain ⟨-, -, hsource, -⟩ := h.inv.relations _ r hr
      obtain ⟨m, hm⟩ := Option.isSome_iff_exists.mp hsource
      obtain ⟨hget, howner, -⟩ := lookup_eq_some.mp hm
      refine ⟨_, (mem_ownerPackage h.inv.keyed).mpr
        ⟨r.sourceId, m, hget, howner, h.inv.keyed _ _ hget, rfl⟩, ?_⟩
      change r ∈ relationsOf s r.ownerId r.sourceId
      unfold relationsOf
      rw [List.mem_filter, Dict.mem_values_iff]
      exact ⟨⟨_, hr⟩, by simp⟩
  rw [hlanded.relations, hview]
  change (none : Option Relation).or _ = _
  rw [Option.none_or]
  -- what the package has under the key is what the view has
  cases hfind : ((ownerPackage s o).flatMap MemoryRecordDto.relations).find?
      fun r => decide (r.key = key) with
  | some r =>
    obtain ⟨hr, hown⟩ := (hlisted r).mp (List.mem_of_find?_eq_some hfind)
    obtain rfl : r.key = key := by simpa using List.find?_some hfind
    rw [hr, Option.filter_some, if_pos (decide_eq_true hown)]
  | none =>
    cases hr : s.relations.get? key with
    | none => rfl
    | some r =>
      obtain rfl := (h.inv.relations key r hr).1
      -- a stored relation that is not listed is another owner's
      have hforeign : r.ownerId ≠ o := fun hown => by
        have hnone := List.find?_eq_none.mp hfind r ((hlisted r).mpr ⟨hr, hown⟩)
        exact hnone (decide_eq_true rfl)
      rw [Option.filter_some, if_neg fun hown => hforeign (of_decide_eq_true hown)]

/-- The fingerprints of the owner arrive. -/
theorem arrived_fingerprints (key : String × String) :
    s'.fingerprints.get? key = (view o s).fingerprints.get? key := by
  obtain ⟨o', k⟩ := key
  by_cases ho : o' = o
  · subst ho
    rw [get?_view_fingerprints]
    rcases hlanded.fingerprints k with ⟨hnone, hunused⟩ | ⟨record, hrecord, -, hk, hlast⟩
    · rw [hnone]
      change none = _
      cases hfp : s.fingerprints.get? (o', k) with
      | none => rfl
      | some fp =>
        -- a recorded key belongs to a live memory, whose record has it
        obtain ⟨i, m, hm, howner, hk⟩ := h.inv.fingerprints o' k fp hfp
        have hid := h.inv.keyed i m hm
        have hrecord := (mem_ownerPackage h.inv.keyed).mpr ⟨i, m, hm, howner, hid, rfl⟩
        exact absurd hk (hunused _ hrecord rfl)
    · obtain ⟨i, m, hm, howner, -, rfl⟩ := (mem_ownerPackage h.inv.keyed).mp hrecord
      obtain ⟨fp, hfp, hexported⟩ := h.fingerprint hm howner hk
      rw [hlast, hexported, hfp]
      rfl
  · rw [hlanded.strangers o' k ho]
    have hview : (view o s).fingerprints.get? (o', k) = none := by
      refine (Dict.get?_filter _ _ _).trans ?_
      cases s.fingerprints.get? (o', k) <;> simp [ho]
    rw [hview]
    rfl

/-- The imported store holds what the source holds of the owner. -/
theorem sameContents_of_landed : SameContents s' (view o s) := by
  have hvectors : ∀ i, (view o s).vectors.get? i =
      (s.vectors.get? i).filter fun _ => s.owns o i := Dict.get?_filter _ _
  have hhistories : ∀ i, (view o s).historyByMemory.get? i =
      (s.historyByMemory.get? i).filter fun _ => s.owns o i := Dict.get?_filter _ _
  have hparts : ∀ i, s'.memories.get? i = (view o s).memories.get? i ∧
      s'.vectors.get? i = (view o s).vectors.get? i ∧
      s'.historyByMemory.get? i = (view o s).historyByMemory.get? i := by
    intro i
    -- an owned memory has arrived as it was
    by_cases howns : s.owns o i = true
    · obtain ⟨m, hm, howner⟩ := owns_iff.mp howns
      obtain ⟨hm', hv', hh'⟩ := arrived_of_owned h hlanded hm howner
      rw [hm', hv', hh', get?_view_vectors howns, get?_view_history howns, get?_view_memories, hm,
        Option.filter_some, if_pos (decide_eq_true howner)]
      exact ⟨rfl, rfl, rfl⟩
    -- of a foreign one nothing has
    · obtain ⟨hm', hh', hv'⟩ := empty_of_unowned h hlanded howns
      rw [hm', hv', hh', hvectors, hhistories, get?_view_memories]
      refine ⟨?_, by simp [howns], by simp [howns]⟩
      cases hm : s.memories.get? i with
      | none => rfl
      | some m =>
        have hforeign : m.ownerId ≠ o := fun howner => howns (owns_iff.mpr ⟨m, hm, howner⟩)
        rw [Option.filter_some, if_neg fun howner => hforeign (of_decide_eq_true howner)]
  exact ⟨fun i => (hparts i).1, fun i => (hparts i).2.1, fun i => (hparts i).2.2,
    arrived_relations h hlanded, arrived_fingerprints h hlanded⟩

end Arrival

/-- An owner's export is accepted by the empty store, which then holds the owner's part of the
source: its memories, vectors, histories, relations and fingerprints. -/
theorem transfer {provider : EmbeddingProvider R} {calls : List (Call R)} {u : String}
    (h : Played (OneProvider provider) calls s) (howner : validateOwnerId o = .ok u)
    (hsha : ∀ text, isHexDigest (Python.sha256Hexdigest R text) = true)
    (svc : MemoryApplicationService R) :
    ∃ package result s',
      (exportMemories (inMemoryUnitOfWork R) o true).run s = .ok (package, s) ∧
      (svc.importMemories (inMemoryUnitOfWork R) o package).run {} = .ok (result, s') ∧
      SameContents s' (view o s) := by
  have hexportable := exportable_of_played h
  obtain ⟨result, s', himport⟩ := hexportable.imported hsha howner
  exact ⟨_, result, s', exportMemories_run howner, himport,
    sameContents_of_landed hexportable (landed_of_import himport)⟩

/-! ## With computed digests -/

/-- The exact runtime, with `hashlib.sha256` computed. -/
def Hashed : Type := ℚ

/-- `hashlib.sha256(text.encode("utf-8")).hexdigest()`. -/
def sha256Of (text : String) : String :=
  String.ofList (Sha256.hexdigest hexDigit (text.toUTF8.data.toList.map UInt8.toNat))

theorem isHexDigest_sha256Of (text : String) : isHexDigest (sha256Of text) = true := by
  have hdigits : ∀ n < 16, hexDigit n ∈ "0123456789abcdef".toList := by decide
  unfold isHexDigest sha256Of
  rw [Bool.and_eq_true, decide_eq_true_eq, ← String.length_toList, String.toList_ofList,
    List.all_eq_true]
  refine ⟨Sha256.length_hexdigest _ _, fun c hc => decide_eq_true ?_⟩
  obtain ⟨n, hn, rfl⟩ := Sha256.mem_hexdigest hc
  exact hdigits n hn

instance : Python Hashed :=
  { (inferInstance : Python ℚ) with sha256Hexdigest := sha256Of }

/-- The hash provider in one dimension. -/
def hashedProvider : EmbeddingProvider Hashed where
  profile := { id := "hash", version := "v1", dimension := 1 }
  embed _ _ := .ok [Python.ofInt 1]

def hashedService (n : Fin 365) (id : Nat) : MemoryApplicationService Hashed where
  embeddingProvider := hashedProvider
  clock _ := day2026 n
  uuid4 := ⟨Fin.ofNat _ id⟩

/-- A note of an owner under a key. -/
def hashedNote (owner : String) (id : Nat) : Call Hashed where
  service := hashedService 1 id
  request := .write (noteCommand owner "tea at five" (some "k1") none : WriteMemoryCommand ℚ)

/-- Two owners write, and the notes of one of them move to another store. -/
theorem alices_note_transferred :
    ((hashedNote "bob" 8).attempt ((hashedNote "alice" 7).attempt {}).2).2.memories.values.length = 2 ∧
      ∃ package result s',
        (exportMemories (inMemoryUnitOfWork Hashed) "alice" true).run
            ((hashedNote "bob" 8).attempt ((hashedNote "alice" 7).attempt {}).2).2 =
          .ok (package, ((hashedNote "bob" 8).attempt ((hashedNote "alice" 7).attempt {}).2).2) ∧
        ((hashedService 2 9).importMemories (inMemoryUnitOfWork Hashed) "alice" package).run {} =
          .ok (result, s') ∧
        SameContents s' (view "alice"
          ((hashedNote "bob" 8).attempt ((hashedNote "alice" 7).attempt {}).2).2) := by
  have hfresh : (hashedNote "bob" 8).DrawsFresh ((hashedNote "alice" 7).attempt {}).2 :=
    fun _ => fresh_of_no_tombstone (by decide +kernel) (by decide +kernel)
  have hplayed : Played (OneProvider hashedProvider) [hashedNote "alice" 7, hashedNote "bob" 8] _ :=
    .next (.next .start (fun _ => ⟨rfl, fun _ _ h => by simp at h⟩) ⟨rfl, fun _ _ h => by cases h⟩)
      hfresh ⟨rfl, fun _ _ h => by cases h⟩
  exact ⟨by decide +kernel, transfer hplayed rfl isHexDigest_sha256Of (hashedService 2 9)⟩

end MemoryApplicationService

end OpenMemory
