import OpenMemory.Application.Reference
import OpenMemory.Store.Imports

/-!
# Importing a package twice

A package that was just imported has to pass the comparison with what `export_memory` builds from
the store, and does not always: the export carries no fingerprint for a memory without a key, has
one fingerprint for a key, and lists a relation at both its endpoints and nowhere else.

`replays_iff` says when importing again replays every record and changes nothing, in terms of the
store after the import; `import_idempotent_iff` says it in terms of the store before it and the
package (`Replayable`).
-/

namespace OpenMemory

open Lib MemoryApplicationService InMemoryStore InMemoryMemoryRepository
open InMemoryMemoryAdminRepository

variable {R : Type} [Python R] {s s' : InMemoryStore R} {o : String}
  {records : List (MemoryRecordDto R)} {record : MemoryRecordDto R} {result : ImportResult}

namespace MemoryApplicationService

theorem tupleEq_self {α : Type} {eq : α → α → Bool} (heq : ∀ a, eq a a = true) (xs : List α) :
    tupleEq eq xs xs = true := by
  induction xs with
  | nil => rfl
  | cons x rest ih => simp [tupleEq, heq, ih]

/-! ## Importing again -/

/-- After an import every record of the package is live. -/
theorem Landed.live (h : Landed s s' o records) (hrecord : record ∈ records) :
    ∃ m, s'.lookup o record.memory.id none = some m ∧ m.pyEq record.memory = true := by
  have howner := (h.valid record hrecord).owner
  cases hm : s.memories.get? record.memory.id with
  | none =>
    exact ⟨record.memory, lookup_eq_some.mpr ⟨(h.stored record hrecord hm).1, howner, .inl rfl⟩,
      record.memory.pyEq_self⟩
  | some m =>
    obtain ⟨hequal, hkept, -⟩ := h.kept record hrecord m hm
    exact ⟨m, lookup_eq_some.mpr ⟨hkept, (ownerId_of_pyEq hequal).trans howner, .inl rfl⟩, hequal⟩

/-- What was live stays live. -/
theorem Landed.stays (h : Landed s s' o records) {i : UUID} (hi : (s.lookup o i none).isSome) :
    (s'.lookup o i none).isSome := by
  by_cases hmem : i ∈ records.map fun record => record.memory.id
  · obtain ⟨record, hrecord, rfl⟩ := List.mem_map.mp hmem
    obtain ⟨m, hm, -⟩ := h.live hrecord
    rw [hm]
    rfl
  · unfold InMemoryStore.lookup
    rw [(h.others i hmem).1]
    exact hi

/-- A loop over records that are all there. -/
theorem importRecords_of_live
    (h : ∀ record ∈ records,
      (record.memory.ownerId, record.memory.tenantId, record.memory.id) ∉ s.tombstones ∧
        ∃ m, s.memories.get? record.memory.id = some m ∧ m.pyEq record.memory = true) :
    importRecords records s = .ok ({ imported := 0, replayed := records.length }, s) := by
  induction records with
  | nil => rfl
  | cons record rest ih =>
    obtain ⟨⟨htomb, m, hm, hequal⟩, hrest⟩ := List.forall_mem_cons.mp h
    have hone : importRecord s record = .ok (false, s) := by
      unfold importRecord
      rw [if_neg htomb, hm]
      dsimp only
      rw [if_pos hequal]
    rw [importRecords, hone]
    change (importRecords rest s >>= _) = _
    rw [ih hrest]
    rfl

/-- A package that was imported is replayed just when all its records compare equal. -/
theorem replays_iff {svc : MemoryApplicationService R}
    (h : (svc.importMemories (inMemoryUnitOfWork R) o records).run s = .ok (result, s')) :
    (svc.importMemories (inMemoryUnitOfWork R) o records).run s' =
        .ok ({ imported := 0, replayed := records.length }, s') ↔
      AllStored s' o records := by
  have hlanded := landed_of_import h
  constructor
  -- the second import compares each record with what it exports
  · intro hagain record hrecord
    obtain ⟨_, _, _, _, -, -, -, hequal, -⟩ := importMemories_spec hagain
    obtain ⟨m, hm, -⟩ := hlanded.live hrecord
    exact ⟨m, hm, hequal record hrecord m hm⟩
  -- and the other checks pass, since the first import has passed them
  · intro hall
    obtain ⟨owner, ids, prepared, s₁, howner, hval, hends, -, -, -, -⟩ := importMemories_spec h
    -- the endpoints are there, or in the package
    have hends' : (checkEndpoints (inMemoryUnitOfWork R) o ids (packageEndpoints records)).run s' =
        .ok ((), s') := checkEndpoints_of fun i hi => (hends i hi).imp_right hlanded.stays
    -- every record is there, equal and not forgotten
    have hlive : ∀ record ∈ records,
        (record.memory.ownerId, record.memory.tenantId, record.memory.id) ∉ s'.tombstones ∧
          ∃ m, s'.memories.get? record.memory.id = some m ∧ m.pyEq record.memory = true := by
      intro record hrecord
      obtain ⟨m, hm, hequal⟩ := hlanded.live hrecord
      exact ⟨hlanded.alive record hrecord, m, (lookup_eq_some.mp hm).1, hequal⟩
    -- every relation is stored
    have hcontained : ∀ r ∈ records.flatMap MemoryRecordDto.relations,
        s'.relations.contains r.key = true := by
      intro r hr
      rw [Dict.contains_iff]
      apply Option.isSome_iff_exists.mp
      rw [hlanded.relations, Option.isSome_or, Bool.or_eq_true]
      exact .inr (List.find?_isSome.mpr ⟨r, hr, by simp⟩)
    have himport : (inMemoryUnitOfWork R).admin.importMemories records s' =
        .ok ({ imported := 0, replayed := records.length }, s') := by
      change (importRecords records s').map _ = _
      rw [importRecords_of_live hlive]
      change Except.ok (_, List.foldl importRelation s' _) = _
      rw [importRelations_of_contained hcontained]
    unfold importMemories
    refine (Txn.run_bind_of_ok (Txn.ofExcept_ok.mpr ⟨howner, rfl⟩)).trans ?_
    refine (Txn.run_bind_of_ok (Txn.ofExcept_ok.mpr ⟨hval, rfl⟩)).trans ?_
    refine (Txn.run_bind_of_ok hends').trans ?_
    refine (Txn.run_bind_of_ok (existingRecords_of_allStored hall)).trans ?_
    refine (Txn.run_bind_of_ok (prepareRecords_of_existing fun record hrecord => ?_)).trans himport
    exact List.mem_map_of_mem hrecord

/-- The comparison, part by part. -/
theorem importRecordsEquivalent_iff {incoming current : MemoryRecordDto R} :
    importRecordsEquivalent incoming current = true ↔
      incoming.memory.pyEq current.memory = true ∧
      (∀ fp, incoming.writeFingerprint = some fp → current.writeFingerprint = some fp) ∧
      tupleEq MemoryVersion.pyEq incoming.history current.history = true ∧
      (∀ k, k ∈ incoming.relations.map relationKey ↔ k ∈ current.relations.map relationKey) ∧
      ∀ v, incoming.embedding = some v →
        ∃ w, current.embedding = some w ∧ tupleEq Python.numEq v w = true := by
  have hrelations : (incoming.relations.map relationKey).toFinset =
        (current.relations.map relationKey).toFinset ↔
      ∀ k, k ∈ incoming.relations.map relationKey ↔ k ∈ current.relations.map relationKey := by
    simp only [Finset.ext_iff, List.mem_toFinset]
  unfold importRecordsEquivalent
  rw [Bool.and_eq_true, Bool.and_eq_true, Bool.and_eq_true, Bool.and_eq_true, decide_eq_true_eq,
    hrelations, and_assoc, and_assoc, and_assoc]
  refine and_congr Iff.rfl (and_congr ?_ (and_congr Iff.rfl (and_congr Iff.rfl ?_)))
  · cases incoming.writeFingerprint with
    | none => simp
    | some fp => simp [eq_comm]
  · cases incoming.embedding with
    | none => simp
    | some v =>
      cases current.embedding with
      | none => simp
      | some w => simp

/-- The package lists what an export would: a fingerprint with its key, one for each key, and at
each memory the relations that it has in the store or gets from the package. -/
structure Replayable (s : InMemoryStore R) (o : String) (records : List (MemoryRecordDto R)) :
    Prop where
  keyed : ∀ record ∈ records, IsNew s record → record.writeFingerprint.isSome = true →
    record.memory.idempotencyKey.isSome = true
  agree : ∀ record ∈ records, ∀ other ∈ records, IsNew s other →
    record.memory.idempotencyKey.isSome = true →
    other.memory.idempotencyKey = record.memory.idempotencyKey →
    other.writeFingerprint = record.writeFingerprint
  relations : ∀ record ∈ records, ∀ k, k ∈ record.relations.map relationKey ↔
    k ∈ (relationsOf s o record.memory.id ++
      (added s records).filter (touches record.memory.id)).map relationKey

theorem idempotencyKey_of_pyEq {a b : Memory R} (h : a.pyEq b = true) :
    a.idempotencyKey = b.idempotencyKey := by
  simp only [Memory.pyEq, Bool.and_eq_true, decide_eq_true_eq] at h
  exact h.1.1.2

/-- The fingerprint that an export shows of a memory. -/
def exportedFingerprint (s : InMemoryStore R) (o : String) (m : Memory R) : Option String :=
  match m.idempotencyKey with
  | none => none
  | some key => s.fingerprints.get? (o, key)

/-- Memory, history and vector of an imported record always compare equal. -/
theorem Landed.equivalent_iff (h : Landed s s' o records) (hrecord : record ∈ records) :
    (∃ m, s'.lookup o record.memory.id none = some m ∧
      importRecordsEquivalent record (recordOf s' o record.memory.id true m) = true) ↔
    (∀ fp, record.writeFingerprint = some fp →
      exportedFingerprint s' o record.memory = some fp) ∧
    ∀ k, k ∈ record.relations.map relationKey ↔
      k ∈ (relationsOf s' o record.memory.id).map relationKey := by
  obtain ⟨m, hm, hequal⟩ := h.live hrecord
  -- the fingerprint that is compared is the exported one
  have hkey : exportedFingerprint s' o record.memory =
      (recordOf s' o record.memory.id true m).writeFingerprint := by
    unfold exportedFingerprint
    rw [← idempotencyKey_of_pyEq hequal]
    rfl
  -- memory, history and vector are always as imported
  have halways : record.memory.pyEq m = true ∧
      tupleEq MemoryVersion.pyEq record.history
        ((s'.historyByMemory.get? record.memory.id).getD []) = true ∧
      ∀ v, record.embedding = some v →
        ∃ w, s'.vectors.get? record.memory.id = some w ∧ tupleEq Python.numEq v w = true := by
    cases hold : s.memories.get? record.memory.id with
    | none =>
      obtain ⟨hmemory, hhistory, hvector⟩ := h.stored record hrecord hold
      obtain rfl := Option.some.inj ((lookup_eq_some.mp hm).1.symm.trans hmemory)
      refine ⟨Memory.pyEq_self _, ?_, fun v hv => ⟨v, ?_, tupleEq_self Python.numEq_self v⟩⟩
      · rw [hhistory]
        exact tupleEq_self MemoryVersion.pyEq_self _
      · rw [hvector (by rw [hv]; rfl), hv]
    | some m₀ =>
      obtain ⟨-, hmemory, hhistory, hvector⟩ := h.kept record hrecord m₀ hold
      obtain rfl := Option.some.inj ((lookup_eq_some.mp hm).1.symm.trans hmemory)
      have hlookup : s.lookup o record.memory.id none = some m :=
        lookup_eq_some.mpr ⟨hold, (lookup_eq_some.mp hm).2⟩
      obtain ⟨h₁, -, h₃, -, h₅⟩ :=
        importRecordsEquivalent_iff.mp (h.equivalent record hrecord m hlookup)
      rw [hhistory, hvector]
      exact ⟨h₁, h₃, h₅⟩
  rw [hkey]
  constructor
  · rintro ⟨m', hm', hcompared⟩
    obtain rfl := Option.some.inj (hm.symm.trans hm')
    obtain ⟨-, h₂, -, h₄, -⟩ := importRecordsEquivalent_iff.mp hcompared
    exact ⟨h₂, h₄⟩
  · rintro ⟨h₂, h₄⟩
    exact ⟨m, hm, importRecordsEquivalent_iff.mpr ⟨halways.1, h₂, halways.2.1, h₄, halways.2.2⟩⟩

/-- The fingerprints of the package are those that an export shows. -/
theorem Landed.fingerprints_iff (h : Landed s s' o records) :
    (∀ record ∈ records, ∀ fp, record.writeFingerprint = some fp →
      exportedFingerprint s' o record.memory = some fp) ↔
    (∀ record ∈ records, IsNew s record → record.writeFingerprint.isSome = true →
      record.memory.idempotencyKey.isSome = true) ∧
    ∀ record ∈ records, ∀ other ∈ records, IsNew s other →
      record.memory.idempotencyKey.isSome = true →
      other.memory.idempotencyKey = record.memory.idempotencyKey →
      other.writeFingerprint = record.writeFingerprint := by
  constructor
  · intro hall
    refine ⟨fun record hrecord _ hsome => ?_, fun record hrecord other hother _ hkey hsame => ?_⟩
    · obtain ⟨fp, hfp⟩ := Option.isSome_iff_exists.mp hsome
      have hexported := hall record hrecord fp hfp
      unfold exportedFingerprint at hexported
      cases hk : record.memory.idempotencyKey with
      | none => rw [hk] at hexported; cases hexported
      | some k => rfl
    · obtain ⟨fp, hfp⟩ := Option.isSome_iff_exists.mp (h.keyed record hrecord hkey)
      obtain ⟨fp', hfp'⟩ := Option.isSome_iff_exists.mp (h.keyed other hother (hsame ▸ hkey))
      have hexported := hall record hrecord fp hfp
      have hexported' := hall other hother fp' hfp'
      unfold exportedFingerprint at hexported hexported'
      rw [hsame] at hexported'
      rw [hfp, hfp', ← hexported, ← hexported']
  · rintro ⟨hkeyed, hagree⟩ record hrecord fp hfp
    cases hold : s.memories.get? record.memory.id with
    | none =>
      -- the new records with this key all carry this fingerprint
      obtain ⟨k, hk⟩ := Option.isSome_iff_exists.mp (hkeyed record hrecord hold (by rw [hfp]; rfl))
      unfold exportedFingerprint
      rw [hk]
      rcases h.fingerprints k with ⟨-, hnone⟩ | ⟨other, hother, hnew, hkey, hlast⟩
      · exact absurd hk (hnone record hrecord hold)
      · have hsame := hagree record hrecord other hother hnew (by rw [hk]; rfl) (hkey.trans hk.symm)
        dsimp only
        rw [hlast, hsame, hfp]
        rfl
    | some m =>
      obtain ⟨hequal, hkept, -⟩ := h.kept record hrecord m hold
      have hlookup : s.lookup o record.memory.id none = some m := lookup_eq_some.mpr
        ⟨hold, (ownerId_of_pyEq hequal).trans (h.valid record hrecord).owner, .inl rfl⟩
      have hbefore := (importRecordsEquivalent_iff.mp (h.equivalent record hrecord m hlookup)).2.1
        fp hfp
      replace hbefore : exportedFingerprint s o m = some fp := hbefore
      unfold exportedFingerprint at hbefore ⊢
      rw [idempotencyKey_of_pyEq hequal] at hbefore
      cases hk : record.memory.idempotencyKey with
      | none => rw [hk] at hbefore; cases hbefore
      | some k =>
        rw [hk] at hbefore
        rcases h.fingerprints k with ⟨hsame, -⟩ | ⟨other, hother, hnew, hkey, hlast⟩
        · exact hsame.trans hbefore
        · have hfps := hagree record hrecord other hother hnew (by rw [hk]; rfl)
            (hkey.trans hk.symm)
          dsimp only
          rw [hlast, hfps, hfp]
          rfl

/-- Importing a package again replays it and changes nothing, just when it is replayable on the
store it was imported into. -/
theorem import_idempotent_iff {svc : MemoryApplicationService R}
    (h : (svc.importMemories (inMemoryUnitOfWork R) o records).run s = .ok (result, s')) :
    (svc.importMemories (inMemoryUnitOfWork R) o records).run s' =
        .ok ({ imported := 0, replayed := records.length }, s') ↔
      Replayable s o records := by
  have hlanded := landed_of_import h
  have howner : ∀ r ∈ records.flatMap MemoryRecordDto.relations, r.ownerId = o := by
    intro r hr
    obtain ⟨record, hrecord, hmem⟩ := List.mem_flatMap.mp hr
    exact (hlanded.valid record hrecord).relations r hmem
  rw [replays_iff h]
  constructor
  · intro hall
    have hparts := fun record hrecord => (hlanded.equivalent_iff hrecord).mp (hall record hrecord)
    obtain ⟨hkeyed, hagree⟩ := hlanded.fingerprints_iff.mp fun record hrecord =>
      (hparts record hrecord).1
    refine ⟨hkeyed, hagree, fun record hrecord k => ?_⟩
    exact ((hparts record hrecord).2 k).trans (mem_relationsOf_import howner hlanded.relations)
  · intro hreplayable record hrecord
    refine (hlanded.equivalent_iff hrecord).mpr ⟨?_, fun k => ?_⟩
    · exact hlanded.fingerprints_iff.mpr ⟨hreplayable.keyed, hreplayable.agree⟩ record hrecord
    · exact (hreplayable.relations record hrecord k).trans
        (mem_relationsOf_import howner hlanded.relations).symm

/-! ### Two related notes -/

/-- A store with two notes of `alice`, the first of which supports the second. -/
def relatedNotes : InMemoryStore ℚ :=
  let first : Call ℚ :=
    { service := serviceOn 1 7, request := .write (noteCommand "alice" "likes tea" none none) }
  let second : Call ℚ :=
    { service := serviceOn 1 8, request := .write (noteCommand "alice" "likes cake" none none) }
  let relate : Call ℚ :=
    { service := serviceOn 2 9
      request := .relate
        { ownerId := "alice", sourceMemoryId := ⟨7⟩, targetMemoryId := ⟨8⟩
          relationType := "supports" } }
  (relate.attempt (second.attempt (first.attempt {}).2).2).2

/-- Their export. -/
def notesPackage : List (MemoryRecordDto ℚ) :=
  [⟨7⟩, ⟨8⟩].filterMap fun i =>
    (relatedNotes.lookup "alice" i none).map (recordOf relatedNotes "alice" i true)

/-- The same package, with the relation listed at its source only. -/
def oneSidedPackage : List (MemoryRecordDto ℚ) :=
  notesPackage.map fun record =>
    if record.memory.id = ⟨7⟩ then record else { record with relations := [] }

/-- The import of a package of `alice`. -/
def importNotes (records : List (MemoryRecordDto ℚ)) : StoreTxn ℚ ImportResult :=
  (serviceOn 3 0).importMemories (inMemoryUnitOfWork ℚ) "alice" records

theorem notesPackage_replayed :
    (∃ result s', (importNotes notesPackage).run {} = .ok (result, s') ∧ result.imported = 2 ∧
      (importNotes notesPackage).run s' =
        .ok ({ imported := 0, replayed := notesPackage.length }, s')) := by
  -- the first import stores both notes
  have hfirst : ((importNotes notesPackage).run {}).toOption.map (fun r => r.1.imported) =
      some 2 := by decide +kernel
  obtain ⟨⟨result, s'⟩, hrun, htwo⟩ := Option.map_eq_some_iff.mp hfirst
  have hok : (importNotes notesPackage).run {} = .ok (result, s') := by
    cases h : (importNotes notesPackage).run {} with
    | error e => rw [h] at hrun; cases hrun
    | ok r => rw [h] at hrun; rw [Option.some.inj hrun]
  -- they have no keys, and the relations are all new
  have hbare : ∀ record ∈ notesPackage, record.writeFingerprint = none ∧
      record.memory.idempotencyKey = none := by decide +kernel
  have hrelations : ∀ record ∈ notesPackage, (record.relations.map relationKey).toFinset =
      ((relationsOf ({} : InMemoryStore ℚ) "alice" record.memory.id ++
        (added {} notesPackage).filter (touches record.memory.id)).map relationKey).toFinset := by
    decide +kernel
  refine ⟨result, s', hok, htwo, (import_idempotent_iff hok).mpr ⟨?_, ?_, ?_⟩⟩
  · intro record hrecord _ hsome
    rw [(hbare record hrecord).1] at hsome
    cases hsome
  · intro record hrecord _ _ _ hsome
    rw [(hbare record hrecord).2] at hsome
    cases hsome
  · intro record hrecord k
    rw [← List.mem_toFinset, hrelations record hrecord, List.mem_toFinset]

/-- The export of the second note lists the relation, which its record does not. -/
theorem one_sided_relation_conflicts :
    ¬ ∀ (s s' : InMemoryStore ℚ) (svc : MemoryApplicationService ℚ) (o : String)
      (records : List (MemoryRecordDto ℚ)) (result : ImportResult),
      (svc.importMemories (inMemoryUnitOfWork ℚ) o records).run s = .ok (result, s') →
      (svc.importMemories (inMemoryUnitOfWork ℚ) o records).run s' =
        .ok ({ imported := 0, replayed := records.length }, s') := by
  intro hclaim
  have hfirst : ((importNotes oneSidedPackage).run {}).toOption.map
      (fun r => ((importNotes oneSidedPackage).run r.2).toOption.isNone) = some true := by
    decide +kernel
  obtain ⟨⟨result, s'⟩, hrun, hnone⟩ := Option.map_eq_some_iff.mp hfirst
  cases h : (importNotes oneSidedPackage).run {} with
  | error e => rw [h] at hrun; cases hrun
  | ok r =>
    rw [h] at hrun
    obtain rfl := Option.some.inj hrun
    have hsecond : (importNotes oneSidedPackage).run s' = _ := hclaim _ _ _ _ _ _ h
    rw [hsecond] at hnone
    cases hnone

end MemoryApplicationService

end OpenMemory
