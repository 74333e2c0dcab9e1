import OpenMemory.Store.Effects

/-!
# What an import does

`import_memories` validates a package, compares the records that are already stored with what
`export_memory` builds of them, computes missing vectors, and then stores the new records and
their relations. `importMemories_spec` says what a successful import has checked and done, and
`landed_of_import` what the store is after it, record by record (`Landed`).
-/

namespace OpenMemory

open Lib MemoryApplicationService InMemoryStore InMemoryMemoryRepository
open InMemoryMemoryAdminRepository

variable {R : Type} [Python R] {s s' s₁ : InMemoryStore R} {o : String}
  {records prepared : List (MemoryRecordDto R)} {record : MemoryRecordDto R} {result : ImportResult}

namespace MemoryApplicationService

/-! ## The checks of an import -/

/-- Every record is live in the store, and equivalent to what an export shows of it. -/
def AllStored (s : InMemoryStore R) (o : String) (records : List (MemoryRecordDto R)) : Prop :=
  ∀ record ∈ records, ∃ m, s.lookup o record.memory.id none = some m ∧
    importRecordsEquivalent record (recordOf s o record.memory.id true m) = true

/-- A record that is live has passed the comparison. -/
theorem equivalent_of_existingRecords {ids : List UUID}
    (h : (existingRecords (inMemoryUnitOfWork R) o records).run s = .ok (ids, s')) :
    ∀ record ∈ records, ∀ m, s.lookup o record.memory.id none = some m →
      importRecordsEquivalent record (recordOf s o record.memory.id true m) = true := by
  induction records generalizing ids s' with
  | nil => simp
  | cons record rest ih =>
    unfold existingRecords at h
    obtain ⟨current, s₁, hexport, h₁⟩ := Txn.bind_ok.mp h
    obtain ⟨rfl, rfl⟩ := Prod.mk.inj (Except.ok.inj hexport)
    refine List.forall_mem_cons.mpr ⟨fun m hm => ?_, ?_⟩
    -- the record that is there was compared with the exported one
    · rw [hm] at h₁
      obtain ⟨_, s₂, hraise, -⟩ := Txn.bind_ok.mp h₁
      obtain ⟨hequal, -⟩ := raiseIf_ok.mp hraise
      simpa using hequal
    · cases hm : s.lookup o record.memory.id none with
      -- absent: only the tombstone is looked up, and the store stays
      | none =>
        rw [hm] at h₁
        obtain ⟨tombstoned, s₂, htomb, h₂⟩ := Txn.bind_ok.mp h₁
        obtain ⟨-, rfl⟩ := Prod.mk.inj (Except.ok.inj htomb)
        obtain ⟨_, s₃, hraise, h₃⟩ := Txn.bind_ok.mp h₂
        obtain ⟨-, rfl⟩ := raiseIf_ok.mp hraise
        exact ih h₃
      | some m =>
        rw [hm] at h₁
        obtain ⟨_, s₂, hraise, h₂⟩ := Txn.bind_ok.mp h₁
        obtain ⟨-, rfl⟩ := raiseIf_ok.mp hraise
        obtain ⟨more, s₃, hmore, -⟩ := Txn.bind_ok.mp h₂
        exact ih hmore

/-- When all are stored, all exist. -/
theorem existingRecords_of_allStored (h : AllStored s o records) :
    (existingRecords (inMemoryUnitOfWork R) o records).run s =
      .ok (records.map fun record => record.memory.id, s) := by
  induction records with
  | nil => rfl
  | cons record rest ih =>
    obtain ⟨⟨m, hm, hequal⟩, hrest⟩ := List.forall_mem_cons.mp h
    have hexport : ((inMemoryUnitOfWork R).admin.exportMemory o record.memory.id true).run s =
        .ok (some (recordOf s o record.memory.id true m), s) := by
      change Except.ok ((s.lookup o record.memory.id none).map _, s) = _
      rw [hm]
      rfl
    unfold existingRecords
    refine (Txn.run_bind_of_ok hexport).trans ?_
    dsimp only
    rw [hequal]
    exact (Txn.run_bind_of_ok rfl).trans (Txn.run_bind_of_ok (ih hrest))

theorem checkEndpoints_of {ids endpoints : List UUID}
    (h : ∀ i ∈ endpoints, i ∈ ids ∨ (s.lookup o i none).isSome) :
    (checkEndpoints (inMemoryUnitOfWork R) o ids endpoints).run s = .ok ((), s) := by
  induction endpoints with
  | nil => rfl
  | cons i rest ih =>
    obtain ⟨hi, hrest⟩ := List.forall_mem_cons.mp h
    unfold checkEndpoints
    by_cases hmem : i ∈ ids
    · rw [if_pos hmem]
      exact ih hrest
    · rw [if_neg hmem]
      obtain ⟨m, hm⟩ := Option.isSome_iff_exists.mp (hi.resolve_left hmem)
      have hget : ((inMemoryUnitOfWork R).memories.get o i none).run s = .ok (some m, s) := by
        change Except.ok (s.lookup o i none, s) = _
        rw [hm]
      exact (Txn.run_bind_of_ok hget).trans ((Txn.run_bind_of_ok rfl).trans (ih hrest))

theorem prepareRecords_of_existing {svc : MemoryApplicationService R} {existing : List UUID}
    (h : ∀ record ∈ records, record.memory.id ∈ existing) :
    (svc.prepareRecords existing records : StoreTxn R _).run s = .ok (records, s) := by
  induction records with
  | nil => rfl
  | cons record rest ih =>
    obtain ⟨hfirst, hrest⟩ := List.forall_mem_cons.mp h
    unfold prepareRecords
    rw [if_pos (.inl hfirst)]
    exact Txn.run_bind_of_ok (ih hrest)

/-- A record with the vector it is stored with: its own, if it carries one. -/
structure Outfits (record p : MemoryRecordDto R) : Prop where
  memory : p.memory = record.memory
  history : p.history = record.history
  relations : p.relations = record.relations
  fingerprint : p.writeFingerprint = record.writeFingerprint
  embedding : record.embedding.isSome = true → p.embedding = record.embedding

theorem Outfits.refl (record : MemoryRecordDto R) : Outfits record record :=
  ⟨rfl, rfl, rfl, rfl, fun _ => rfl⟩

theorem prepareRecords_outfits {svc : MemoryApplicationService R} {existing : List UUID}
    (h : (svc.prepareRecords existing records : StoreTxn R _).run s = .ok (prepared, s')) :
    s' = s ∧ List.Forall₂ Outfits records prepared := by
  induction records generalizing prepared s' with
  | nil =>
    obtain ⟨rfl, rfl⟩ := Txn.pure_ok.mp h
    exact ⟨rfl, .nil⟩
  | cons record rest ih =>
    unfold prepareRecords at h
    -- an existing record or one with a vector is passed on as it is
    by_cases hkeep : record.memory.id ∈ existing ∨ record.embedding.isSome
    · rw [if_pos hkeep] at h
      obtain ⟨more, s₁, hmore, h₁⟩ := Txn.bind_ok.mp h
      obtain ⟨rfl, rfl⟩ := Txn.pure_ok.mp h₁
      obtain ⟨rfl, hrest⟩ := ih hmore
      exact ⟨rfl, .cons (.refl record) hrest⟩
    -- otherwise the vector is computed, and nothing else changes
    · rw [if_neg hkeep] at h
      have hbare : ¬ record.embedding.isSome = true := fun hsome => hkeep (.inr hsome)
      cases hd : record.memory.embedding with
      | none =>
        rw [hd] at h
        cases h
      | some descriptor =>
        rw [hd] at h
        simp only [Txn.bind_ok, Txn.ofExcept_ok, raiseIf_ok] at h
        obtain ⟨ours, _, ⟨-, rfl⟩, _, _, ⟨-, rfl⟩, vector, _, hvec, more, s₁, hmore, h₁⟩ := h
        obtain ⟨-, -, rfl⟩ := embedChecked_ok hvec
        obtain ⟨rfl, rfl⟩ := Txn.pure_ok.mp h₁
        obtain ⟨rfl, hrest⟩ := ih hmore
        exact ⟨rfl, .cons ⟨rfl, rfl, rfl, rfl, fun hsome => absurd hsome hbare⟩ hrest⟩

/-- What an import that succeeded has checked and done. -/
theorem importMemories_spec {svc : MemoryApplicationService R}
    (h : (svc.importMemories (inMemoryUnitOfWork R) o records).run s = .ok (result, s')) :
    ∃ owner ids prepared s₁, validateOwnerId o = .ok owner ∧
      validateImport o [] records = .ok ids ∧
      (∀ i ∈ packageEndpoints records, i ∈ ids ∨ (s.lookup o i none).isSome) ∧
      (∀ record ∈ records, ∀ m, s.lookup o record.memory.id none = some m →
        importRecordsEquivalent record (recordOf s o record.memory.id true m) = true) ∧
      List.Forall₂ Outfits records prepared ∧ importRecords prepared s = .ok (result, s₁) ∧
      s' = (prepared.flatMap MemoryRecordDto.relations).foldl importRelation s₁ := by
  simp only [importMemories, Txn.bind_ok, Txn.ofExcept_ok] at h
  obtain ⟨owner, _, ⟨howner, rfl⟩, ids, _, ⟨hval, rfl⟩, _, s₁, hends, existing, s₂, hex, prepared,
    s₃, hprep, himport⟩ := h
  obtain ⟨rfl, hends⟩ := checkEndpoints_ok hends
  have hequal := equivalent_of_existingRecords hex
  obtain rfl := readOnly_existingRecords _ _ _ _ hex
  obtain ⟨rfl, hprepared⟩ := prepareRecords_outfits hprep
  replace himport : InMemoryMemoryAdminRepository.importMemories prepared s₃
    = .ok (result, s') := himport
  unfold InMemoryMemoryAdminRepository.importMemories at himport
  cases hloop : importRecords prepared s₃ with
  | error e =>
    rw [hloop] at himport
    cases himport
  | ok done =>
    rw [hloop] at himport
    cases himport
    exact ⟨owner, ids, prepared, done.2, howner, hval, hends, hequal, hprepared, hloop, rfl⟩

/-! ## The first loop -/

/-- What the first loop does for one record of the package. -/
structure Imports (s s₁ : InMemoryStore R) (record : MemoryRecordDto R) : Prop where
  alive : (record.memory.ownerId, record.memory.tenantId, record.memory.id) ∉ s.tombstones
  stored : s.memories.get? record.memory.id = none →
    s₁.memories.get? record.memory.id = some record.memory ∧
    s₁.historyByMemory.get? record.memory.id = some record.history ∧
    s₁.vectors.get? record.memory.id = record.embedding
  kept : ∀ m, s.memories.get? record.memory.id = some m → m.pyEq record.memory = true ∧
    s₁.memories.get? record.memory.id = some m ∧
    s₁.historyByMemory.get? record.memory.id = s.historyByMemory.get? record.memory.id ∧
    s₁.vectors.get? record.memory.id = s.vectors.get? record.memory.id

/-- Nothing is stored under an id that no record has. -/
def OthersKept (s s₁ : InMemoryStore R) (ids : List UUID) : Prop :=
  ∀ i, i ∉ ids → s₁.memories.get? i = s.memories.get? i ∧
    s₁.historyByMemory.get? i = s.historyByMemory.get? i ∧ s₁.vectors.get? i = s.vectors.get? i

theorem importRecord_spec {stored : Bool} (h : importRecord s record = .ok (stored, s₁)) :
    Imports s s₁ record ∧ OthersKept s s₁ [record.memory.id] ∧ s₁.relations = s.relations ∧
      s₁.tombstones = s.tombstones := by
  unfold importRecord at h
  -- a forgotten id is refused
  by_cases htomb : (record.memory.ownerId, record.memory.tenantId, record.memory.id) ∈ s.tombstones
  · rw [if_pos htomb] at h
    cases h
  · rw [if_neg htomb] at h
    cases hm : s.memories.get? record.memory.id with
    -- the id is there: an equal memory is skipped, another one refused
    | some m =>
      rw [hm] at h
      dsimp only at h
      by_cases heq : m.pyEq record.memory = true
      · rw [if_pos heq] at h
        cases h
        refine ⟨⟨htomb, fun hnone => ?_, fun m' hm' => ?_⟩, fun _ _ => ⟨rfl, rfl, rfl⟩, rfl, rfl⟩
        · rw [hm] at hnone
          cases hnone
        · obtain rfl := Option.some.inj (hm.symm.trans hm')
          exact ⟨heq, hm, rfl, rfl⟩
      · rw [if_neg heq] at h
        cases h
    -- the id is new: memory, history and vector are stored as given
    | none =>
      rw [hm] at h
      dsimp only at h
      cases hvec : record.embedding with
      | none =>
        rw [hvec] at h
        cases h
      | some vector =>
        rw [hvec] at h
        cases h
        refine ⟨⟨htomb, fun _ => ?_, fun m' hm' => ?_⟩, fun i hi => ?_, rfl, rfl⟩
        · exact ⟨Dict.get?_set_self _ _ _, Dict.get?_set_self _ _ _,
            (Dict.get?_set_self _ _ _).trans hvec.symm⟩
        · rw [hm] at hm'
          cases hm'
        · have hne : i ≠ record.memory.id := by simpa using hi
          exact ⟨Dict.get?_set_of_ne _ _ hne, Dict.get?_set_of_ne _ _ hne,
            Dict.get?_set_of_ne _ _ hne⟩

/-- The whole loop, on records with different ids. -/
theorem importRecords_spec (hids : (prepared.map fun p => p.memory.id).Nodup)
    (h : importRecords prepared s = .ok (result, s₁)) :
    (∀ p ∈ prepared, Imports s s₁ p) ∧ OthersKept s s₁ (prepared.map fun p => p.memory.id) ∧
      s₁.relations = s.relations ∧ s₁.tombstones = s.tombstones := by
  induction prepared generalizing s result with
  | nil =>
    cases h
    exact ⟨by simp, fun _ _ => ⟨rfl, rfl, rfl⟩, rfl, rfl⟩
  | cons p rest ih =>
    simp only [importRecords, except_bind_ok] at h
    obtain ⟨⟨stored, s₂⟩, hone, ⟨result', s₃⟩, hrest, h⟩ := h
    cases h
    obtain ⟨hfresh, hids⟩ := List.nodup_cons.mp hids
    obtain ⟨hfirst, hothers, hrelations, htombstones⟩ := importRecord_spec hone
    -- the rest leaves the first record alone, since the ids differ
    obtain ⟨hlater, hothers', hrelations', htombstones'⟩ := ih hids hrest
    obtain ⟨hmemory, hhistory, hvector⟩ := hothers' p.memory.id hfresh
    refine ⟨List.forall_mem_cons.mpr ⟨?_, fun q hq => ?_⟩, fun i hi => ?_,
      hrelations'.trans hrelations, htombstones'.trans htombstones⟩
    · refine ⟨hfirst.alive, fun hnone => ?_, fun m hm => ?_⟩
      · rw [hmemory, hhistory, hvector]
        exact hfirst.stored hnone
      · rw [hmemory, hhistory, hvector]
        exact hfirst.kept m hm
    -- and the first left the later ones alone
    · have hne : q.memory.id ∉ [p.memory.id] := by
        rw [List.mem_singleton]
        intro heq
        exact hfresh (List.mem_map.mpr ⟨q, hq, heq⟩)
      obtain ⟨hmemory', hhistory', hvector'⟩ := hothers q.memory.id hne
      have hq' := hlater q hq
      refine ⟨?_, fun hnone => hq'.stored (hmemory'.trans hnone), fun m hm => ?_⟩
      · rw [← htombstones]
        exact hq'.alive
      · obtain ⟨heq, hm', hh, hv⟩ := hq'.kept m (hmemory'.trans hm)
        exact ⟨heq, hm', hh.trans hhistory', hv.trans hvector'⟩
    · obtain ⟨hi, hi'⟩ := not_or.mp (fun hor => hi (List.mem_cons.mpr hor))
      obtain ⟨hm, hh, hv⟩ := hothers' i hi'
      obtain ⟨hm', hh', hv'⟩ := hothers i (by simpa using hi)
      exact ⟨hm.trans hm', hh.trans hh', hv.trans hv'⟩

/-- The record is new to the store. -/
def IsNew (s : InMemoryStore R) (record : MemoryRecordDto R) : Prop :=
  s.memories.get? record.memory.id = none

theorem fingerprints_importRecord {stored : Bool} (k : String)
    (h : importRecord s record = .ok (stored, s₁)) (howner : record.memory.ownerId = o) :
    (IsNew s record ∧ record.memory.idempotencyKey = some k ∧
      s₁.fingerprints.get? (o, k) = some (record.writeFingerprint.getD "")) ∨
    (IsNew s record → record.memory.idempotencyKey ≠ some k) ∧
      s₁.fingerprints.get? (o, k) = s.fingerprints.get? (o, k) := by
  rcases importRecord_ok h with ⟨vector, hnew, -, rfl⟩ | ⟨m, hm, -, rfl⟩
  · unfold storeRecord
    dsimp only
    cases hkey : record.memory.idempotencyKey with
    | none => exact .inr ⟨fun _ h => (by cases h), rfl⟩
    | some key =>
      dsimp only
      rw [howner]
      by_cases hk : key = k
      · subst hk
        exact .inl ⟨hnew, rfl, Dict.get?_set_self _ _ _⟩
      · refine .inr ⟨fun _ h => hk (Option.some.inj h), Dict.get?_set_of_ne _ _ ?_⟩
        exact fun h => hk (Prod.mk.inj h).2.symm
  · refine .inr ⟨fun hnew => ?_, rfl⟩
    rw [IsNew, hm] at hnew
    cases hnew

/-- The fingerprint of a key is the old one, or that of a new record with the key. -/
theorem importRecords_fingerprints (hids : (prepared.map fun p => p.memory.id).Nodup)
    (howner : ∀ p ∈ prepared, p.memory.ownerId = o)
    (h : importRecords prepared s = .ok (result, s₁)) (k : String) :
    (s₁.fingerprints.get? (o, k) = s.fingerprints.get? (o, k) ∧
      ∀ p ∈ prepared, IsNew s p → p.memory.idempotencyKey ≠ some k) ∨
    ∃ p ∈ prepared, IsNew s p ∧ p.memory.idempotencyKey = some k ∧
      s₁.fingerprints.get? (o, k) = some (p.writeFingerprint.getD "") := by
  induction prepared generalizing s result with
  | nil =>
    cases h
    exact .inl ⟨rfl, by simp⟩
  | cons p rest ih =>
    simp only [importRecords, except_bind_ok] at h
    obtain ⟨⟨stored, s₂⟩, hone, ⟨result', s₃⟩, hrest, h⟩ := h
    cases h
    obtain ⟨hfresh, hids⟩ := List.nodup_cons.mp hids
    obtain ⟨hown, howner⟩ := List.forall_mem_cons.mp howner
    obtain ⟨-, hothers, -, -⟩ := importRecord_spec hone
    -- with distinct ids, what is new later was new at the start
    have hsame : ∀ q ∈ rest, (IsNew s₂ q ↔ IsNew s q) := by
      intro q hq
      have hne : q.memory.id ∉ [p.memory.id] := by
        rw [List.mem_singleton]
        intro heq
        exact hfresh (List.mem_map.mpr ⟨q, hq, heq⟩)
      unfold IsNew
      rw [(hothers q.memory.id hne).1]
    rcases ih hids howner hrest with ⟨hlater, hnone⟩ | ⟨q, hq, hnew, hkey, hlater⟩
    -- the rest does not write the key: the first record decides
    · rcases fingerprints_importRecord k hone hown with ⟨hnew, hkey, hfirst⟩ | ⟨hother, hfirst⟩
      · exact .inr ⟨p, List.mem_cons_self, hnew, hkey, hlater.trans hfirst⟩
      · refine .inl ⟨hlater.trans hfirst, List.forall_mem_cons.mpr ⟨hother, ?_⟩⟩
        intro q hq hnew
        exact hnone q hq ((hsame q hq).mpr hnew)
    · exact .inr ⟨q, List.mem_cons_of_mem _ hq, (hsame q hq).mp hnew, hkey, hlater⟩

/-- The fingerprints of other owners stay. -/
theorem importRecords_strangers (howner : ∀ p ∈ prepared, p.memory.ownerId = o)
    (h : importRecords prepared s = .ok (result, s₁)) {o' : String} (ho' : o' ≠ o) (k : String) :
    s₁.fingerprints.get? (o', k) = s.fingerprints.get? (o', k) := by
  induction prepared generalizing s result with
  | nil =>
    cases h
    rfl
  | cons p rest ih =>
    simp only [importRecords, except_bind_ok] at h
    obtain ⟨⟨stored, s₂⟩, hone, ⟨result', s₃⟩, hrest, h₁⟩ := h
    cases h₁
    obtain ⟨hown, howner⟩ := List.forall_mem_cons.mp howner
    refine (ih howner hrest).trans ?_
    rcases importRecord_ok hone with ⟨vector, -, -, rfl⟩ | ⟨m, -, -, rfl⟩
    · unfold storeRecord
      dsimp only
      cases p.memory.idempotencyKey with
      | none => rfl
      | some key =>
        refine Dict.get?_set_of_ne _ _ fun heq => ho' ?_
        rw [(Prod.mk.inj heq).1, hown]
    · rfl

/-! ## The second loop -/

theorem get?_importRelations (relations : List Relation) (s : InMemoryStore R) (k : RelationKey) :
    (relations.foldl importRelation s).relations.get? k =
      (s.relations.get? k).or (relations.find? fun r => decide (r.key = k)) := by
  induction relations generalizing s with
  | nil => simp
  | cons r rest ih =>
    rw [List.foldl_cons, ih, List.find?_cons]
    unfold importRelation
    -- a relation of that key is there already, and stays
    by_cases hc : s.relations.contains r.key = true
    · rw [if_pos hc]
      cases hk : decide (r.key = k) with
      | false => rfl
      | true =>
        obtain rfl := of_decide_eq_true hk
        obtain ⟨r', hr'⟩ := (Dict.contains_iff _ _).mp hc
        rw [hr']
        rfl
    -- the first relation of the key is the one that is stored
    · rw [if_neg hc]
      dsimp only
      rw [Dict.get?_set]
      cases hk : decide (r.key = k) with
      | false =>
        rw [if_neg (fun h => of_decide_eq_false hk h.symm)]
      | true =>
        obtain rfl := of_decide_eq_true hk
        rw [if_pos rfl]
        rw [Bool.not_eq_true, Dict.contains_eq_false_iff] at hc
        rw [hc]
        rfl

/-- Relations that are there are not added again. -/
theorem importRelations_of_contained {relations : List Relation}
    (h : ∀ r ∈ relations, s.relations.contains r.key = true) :
    relations.foldl importRelation s = s := by
  induction relations with
  | nil => rfl
  | cons r rest ih =>
    obtain ⟨hr, hrest⟩ := List.forall_mem_cons.mp h
    rw [List.foldl_cons]
    have hsame : importRelation s r = s := by
      unfold importRelation
      rw [if_pos hr]
    rw [hsame]
    exact ih hrest

/-- The relations of a package that the store does not have. -/
def added (s : InMemoryStore R) (records : List (MemoryRecordDto R)) : List Relation :=
  (records.flatMap MemoryRecordDto.relations).filter fun r => !s.relations.contains r.key

/-- The relation has the memory as an endpoint. -/
def touches (i : UUID) (r : Relation) : Bool := decide (r.sourceId = i) || decide (r.targetId = i)

theorem relationKey_inj {r r' : Relation} (h : r.key = r'.key) :
    relationKey r = relationKey r' ∧ r.ownerId = r'.ownerId ∧ ∀ i, touches i r = touches i r' := by
  unfold Relation.key at h
  simp only [Prod.mk.injEq] at h
  obtain ⟨howner, hsource, htarget, htype⟩ := h
  unfold relationKey touches
  rw [howner, hsource, htarget, htype]
  exact ⟨rfl, rfl, fun _ => rfl⟩

/-- The relations at a memory after an import. -/
theorem mem_relationsOf_import {i : UUID} {k : String × String × String × String}
    (howner : ∀ r ∈ records.flatMap MemoryRecordDto.relations, r.ownerId = o)
    (hrelations : ∀ key, s'.relations.get? key = (s.relations.get? key).or
      ((records.flatMap MemoryRecordDto.relations).find? fun r => decide (r.key = key))) :
    k ∈ (relationsOf s' o i).map relationKey ↔
      k ∈ (relationsOf s o i ++ (added s records).filter (touches i)).map relationKey := by
  have hmem : ∀ (t : InMemoryStore R) (r : Relation), r ∈ relationsOf t o i ↔
      (∃ key, t.relations.get? key = some r) ∧ r.ownerId = o ∧ touches i r = true := by
    intro t r
    unfold relationsOf touches
    rw [List.mem_filter, Dict.mem_values_iff, Bool.and_eq_true, decide_eq_true_eq]
  simp only [List.map_append, List.mem_append, List.mem_map, List.mem_filter, hmem, added]
  constructor
  · rintro ⟨r, ⟨⟨key, hkey⟩, hown, htouch⟩, rfl⟩
    rw [hrelations] at hkey
    cases hold : s.relations.get? key with
    | some r' =>
      rw [hold] at hkey
      obtain rfl := Option.some.inj hkey
      exact .inl ⟨r', ⟨⟨key, hold⟩, hown, htouch⟩, rfl⟩
    | none =>
      rw [hold, Option.none_or] at hkey
      have hr := List.mem_of_find?_eq_some hkey
      obtain rfl : r.key = key := by simpa using List.find?_some hkey
      refine .inr ⟨r, ⟨⟨hr, ?_⟩, htouch⟩, rfl⟩
      rw [(Dict.contains_eq_false_iff _ _).mpr hold]
      rfl
  · rintro (⟨r, ⟨⟨key, hkey⟩, hown, htouch⟩, rfl⟩ | ⟨r, ⟨⟨hr, hnew⟩, htouch⟩, rfl⟩)
    · refine ⟨r, ⟨⟨key, ?_⟩, hown, htouch⟩, rfl⟩
      rw [hrelations, hkey]
      rfl
    · rw [Bool.not_eq_true', Dict.contains_eq_false_iff] at hnew
      -- the first relation of the package with this key is the one that was added
      obtain ⟨first, hfirst⟩ : ∃ first, (records.flatMap MemoryRecordDto.relations).find?
          (fun x => decide (x.key = r.key)) = some first :=
        Option.isSome_iff_exists.mp (List.find?_isSome.mpr ⟨r, hr, by simp⟩)
      have hkey : first.key = r.key := by simpa using List.find?_some hfirst
      obtain ⟨hsame, hown, htouches⟩ := relationKey_inj hkey
      refine ⟨first, ⟨⟨r.key, ?_⟩, hown.trans (howner r hr), (htouches i).trans htouch⟩, hsame⟩
      rw [hrelations, hnew, Option.none_or, hfirst]

/-! ## The package -/

/-- The checks that do not depend on the store. -/
theorem validateImport_package {ids ids' : List UUID}
    (h : validateImport o ids records = .ok ids') :
    (records.map fun record => record.memory.id).Nodup ∧
      (∀ record ∈ records, record.memory.id ∉ ids) ∧
      ∀ record ∈ records, record.memory.idempotencyKey.isSome = true →
        record.writeFingerprint.isSome = true := by
  induction records generalizing ids with
  | nil => simp
  | cons record rest ih =>
    simp only [validateImport, except_bind_ok] at h
    obtain ⟨u, hrecord, hrest⟩ := h
    obtain ⟨hnodup, hfresh, hkeyed⟩ := ih hrest
    simp only [validateImportRecord, except_bind_ok, raiseIf_except_ok] at hrecord
    obtain ⟨_, hdup, _, -, _, -, _, hfingerprint, -⟩ := hrecord
    have hnew : record.memory.id ∉ ids := by simpa using hdup
    refine ⟨?_, List.forall_mem_cons.mpr ⟨hnew, fun r hr hmem => ?_⟩,
      List.forall_mem_cons.mpr ⟨fun hkey => ?_, hkeyed⟩⟩
    · rw [List.map_cons, List.nodup_cons]
      refine ⟨fun hmem => ?_, hnodup⟩
      obtain ⟨r, hr, hid⟩ := List.mem_map.mp hmem
      exact hfresh r hr (hid ▸ List.mem_cons_self)
    · exact hfresh r hr (List.mem_cons_of_mem _ hmem)
    · rw [hkey, Bool.true_and] at hfingerprint
      simpa using hfingerprint

/-- The store after an import of the package, record by record. -/
structure Landed (s s' : InMemoryStore R) (o : String) (records : List (MemoryRecordDto R)) :
    Prop where
  valid : ∀ record ∈ records, ValidRecord o record
  keyed : ∀ record ∈ records, record.memory.idempotencyKey.isSome = true →
    record.writeFingerprint.isSome = true
  alive : ∀ record ∈ records,
    (record.memory.ownerId, record.memory.tenantId, record.memory.id) ∉ s'.tombstones
  stored : ∀ record ∈ records, IsNew s record →
    s'.memories.get? record.memory.id = some record.memory ∧
    s'.historyByMemory.get? record.memory.id = some record.history ∧
    (record.embedding.isSome = true → s'.vectors.get? record.memory.id = record.embedding)
  kept : ∀ record ∈ records, ∀ m, s.memories.get? record.memory.id = some m →
    m.pyEq record.memory = true ∧ s'.memories.get? record.memory.id = some m ∧
    s'.historyByMemory.get? record.memory.id = s.historyByMemory.get? record.memory.id ∧
    s'.vectors.get? record.memory.id = s.vectors.get? record.memory.id
  equivalent : ∀ record ∈ records, ∀ m, s.lookup o record.memory.id none = some m →
    importRecordsEquivalent record (recordOf s o record.memory.id true m) = true
  fingerprints : ∀ k, (s'.fingerprints.get? (o, k) = s.fingerprints.get? (o, k) ∧
      ∀ record ∈ records, IsNew s record → record.memory.idempotencyKey ≠ some k) ∨
    ∃ record ∈ records, IsNew s record ∧ record.memory.idempotencyKey = some k ∧
      s'.fingerprints.get? (o, k) = some (record.writeFingerprint.getD "")
  relations : ∀ key, s'.relations.get? key = (s.relations.get? key).or
    ((records.flatMap MemoryRecordDto.relations).find? fun r => decide (r.key = key))
  others : OthersKept s s' (records.map fun record => record.memory.id)
  strangers : ∀ o' k, o' ≠ o → s'.fingerprints.get? (o', k) = s.fingerprints.get? (o', k)

theorem exists_outfit (h : List.Forall₂ Outfits records prepared) :
    ∀ record ∈ records, ∃ p ∈ prepared, Outfits record p := by
  induction h with
  | nil => simp
  | @cons record p rest more hone _ ih =>
    refine List.forall_mem_cons.mpr ⟨⟨p, List.mem_cons_self, hone⟩, fun r hr => ?_⟩
    obtain ⟨q, hq, houtfits⟩ := ih r hr
    exact ⟨q, List.mem_cons_of_mem _ hq, houtfits⟩

theorem exists_outfitted (h : List.Forall₂ Outfits records prepared) :
    ∀ p ∈ prepared, ∃ record ∈ records, Outfits record p := by
  induction h with
  | nil => simp
  | @cons record p rest more hone _ ih =>
    refine List.forall_mem_cons.mpr ⟨⟨record, List.mem_cons_self, hone⟩, fun q hq => ?_⟩
    obtain ⟨r, hr, houtfits⟩ := ih q hq
    exact ⟨r, List.mem_cons_of_mem _ hr, houtfits⟩

theorem map_of_outfits (h : List.Forall₂ Outfits records prepared) :
    (prepared.map fun p => p.memory.id) = (records.map fun record => record.memory.id) ∧
      prepared.flatMap MemoryRecordDto.relations = records.flatMap MemoryRecordDto.relations := by
  induction h with
  | nil => exact ⟨rfl, rfl⟩
  | cons hone _ ih =>
    rw [List.map_cons, List.map_cons, List.flatMap_cons, List.flatMap_cons, ih.1, ih.2, hone.memory,
      hone.relations]
    exact ⟨rfl, rfl⟩

/-- A successful import lands. -/
theorem landed_of_import {svc : MemoryApplicationService R}
    (h : (svc.importMemories (inMemoryUnitOfWork R) o records).run s = .ok (result, s')) :
    Landed s s' o records := by
  obtain ⟨owner, ids, prepared, s₁, -, hval, -, hequal, hprepared, hloop, rfl⟩ :=
    importMemories_spec h
  obtain ⟨hvalid, -⟩ := validateImport_ok hval
  obtain ⟨hnodup, -, hkeyed⟩ := validateImport_package hval
  obtain ⟨hids, hrels⟩ := map_of_outfits hprepared
  rw [← hids] at hnodup
  obtain ⟨himports, hothers, hrelations, htombstones⟩ := importRecords_spec hnodup hloop
  have hown : ∀ p ∈ prepared, p.memory.ownerId = o := by
    intro p hp
    obtain ⟨record, hrecord, houtfits⟩ := exists_outfitted hprepared p hp
    rw [houtfits.memory]
    exact (hvalid record hrecord).owner
  have hfingerprints := importRecords_fingerprints hnodup hown hloop
  -- the relations come last and touch no record
  have halike := alike_importRelations (prepared.flatMap MemoryRecordDto.relations) s₁
  refine ⟨hvalid, hkeyed, ?_, ?_, ?_, hequal, ?_, ?_, ?_, ?_⟩
  · intro record hrecord
    obtain ⟨p, hp, houtfits⟩ := exists_outfit hprepared record hrecord
    rw [halike.tombstones, htombstones, ← houtfits.memory]
    exact (himports p hp).alive
  · intro record hrecord hnew
    obtain ⟨p, hp, houtfits⟩ := exists_outfit hprepared record hrecord
    rw [IsNew, ← houtfits.memory] at hnew
    obtain ⟨hmemory, hhistory, hvector⟩ := (himports p hp).stored hnew
    rw [halike.memories, halike.histories, halike.vectors, ← houtfits.memory, ← houtfits.history]
    exact ⟨hmemory, hhistory, fun hsome => hvector.trans (houtfits.embedding hsome)⟩
  · intro record hrecord m hm
    obtain ⟨p, hp, houtfits⟩ := exists_outfit hprepared record hrecord
    rw [← houtfits.memory] at hm
    rw [halike.memories, halike.histories, halike.vectors, ← houtfits.memory]
    exact (himports p hp).kept m hm
  -- the last new record with the key has set its fingerprint
  · intro k
    rw [halike.fingerprints]
    rcases hfingerprints k with ⟨hsame, hnone⟩ | ⟨p, hp, hnew, hkey, hlast⟩
    · refine .inl ⟨hsame, fun record hrecord hnew => ?_⟩
      obtain ⟨p, hp, houtfits⟩ := exists_outfit hprepared record hrecord
      rw [← houtfits.memory]
      exact hnone p hp (by rw [IsNew, houtfits.memory]; exact hnew)
    · obtain ⟨record, hrecord, houtfits⟩ := exists_outfitted hprepared p hp
      rw [houtfits.memory] at hkey
      rw [houtfits.fingerprint] at hlast
      exact .inr ⟨record, hrecord, by rw [IsNew, ← houtfits.memory]; exact hnew, hkey, hlast⟩
  · intro key
    rw [get?_importRelations, hrelations, hrels]
  · intro i hi
    rw [← hids] at hi
    rw [halike.memories, halike.histories, halike.vectors]
    exact hothers i hi
  · intro o' k ho'
    rw [halike.fingerprints]
    exact importRecords_strangers hown hloop ho' k

end MemoryApplicationService

end OpenMemory
