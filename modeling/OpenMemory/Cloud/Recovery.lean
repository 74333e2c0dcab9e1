import OpenMemory.Cloud.Runs

/-!
# Backup and restore of the Cloud memory service

What survives a restore, and what a restore leaves when it raises. In every reachable state
(`Sound`) records are under their own ids, owners are valid, and the ledger passes its own checks;
so a service accepts its own backups (`checkRecords_backup`, `restore_backup`), and the only
tombstones a restore can stop at are the ones it was given.

Three of the results are about where the service loses track of a deletion: a `forget` that found
nothing is remembered as done (`forget_final_iff`), `delete_owner` marks the ids it finds and not the
owner (`deletion_survives_iff`), and `restore` assigns the ledger before it has looked at the records
(`restore_all_or_nothing_iff`).
-/

namespace OpenMemory.Cloud

open Lib

variable {R : Type} [Python R]

variable {encryptor : TenantEnvelopeEncryptor} {env : Environment}
  {s s' : EncryptedCloudMemoryService R}

/-! ## Sound states -/

/-- A tombstone that `restore` accepts. -/
structure ValidTombstone (R : Type) [Python R] (k : String × String) (deletedAt : String) :
    Prop where
  owner : ∃ tenant, tenantOf R k.1 = .ok tenant
  date : (Python.fromisoformat R (fromZ deletedAt)).isSome

/-- Records are under their own ids, owners are valid, and so is the ledger. -/
structure Sound (s : EncryptedCloudMemoryService R) : Prop where
  keyed : ∀ i r, s.records.get? i = some r → r.id = i
  owners : ∀ i o, ownerAt s i = some o → ∃ tenant, tenantOf R o = .ok tenant
  ledger : ∀ k deletedAt, s.tombstones.get? k = some deletedAt → ValidTombstone R k deletedAt

/-- Every record is under its own id. -/
def Keyed (s : EncryptedCloudMemoryService R) : Prop :=
  ∀ i r, s.records.get? i = some r → r.id = i

omit [Python R] in
/-- A record stored under its own id keeps the records keyed. -/
theorem Keyed.set (h : Keyed s) {i : String} {r : StoredRecord R} (hr : r.id = i) :
    Keyed (putRecord s i r) := by
  intro j r' hr'
  have hget : (s.records.set i r).get? j = some r' := hr'
  rw [Dict.get?_set] at hget
  by_cases hj : j = i
  · rw [if_pos hj] at hget
    cases hget
    exact hr.trans hj.symm
  · rw [if_neg hj] at hget
    exact h j r' hget

/-- A rewrap stores every record where it was. -/
theorem Keyed.rewrap (h : Keyed s) (version : Int) :
    Keyed (Cloud.rewrap encryptor env version s).2 := by
  intro i r' hr'
  have hsame := get?_rewrap encryptor env version s i
  rw [hr', Option.map_some] at hsame
  cases hr : s.records.get? i with
  | none =>
    rw [hr] at hsame
    cases hsame
  | some r =>
    rw [hr, Option.map_some] at hsame
    exact (congrArg Prod.fst (Option.some.inj hsame)).trans (h i r hr)

/-- Every call keeps the records keyed. -/
theorem Keyed.apply (h : Keyed s) (call : CloudCall R) : Keyed (call.apply encryptor s) := by
  cases call with
  | write env payload =>
    show Keyed (write encryptor env payload s).2
    -- the written record stands under its id
    rcases write_cases encryptor env payload s with hsame | ⟨_, r, _, -, -, hstored⟩
    · rw [hsame]
      exact h
    · rw [hstored]
      exact h.set rfl
  | update env payload =>
    show Keyed (update encryptor env payload s).2
    rcases update_cases encryptor env payload s with hsame | ⟨r, r', hr, hid, hput | hamended⟩
    · rw [hsame]
      exact h
    · rw [hput]
      exact h.set (hid.1.trans (h _ r hr))
    · rw [hamended]
      exact h.set (hid.1.trans (h _ r hr))
  | storeEmbedding o i version values =>
    show Keyed (storeEmbedding o i version values s).2
    rcases storeEmbedding_cases o i version values s with hsame | ⟨_, -, -, hset⟩
    · rw [hsame]
      exact h
    · rw [hset]
      exact h
  | forget env o i =>
    show Keyed (forget env o i s).2
    -- what is buried goes, the rest stays
    rcases forget_cases env o i s with ⟨-, hsame⟩ | ⟨-, -, hkeys⟩ | ⟨-, -, hbury⟩
    · rw [hsame]
      exact h
    · rw [hkeys]
      exact h
    · rw [hbury]
      intro j r hr
      rw [get?_bury] at hr
      split at hr
      · cases hr
      · exact h j r hr
  | deleteOwner env o =>
    show Keyed (deleteOwner env o s).2
    rcases deleteOwner_cases env o s with ⟨e, -, hsame⟩ | ⟨tenant, -, hdeleted⟩
    · rw [hsame]
      exact h
    · rw [hdeleted]
      intro j r hr
      have hr' : (buryAll env o (idsOf s o) 0 s).records.get? j = some r := hr
      rw [get?_buryAll] at hr'
      split at hr'
      · cases hr'
      · exact h j r hr'
  | backup => exact h
  | restore snapshot tombstones =>
    show Keyed (restore snapshot tombstones s).2
    -- the installed records stand under their ids
    rcases restore_cases snapshot tombstones s with
      ⟨e, -, hsame⟩ | ⟨e, hledger⟩ | ⟨records, restored, -, -, hok⟩
    · rw [hsame]
      exact h
    · rw [hledger]
      exact h
    · rw [hok]
      intro j r hr
      exact (get?_byId (get?_install.mp hr).1).2
  | rotate version =>
    show Keyed (rotate version s).2
    unfold rotate
    split <;> exact h
  | rewrap env version => exact h.rewrap version

/-- Every call keeps the service sound. -/
theorem Sound.apply (h : Sound s) (encryptor : TenantEnvelopeEncryptor) (call : CloudCall R) :
    Sound (call.apply encryptor s) where
  keyed := Keyed.apply h.keyed call
  owners i o hi := by
    rcases ownerAt_apply hi with hold | ⟨_, _, -, -, htenant⟩ | ⟨_, _, -, -, htenant⟩
    · exact h.owners i o hold
    · exact htenant
    · exact htenant
  ledger k deletedAt hk := by
    rcases get?_tombstones_apply encryptor call s k with hold | ⟨at_, hget, hdate, howner⟩
    · rw [hold] at hk
      exact h.ledger k deletedAt hk
    · rw [hget] at hk
      cases hk
      rcases howner with hheld | htenant
      · exact ⟨h.owners _ _ hheld, hdate⟩
      · exact ⟨htenant, hdate⟩

/-- So does every run. -/
theorem Sound.reaches (h : Sound s) (hrun : Reaches (Step encryptor) s s') : Sound s' := by
  refine hrun.kept (I := Sound) ?_ h
  rintro s₁ s₂ ⟨call, -, rfl⟩ h₁
  exact h₁.apply encryptor call

/-- A new service holds nothing. -/
theorem sound_newService (keyVersion : Int) : Sound (newService keyVersion (R := R)) where
  keyed _ _ h := by cases h
  owners _ _ h := by cases h
  ledger _ _ h := by cases h

/-- Every reachable service is sound. -/
theorem Reachable.sound (h : Reachable encryptor s) : Sound s := by
  obtain ⟨keyVersion, hrun⟩ := h
  exact (sound_newService keyVersion).reaches hrun

/-! ## The ledger loop -/

/-- The entries up to the first that is rejected. -/
def acceptedEntries : List (PyObj R) → List ((String × String) × String)
  | [] => []
  | entry :: rest =>
    match checkEntry entry with
    | .error _ => []
    | .ok e => e :: acceptedEntries rest

/-- The merged ledger has what it had and the accepted entries. -/
theorem applyLedger_snd (entries : List (PyObj R)) (d : Dict (String × String) String) :
    (applyLedger entries d).2 = Dict.setAll (acceptedEntries entries) d := by
  induction entries generalizing d with
  | nil => rfl
  | cons entry rest ih =>
    unfold applyLedger acceptedEntries
    cases checkEntry entry with
    | error e => rfl
    | ok e => exact ih (d.set e.1 e.2)

/-- The loop returns exactly when every entry passes its checks. -/
theorem applyLedger_fst (entries : List (PyObj R)) (d : Dict (String × String) String) :
    (applyLedger entries d).1 = .ok () ↔ ∀ entry ∈ entries, ∃ e, checkEntry entry = .ok e := by
  induction entries generalizing d with
  | nil => simp [applyLedger]
  | cons entry rest ih =>
    unfold applyLedger
    cases hentry : checkEntry entry with
    -- the first entry that fails ends the merge
    | error e =>
      constructor
      · intro h
        cases h
      · intro h
        obtain ⟨e', he'⟩ := h entry List.mem_cons_self
        rw [hentry] at he'
        cases he'
    | ok e =>
      constructor
      · intro h entry' hmem
        rcases List.mem_cons.mp hmem with rfl | hrest
        · exact ⟨e, hentry⟩
        · exact (ih _).mp h entry' hrest
      · intro h
        exact (ih _).mpr fun entry' hmem => h entry' (List.mem_cons_of_mem _ hmem)

/-- A valid tombstone passes the check of its own entry. -/
theorem checkEntry_entryDict {k : String × String} {deletedAt : String}
    (h : ValidTombstone R k deletedAt) :
    checkEntry (entryDict (k, deletedAt) : PyObj R) = .ok (k, deletedAt) := by
  obtain ⟨tenant, htenant⟩ := h.owner
  obtain ⟨date, hdate⟩ := Option.isSome_iff_exists.mp h.date
  let fields : List (PyKey × PyObj R) := [(.str "owner_id", .str k.1), (.str "memory_id", .str k.2),
    (.str "deleted_at", .str deletedAt)]
  have howner : PyDict.getText fields "owner_id" = some k.1 := rfl
  have hmemory : PyDict.getText fields "memory_id" = some k.2 := rfl
  have hdeleted : PyDict.getText fields "deleted_at" = some deletedAt := rfl
  show checkEntry (.dict fields) = _
  unfold checkEntry
  dsimp only
  rw [howner, hmemory, hdeleted]
  dsimp only
  rw [htenant]
  dsimp only
  rw [hdate]

/-- Reading its own tombstones changes nothing. -/
theorem applyLedger_own {own : List ((String × String) × String)} {d : Dict (String × String) String}
    (h : ∀ e ∈ own, d.get? e.1 = some e.2 ∧ ValidTombstone R e.1 e.2) (entries : List (PyObj R)) :
    applyLedger (own.map entryDict ++ entries) d = applyLedger entries d := by
  induction own with
  | nil => rfl
  | cons e rest ih =>
    obtain ⟨hget, hvalid⟩ := h e List.mem_cons_self
    show applyLedger (entryDict e :: (rest.map entryDict ++ entries)) d = _
    unfold applyLedger
    rw [checkEntry_entryDict hvalid]
    dsimp only
    rw [Dict.set_eq_self hget]
    exact (ih fun e' hmem => h e' (List.mem_cons_of_mem _ hmem)).trans (by cases entries <;> rfl)

/-- Merging the service's own tombstones first changes nothing. -/
theorem applyLedger_tombstoneEntries (h : Sound s) (entries : List (PyObj R)) :
    applyLedger (tombstoneEntries s ++ entries) s.tombstones = applyLedger entries s.tombstones := by
  refine applyLedger_own ?_ entries
  rintro ⟨k, deletedAt⟩ hmem
  have hget := (Dict.mem_items_iff _ _ _).mp ((List.mem_insertionSort _).mp hmem)
  exact ⟨hget, h.ledger k deletedAt hget⟩

/-! ## A backup is accepted -/

omit [Python R] in
/-- Beside its id and owner a dumped record has the fields of the record. -/
theorem otherFields_toDict (r : StoredRecord R) : otherFields r.toDict = r.fields := by
  have hkept : r.fields.filter (fun e => decide (e.1 ∉ ownKeys)) = r.fields := by
    refine List.filter_eq_self.mpr ?_
    intro e he
    exact decide_eq_true (r.others e.1 (List.mem_map_of_mem he))
  exact hkept

/-- A stored record passes the checks on a snapshot's records. -/
theorem checkRecord_toDict {r : StoredRecord R} {tenant : UUID}
    (htenant : tenantOf R r.ownerId = .ok tenant) :
    checkRecord (.str r.id) (.dict r.toDict) = .ok r := by
  have howner : PyDict.getText r.toDict "owner_id" = some r.ownerId := rfl
  have hid : PyDict.getText r.toDict "id" = some r.id := rfl
  have hcontent : checkEnvelope r.toDict "content_ciphertext" = .ok r.contentCiphertext := rfl
  have hprovenance : checkEnvelope r.toDict "provenance_ciphertext" =
      .ok r.provenanceCiphertext := rfl
  unfold checkRecord
  dsimp only
  rw [howner]
  dsimp only
  rw [htenant]
  dsimp only
  rw [hid, if_neg (fun h => h rfl), hcontent, hprovenance]
  refine congrArg Except.ok ?_
  have hfields := otherFields_toDict r
  obtain ⟨i, o, content, provenance, fields, hothers⟩ := r
  dsimp only at hfields ⊢
  rw [StoredRecord.mk.injEq]
  exact ⟨rfl, rfl, rfl, rfl, hfields⟩

/-- The records of a backup pass their checks. -/
theorem checkRecords_backup (h : Sound s) :
    checkRecords (s.records.items.map fun e => (PyKey.str e.1, PyObj.dict e.2.toDict)) =
      .ok s.records.values := by
  -- every record is its owner's, under its own id
  have hmem : ∀ e ∈ s.records.items, e.2.id = e.1 ∧ ∃ tenant, tenantOf R e.2.ownerId = .ok tenant := by
    intro e he
    have hget := (Dict.mem_items_iff _ _ _).mp he
    exact ⟨h.keyed _ _ hget, h.owners e.1 _ (ownerAt_eq_some.mpr ⟨e.2, hget, rfl⟩)⟩
  unfold Dict.values
  generalize s.records.items = items at hmem ⊢
  induction items with
  | nil => rfl
  | cons e rest ih =>
    obtain ⟨hid, tenant, htenant⟩ := hmem e List.mem_cons_self
    have hrest := ih fun e' he' => hmem e' (List.mem_cons_of_mem _ he')
    show checkRecords ((PyKey.str e.1, PyObj.dict e.2.toDict) :: rest.map _) = _
    unfold checkRecords
    rw [← hid, checkRecord_toDict htenant]
    show (do
      let more ← checkRecords
        (rest.map fun e : String × StoredRecord R => (PyKey.str e.1, PyObj.dict e.2.toDict))
      pure (e.2 :: more)) = _
    rw [hrest]
    rfl

omit [Python R] in
/-- A listed record is found under its id. -/
theorem isSome_get?_byId {records : List (StoredRecord R)} {r : StoredRecord R}
    (h : r ∈ records) : ((byId records).get? r.id).isSome := by
  -- a later record under the id replaces an earlier one, and one stays there
  have hfold : ∀ (l : List (StoredRecord R)) (d : Dict String (StoredRecord R)),
      (r ∈ l ∨ (d.get? r.id).isSome) →
        ((l.foldl (fun d r => d.set r.id r) d).get? r.id).isSome := by
    intro l
    induction l with
    | nil =>
      rintro d (hmem | hd)
      · cases hmem
      · exact hd
    | cons r₀ rest ih =>
      intro d hd
      refine ih _ ?_
      rw [Dict.get?_set]
      by_cases hid : r.id = r₀.id
      · exact .inr (by rw [if_pos hid]; rfl)
      · rw [if_neg hid]
        rcases hd with hmem | hd
        · rcases List.mem_cons.mp hmem with rfl | hrest
          · exact absurd rfl hid
          · exact .inl hrest
        · exact .inr hd
  exact hfold records ∅ (.inl h)

/-- The records of a backup under their ids are the records that were there. -/
theorem get?_byId_values (h : Sound s) (i : String) :
    (byId s.records.values).get? i = s.records.get? i := by
  -- what is found was listed under its own id
  have hback : ∀ {r : StoredRecord R}, (byId s.records.values).get? i = some r →
      s.records.get? i = some r := by
    intro r hr
    obtain ⟨hmem, rfl⟩ := get?_byId hr
    obtain ⟨k, hk⟩ := (Dict.mem_values_iff _ _).mp hmem
    rw [h.keyed k r hk]
    exact hk
  cases hr : s.records.get? i with
  | none =>
    cases hby : (byId s.records.values).get? i with
    | none => rfl
    | some r =>
      rw [hback hby] at hr
      cases hr
  | some r =>
    have hid := h.keyed i r hr
    obtain ⟨r', hr'⟩ := Option.isSome_iff_exists.mp
      (isSome_get?_byId ((Dict.mem_values_iff _ _).mpr ⟨i, hr⟩))
    rw [hid] at hr'
    rw [hr', ← hr, hback hr']

/-- A restore without further tombstones of a backup whose service was sound: it returns, and what
it leaves are the records of the backup that no tombstone names. -/
theorem restore_backup {sb : EncryptedCloudMemoryService R} (hb : Sound sb) (hs : Sound s) :
    (∃ n, (restore (backup sb) [] s).1 = .ok n) ∧
      ∀ o i, ownerAt (restore (backup sb) [] s).2 i = some o ↔
        ownerAt sb i = some o ∧ s.tombstones.contains (o, i) = false := by
  have hrestore : restore (backup sb) [] s =
      (.ok (install s s.tombstones (byId sb.records.values)).records.items.length,
        install s s.tombstones (byId sb.records.values)) := by
    have hrecords : snapshotRecords (backup sb) =
        .ok (sb.records.items.map fun e => (PyKey.str e.1, PyObj.dict e.2.toDict)) := rfl
    unfold restore
    rw [hrecords]
    dsimp only
    rw [applyLedger_tombstoneEntries hs]
    dsimp only [applyLedger]
    rw [checkRecords_backup hb]
  rw [hrestore]
  refine ⟨⟨_, rfl⟩, fun o i => ?_⟩
  rw [ownerAt_eq_some, ownerAt_eq_some]
  constructor
  · rintro ⟨r, hr, rfl⟩
    obtain ⟨hget, hfree⟩ := get?_install.mp hr
    rw [get?_byId_values hb] at hget
    exact ⟨⟨r, hget, rfl⟩, hfree⟩
  · rintro ⟨⟨r, hget, rfl⟩, hfree⟩
    rw [← get?_byId_values hb] at hget
    exact ⟨r, get?_install.mpr ⟨hget, hfree⟩, rfl⟩

/-! ## Forgetting for good -/

/-- A snapshot with one record, whose envelopes are empty. -/
def craftedRecord (o i : String) : StoredRecord R where
  id := i
  ownerId := o
  contentCiphertext := ⟨.none, .none, .none, .none⟩
  provenanceCiphertext := ⟨.none, .none, .none, .none⟩
  fields := []
  others := by simp

/-- A service that holds nothing else. -/
def crafted (o i : String) : EncryptedCloudMemoryService R :=
  { newService 1 with records := (∅ : Dict String (StoredRecord R)).set i (craftedRecord o i) }

omit [Python R] in
theorem get?_crafted {o i j : String} {r : StoredRecord R}
    (h : (crafted o i).records.get? j = some r) : j = i ∧ r = craftedRecord o i := by
  have h' : ((∅ : Dict String (StoredRecord R)).set i (craftedRecord o i)).get? j = some r := h
  rw [Dict.get?_set] at h'
  by_cases hj : j = i
  · rw [if_pos hj] at h'
    cases h'
    exact ⟨hj, rfl⟩
  · rw [if_neg hj] at h'
    cases h'

theorem sound_crafted {o : String} {tenant : UUID} (ho : tenantOf R o = .ok tenant) (i : String) :
    Sound (crafted o i (R := R)) where
  keyed j r hr := by
    obtain ⟨rfl, rfl⟩ := get?_crafted hr
    rfl
  owners j o' hj := by
    obtain ⟨r, hr, rfl⟩ := ownerAt_eq_some.mp hj
    obtain ⟨rfl, rfl⟩ := get?_crafted hr
    exact ⟨tenant, ho⟩
  ledger k deletedAt h := by cases h

/-- A memory that the ledger does not name can be restored from a snapshot. -/
theorem exists_restore (encryptor : TenantEnvelopeEncryptor) (hs : Sound s) {o i : String} {tenant : UUID}
    (ho : tenantOf R o = .ok tenant) (hfree : s.tombstones.contains (o, i) = false) :
    ∃ s', Step encryptor s s' ∧ ownerAt s' i = some o := by
  refine ⟨_, ⟨.restore (backup (crafted o i)) [], trivial, rfl⟩, ?_⟩
  refine ((restore_backup (sound_crafted ho i) hs).2 o i).mpr ⟨?_, hfree⟩
  unfold ownerAt crafted
  rw [Dict.get?_set_self]
  rfl

/-- A record of an owner that is not valid never appears. -/
theorem ownerAt_of_invalid (hs : Sound s) {o i : String}
    (ho : ∀ tenant, tenantOf R o ≠ .ok tenant) : ownerAt s i ≠ some o := by
  intro h
  obtain ⟨tenant, htenant⟩ := hs.owners i o h
  exact ho tenant htenant

/-- After a forget the memory is absent for good, whatever is restored later, exactly when its owner
is not valid, or it was buried before, or it was there and had not been forgotten. -/
theorem forget_final_iff (hreach : Reachable encryptor s) (env : Environment) (o i : String) :
    (∀ s', Reaches (Step encryptor) (forget env o i s).2 s' → holds s' o i = false) ↔
      (∀ tenant, tenantOf R o ≠ .ok tenant) ∨
      (s.tombstones.contains (o, i) = true ∧ holds s o i = false) ∨
      ((o, i) ∉ s.forgetKeys ∧ holds s o i = true) := by
  have hsound := hreach.sound
  have hafter : Sound (forget env o i s).2 := hsound.apply encryptor (.forget env o i)
  constructor
  · intro hfinal
    by_cases hvalid : ∀ tenant, tenantOf R o ≠ .ok tenant
    · exact .inl hvalid
    · push Not at hvalid
      obtain ⟨tenant, htenant⟩ := hvalid
      have hnow := hfinal _ .refl
      -- not named by the ledger, it would come back with a snapshot
      have hnamed : (forget env o i s).2.tombstones.contains (o, i) = true := by
        cases hnamed : (forget env o i s).2.tombstones.contains (o, i) with
        | true => rfl
        | false =>
          obtain ⟨s', hstep, hback⟩ := exists_restore encryptor hafter htenant hnamed
          have hgone := hfinal s' (.single hstep)
          rw [holds_iff.mpr hback] at hgone
          cases hgone
      rcases forget_cases env o i s with ⟨-, hsame⟩ | ⟨-, hholds, hkeys⟩ | ⟨hnew, hholds, -⟩
      · rw [hsame] at hnamed hnow
        exact .inr (.inl ⟨hnamed, hnow⟩)
      · rw [hkeys] at hnamed
        exact .inr (.inl ⟨hnamed, hholds⟩)
      · exact .inr (.inr ⟨hnew, hholds⟩)
  · rintro (hinvalid | ⟨hnamed, habsent⟩ | ⟨hnew, hholds⟩) s' hrun
    · exact holds_eq_false_iff.mpr (ownerAt_of_invalid (hafter.reaches hrun) hinvalid)
    · have hburied : Buried s o i := by
        refine ⟨hnamed, fun h => ?_⟩
        rw [holds_iff.mpr h] at habsent
        cases habsent
      have hkept : Buried (forget env o i s).2 o i :=
        hburied.apply encryptor (show (CloudCall.forget (R := R) env o i).Fresh s from trivial)
      exact holds_eq_false_iff.mpr (hkept.reaches hrun).absent
    · have hburied : Buried (forget env o i s).2 o i :=
        buried_of_removes encryptor (removes_forget hnew hholds)
      exact holds_eq_false_iff.mpr (hburied.reaches hrun).absent

/-- At the desk: forgetting the memory is final. -/
theorem deskForgotten_final :
    holds deskWritten deskOwner deskId = true ∧
      holds ((CloudCall.restore (backup deskWritten) []).apply deskEncryptor
        (forget (deskEnv 0) deskOwner deskId deskWritten).2) deskOwner deskId = false := by
  have hdesk : holds deskWritten deskOwner deskId = true ∧
      (deskOwner, deskId) ∉ deskWritten.forgetKeys := by decide +kernel
  obtain ⟨hholds, hnew⟩ := hdesk
  refine ⟨hholds, (forget_final_iff ⟨1, reaches_deskWritten⟩ (deskEnv 0) deskOwner deskId).mpr
    (.inr (.inr ⟨hnew, hholds⟩)) _ ?_⟩
  exact .single ⟨.restore (backup deskWritten) [], trivial, rfl⟩

/-- The desk after an empty backup was restored. -/
def deskEmptied : EncryptedCloudMemoryService ℚ :=
  (CloudCall.restore (backup (newService 1 : EncryptedCloudMemoryService ℚ)) []).apply deskEncryptor
    deskWritten

theorem reachable_deskEmptied : Reachable deskEncryptor deskEmptied :=
  ⟨1, .tail reaches_deskWritten ⟨.restore (backup (newService 1)) [], trivial, rfl⟩⟩

/-- The desk after a forget that found nothing and the backup with the memory. -/
def deskBack : EncryptedCloudMemoryService ℚ :=
  (CloudCall.restore (backup deskWritten) []).apply deskEncryptor
    (forget (deskEnv 0) deskOwner deskId deskEmptied).2

/-- A forget of a memory that is only in a backup: the backup brings it back, and forgetting it
again answers `already_absent` and leaves it there. -/
theorem forgotten_comes_back :
    Reachable deskEncryptor deskEmptied ∧
      Reaches (Step deskEncryptor) (forget (deskEnv 0) deskOwner deskId deskEmptied).2 deskBack ∧
      holds deskBack deskOwner deskId = true ∧
      (forget (deskEnv 0) deskOwner deskId deskBack).1 = false ∧
      holds (forget (deskEnv 0) deskOwner deskId deskBack).2 deskOwner deskId = true := by
  refine ⟨reachable_deskEmptied, .single ⟨.restore (backup deskWritten) [], trivial, rfl⟩, ?_⟩
  decide +kernel

/-! ## Deleting an owner for good -/

/-- The tombstones after a deletion: the ones that were there and the owner's records. -/
theorem contains_tombstones_deleteOwner {o : String} {n : Nat}
    (h : (deleteOwner env o s).1 = .ok n) (i : String) :
    (deleteOwner env o s).2.tombstones.contains (o, i) = true ↔
      ownerAt s i = some o ∨ s.tombstones.contains (o, i) = true := by
  rcases deleteOwner_cases env o s with ⟨e, -, hsame⟩ | ⟨tenant, -, hdeleted⟩
  · rw [hsame] at h
    cases h
  · rw [hdeleted]
    dsimp only
    rw [← mem_idsOf]
    unfold Dict.contains
    rcases get?_tombstones_buryAll env o (idsOf s o) 0 s (o, i) with ⟨u, hu, -, hmem⟩ | ⟨hold, hnot⟩
    · rw [hu]
      exact ⟨fun _ => .inl hmem, fun _ => rfl⟩
    · rw [hold]
      constructor
      · exact fun hnamed => .inr hnamed
      · rintro (hmem | hnamed)
        · exact absurd ⟨rfl, hmem⟩ hnot
        · exact hnamed

/-- After `delete_owner`, no restore of the backup brings a record of the owner back exactly when
every record of the owner in the backup was there or had a tombstone when the owner was deleted. -/
theorem deletion_survives_iff {sb : EncryptedCloudMemoryService R} (hreach : Reachable encryptor sb)
    (hrun : Reaches (Step encryptor) sb s) {o : String} {n : Nat}
    (hdeleted : (deleteOwner env o s).1 = .ok n) :
    (∀ s' tombstones m, Reaches (Step encryptor) (deleteOwner env o s).2 s' →
        (restore (backup sb) tombstones s').1 = .ok m →
        ∀ i, holds (restore (backup sb) tombstones s').2 o i = false) ↔
      ∀ i, holds sb o i = true → holds s o i = true ∨ s.tombstones.contains (o, i) = true := by
  have hb := hreach.sound
  have hafter : Sound (deleteOwner env o s).2 :=
    (hb.reaches hrun).apply encryptor (.deleteOwner env o)
  constructor
  · intro hgone i hbackup
    obtain ⟨⟨m, hm⟩, howner⟩ := restore_backup hb hafter
    have habsent := holds_eq_false_iff.mp (hgone _ [] m .refl hm i)
    rw [holds_iff, ← contains_tombstones_deleteOwner hdeleted]
    cases hnamed : (deleteOwner env o s).2.tombstones.contains (o, i) with
    | true => rfl
    | false => exact absurd ((howner o i).mpr ⟨holds_iff.mp hbackup, hnamed⟩) habsent
  · intro hcovered s' tombstones m hlater hm i
    refine holds_eq_false_iff.mpr fun hback => ?_
    rcases restore_cases (backup sb) tombstones s' with
      ⟨e, -, herror⟩ | ⟨e, herror⟩ | ⟨records, restored, hrecords, hchecked, hok⟩
    · rw [herror] at hm
      cases hm
    · rw [herror] at hm
      cases hm
    · rw [hok] at hback
      obtain ⟨r, hr, hro⟩ := ownerAt_eq_some.mp hback
      obtain ⟨hget, hfree⟩ := get?_install.mp hr
      -- the record is one of the backup, so the deletion has named it
      cases hrecords
      rw [checkRecords_backup hb] at hchecked
      cases hchecked
      rw [get?_byId_values hb] at hget
      have hheld := hcovered i (holds_iff.mpr (ownerAt_eq_some.mpr ⟨r, hget, hro⟩))
      rw [holds_iff] at hheld
      have hnamed := (contains_tombstones_deleteOwner hdeleted i).mpr hheld
      have hkept : s'.tombstones.contains (o, i) = true := by
        refine hlater.kept (I := fun s => s.tombstones.contains (o, i) = true) ?_ hnamed
        rintro s₁ s₂ ⟨call, -, rfl⟩ h₁
        exact contains_tombstones_apply encryptor call h₁
      rw [hro, contains_applyLedger _ hkept] at hfree
      cases hfree

/-- At the desk: the backup that was taken while the memory was there. -/
theorem deskDeletion_survives :
    (deleteOwner (deskEnv 0) deskOwner deskWritten).1.toOption = some 1 ∧
      holds (restore (backup deskWritten) [] (deleteOwner (deskEnv 0) deskOwner deskWritten).2).2
        deskOwner deskId = false := by
  have hdesk : (deleteOwner (deskEnv 0) deskOwner deskWritten).1 = .ok 1 ∧
      (restore (backup deskWritten) [] (deleteOwner (deskEnv 0) deskOwner deskWritten).2).1
        = .ok 0 := by decide +kernel
  obtain ⟨hdeleted, hrestored⟩ := hdesk
  refine ⟨by rw [hdeleted]; rfl, ?_⟩
  refine (deletion_survives_iff ⟨1, reaches_deskWritten⟩ .refl hdeleted).mpr ?_ _ [] 0 .refl
    hrestored deskId
  exact fun i hi => .inl hi

/-- A deletion while the memory is only in a backup: the backup brings it back. -/
theorem deleted_owner_comes_back :
    Reaches (Step deskEncryptor) deskWritten deskEmptied ∧
      (deleteOwner (deskEnv 0) deskOwner deskEmptied).1 = .ok 0 ∧
      holds (restore (backup deskWritten) [] (deleteOwner (deskEnv 0) deskOwner deskEmptied).2).2
        deskOwner deskId = true := by
  refine ⟨.single ⟨.restore (backup (newService 1)) [], trivial, rfl⟩, ?_⟩
  decide +kernel

/-! ## All or nothing -/

/-- A restore whose snapshot has records: what it has done when it raises is the ledger. -/
theorem restore_of_records {snapshot : PyDict R} {records : PyDict R}
    (h : snapshotRecords snapshot = .ok records) (tombstones : List (PyObj R))
    (s : EncryptedCloudMemoryService R) :
    ((∃ n, (restore snapshot tombstones s).1 = .ok n) ∧
        (∀ entry ∈ tombstoneEntries s ++ tombstones, ∃ e, checkEntry entry = .ok e) ∧
        ∃ restored, checkRecords records = .ok restored) ∨
      ((∃ e, (restore snapshot tombstones s).1 = .error e) ∧
        (restore snapshot tombstones s).2 = { s with
          tombstones := Dict.setAll (acceptedEntries (tombstoneEntries s ++ tombstones))
            s.tombstones } ∧
        ¬ ((∀ entry ∈ tombstoneEntries s ++ tombstones, ∃ e, checkEntry entry = .ok e) ∧
          ∃ restored, checkRecords records = .ok restored)) := by
  have hfst := applyLedger_fst (tombstoneEntries s ++ tombstones) s.tombstones
  have hsnd := applyLedger_snd (tombstoneEntries s ++ tombstones) s.tombstones
  unfold restore
  rw [h]
  dsimp only
  cases hledger : applyLedger (tombstoneEntries s ++ tombstones) s.tombstones with
  | mk outcome ledger =>
    rw [hledger] at hfst hsnd
    dsimp only at hfst hsnd
    subst hsnd
    cases outcome with
    | error e =>
      refine .inr ⟨⟨e, rfl⟩, rfl, fun hall => ?_⟩
      cases hfst.mpr hall.1
    | ok u =>
      dsimp only
      cases hchecked : checkRecords records with
      | error e =>
        refine .inr ⟨⟨e, rfl⟩, rfl, ?_⟩
        rintro ⟨-, restored, hrestored⟩
        cases hrestored
      | ok restored => exact .inl ⟨⟨_, rfl⟩, hfst.mp rfl, restored, rfl⟩

/-- A restore that raises leaves everything as it was exactly when the snapshot is refused outright,
or nothing is rejected, or of the ledger's entries up to the first rejected one the last about each
memory repeats the date that the service has. -/
theorem restore_all_or_nothing_iff (snapshot : PyDict R) (tombstones : List (PyObj R))
    (s : EncryptedCloudMemoryService R) :
    (∀ e, (restore snapshot tombstones s).1 = .error e → (restore snapshot tombstones s).2 = s) ↔
      (∃ e, snapshotRecords snapshot = .error e) ∨
      ((∀ entry ∈ tombstoneEntries s ++ tombstones, ∃ e, checkEntry entry = .ok e) ∧
        ∃ records restored, snapshotRecords snapshot = .ok records ∧
          checkRecords records = .ok restored) ∨
      ∀ pre k deletedAt post,
        acceptedEntries (tombstoneEntries s ++ tombstones) = pre ++ (k, deletedAt) :: post →
        k ∉ post.map Prod.fst → s.tombstones.get? k = some deletedAt := by
  cases hrecords : snapshotRecords snapshot with
  | error e =>
    refine ⟨fun _ => .inl ⟨e, rfl⟩, fun _ e' _ => ?_⟩
    unfold restore
    rw [hrecords]
  | ok records =>
    rcases restore_of_records hrecords tombstones s with
      ⟨⟨n, hok⟩, hentries, restored, hrestored⟩ | ⟨⟨e, herror⟩, hstate, hrejected⟩
    · refine ⟨fun _ => .inr (.inl ⟨hentries, records, restored, rfl, hrestored⟩), fun _ e he => ?_⟩
      rw [hok] at he
      cases he
    · rw [← Dict.setAll_eq_self_iff]
      constructor
      · intro hsame
        have hall := hsame e herror
        rw [hstate] at hall
        exact .inr (.inr (congrArg EncryptedCloudMemoryService.tombstones hall))
      · rintro (⟨e', he'⟩ | ⟨hentries, _, restored, heq, hrestored⟩ | hsame) e' -
        · cases he'
        · cases heq
          exact absurd ⟨hentries, restored, hrestored⟩ hrejected
        · rw [hstate, hsame]

/-- A snapshot with a record that is no dict. -/
def brokenSnapshot : PyDict ℚ := [(.str "records", .dict [(.str "x", .int 1)])]

/-- A tombstone for the memory at the desk. -/
def deskTombstone : PyObj ℚ := entryDict ((deskOwner, deskId), (day2026 0).zulu)

/-- The restore raises and the tombstone has been assigned. -/
theorem failed_restore_assigns_ledger :
    (restore brokenSnapshot [deskTombstone] deskWritten).1 =
        .error (.valueError "invalid encrypted backup record") ∧
      deskWritten.tombstones.contains (deskOwner, deskId) = false ∧
      (restore brokenSnapshot [deskTombstone] deskWritten).2.tombstones.contains
        (deskOwner, deskId) = true := by
  decide +kernel

end OpenMemory.Cloud
