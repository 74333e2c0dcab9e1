import OpenMemory.Cloud.EncryptedMemory

/-!
# What the operations of the Cloud memory service do

One inversion lemma for each operation: which of its assignments it has made when it is over,
whether it returned or raised (`write_cases`, `update_cases`, `rewrap_cases`, `forget_cases`,
`deleteOwner_cases`, `restore_cases`). The loops have a lemma each for what they leave.
-/

namespace OpenMemory.Cloud

open Lib

variable {R : Type} [Python R]

/-! ## Owners -/

/-- The owner of the record under an id. -/
def ownerAt (s : EncryptedCloudMemoryService R) (memoryId : String) : Option String :=
  (s.records.get? memoryId).map StoredRecord.ownerId

omit [Python R] in
/-- The service holds a record for its owner. -/
theorem holds_iff {s : EncryptedCloudMemoryService R} {ownerId memoryId : String} :
    holds s ownerId memoryId = true ↔ ownerAt s memoryId = some ownerId := by
  unfold holds ownerAt
  cases s.records.get? memoryId with
  | none => simp
  | some r => simp

omit [Python R] in
theorem holds_eq_false_iff {s : EncryptedCloudMemoryService R} {ownerId memoryId : String} :
    holds s ownerId memoryId = false ↔ ownerAt s memoryId ≠ some ownerId := by
  rw [← Bool.not_eq_true, holds_iff]

omit [Python R] in
/-- The owner of a stored record. -/
theorem ownerAt_eq_some {s : EncryptedCloudMemoryService R} {ownerId memoryId : String} :
    ownerAt s memoryId = some ownerId ↔
      ∃ r, s.records.get? memoryId = some r ∧ r.ownerId = ownerId := by
  unfold ownerAt
  rw [Option.map_eq_some_iff]

/-! ## What a write does -/

/-- The id that a write draws. -/
def drawnId (env : Environment) : String := "mem_" ++ hexOf env.uuid4

variable {encryptor : TenantEnvelopeEncryptor} {env : Environment}
  {s s' : EncryptedCloudMemoryService R}

/-- Id and owner of a new record, and its first version. -/
theorem newRecord_ok {payload : WritePayload R} {tenant : UUID} {r : StoredRecord R} {t t' : Nat}
    (h : (newRecord encryptor env s payload tenant).run t = .ok (r, t')) :
    r.id = drawnId env ∧ r.ownerId = payload.ownerId ∧
      r.fields.get "version" = some (.int 1) := by
  unfold newRecord at h
  obtain ⟨now, t₁, -, h⟩ := Txn.bind_ok.mp h
  obtain ⟨recordId, t₂, -, h⟩ := Txn.bind_ok.mp h
  obtain ⟨content, t₃, -, h⟩ := Txn.bind_ok.mp h
  obtain ⟨provenance, t₄, -, h⟩ := Txn.bind_ok.mp h
  obtain ⟨rfl, -⟩ := Txn.pure_ok.mp h
  exact ⟨rfl, rfl, rfl⟩

/-- A write leaves the state as it is or stores a new record. -/
theorem write_cases (encryptor : TenantEnvelopeEncryptor) (env : Environment)
    (payload : WritePayload R) (s : EncryptedCloudMemoryService R) :
    (write encryptor env payload s).2 = s ∨
      ∃ tenant r t, tenantOf R payload.ownerId = .ok tenant ∧
        (newRecord encryptor env s payload tenant).run 0 = .ok (r, t) ∧
        (write encryptor env payload s).2 =
          stored s payload.ownerId payload.idempotencyKey r := by
  unfold write
  cases htenant : tenantOf R payload.ownerId with
  | error e => exact .inl rfl
  | ok tenant =>
    dsimp only
    cases hkey : (s.writeKeys.get? (payload.ownerId, payload.idempotencyKey)).filter
        (fun existing => decide (existing ≠ "")) with
    | some existing =>
      dsimp only
      cases s.records.get? existing with
      | none => exact .inl rfl
      | some r => exact .inl rfl
    | none =>
      dsimp only
      cases hnew : (newRecord encryptor env s payload tenant).run 0 with
      | error e => exact .inl rfl
      | ok p => exact .inr ⟨tenant, p.1, p.2, rfl, hnew, rfl⟩

/-! ## What an update does -/

/-- A record that keeps its id and its owner. -/
def SameOwner (r r' : StoredRecord R) : Prop := r'.id = r.id ∧ r'.ownerId = r.ownerId

omit [Python R] in
theorem SameOwner.trans {r r' r'' : StoredRecord R} (h : SameOwner r r') (h' : SameOwner r' r'') :
    SameOwner r r'' :=
  ⟨h'.1.trans h.1, h'.2.trans h.2⟩

omit [Python R] in
/-- Setting a patched field touches neither id nor owner. -/
theorem sameOwner_patchField (key : String) (h : PyKey.str key ∉ ownKeys)
    (value : Option (PyObj R)) (r : StoredRecord R) : SameOwner r (patchField key h value r) := by
  cases value <;> exact ⟨rfl, rfl⟩

omit [Python R] in
/-- Nor do all of them. -/
theorem sameOwner_patchFields (patch : CloudPatch R) (r : StoredRecord R) :
    SameOwner r (patchFields patch r) := by
  unfold patchFields
  refine SameOwner.trans ?_ (sameOwner_patchField _ _ _ _)
  refine SameOwner.trans ?_ (sameOwner_patchField _ _ _ _)
  refine SameOwner.trans ?_ (sameOwner_patchField _ _ _ _)
  refine SameOwner.trans ?_ (sameOwner_patchField _ _ _ _)
  exact sameOwner_patchField _ _ _ _

/-- Nor does new content. -/
theorem sameOwner_patchContent {payload : UpdatePayload R} {r r' : StoredRecord R} {t t' : Nat}
    (h : (patchContent encryptor env s payload r).run t = .ok (r', t')) : SameOwner r r' := by
  unfold patchContent at h
  obtain ⟨⟨tenant, recordId⟩, t₁, -, h⟩ := Txn.bind_ok.mp h
  dsimp only at h
  cases hcontent : payload.patch.content with
  | none =>
    rw [hcontent] at h
    obtain ⟨rfl, -⟩ := Txn.pure_ok.mp h
    exact ⟨rfl, rfl⟩
  | some content =>
    rw [hcontent] at h
    obtain ⟨value, t₂, -, h⟩ := Txn.bind_ok.mp h
    obtain ⟨rfl, -⟩ := Txn.pure_ok.mp h
    exact ⟨rfl, rfl⟩

/-- What a bumped record needs and gets. -/
theorem bumpVersion_ok {r r' : StoredRecord R} (h : bumpVersion r = .ok r') :
    ∃ version next, r.fields.get "version" = some version ∧ version.succ = .ok next ∧
      r' = r.setField "version" next (by decide) := by
  unfold bumpVersion at h
  cases hversion : r.fields.get "version" with
  | none =>
    rw [hversion] at h
    cases h
  | some version =>
    rw [hversion] at h
    dsimp only at h
    cases hnext : version.succ with
    | error e =>
      rw [hnext] at h
      cases h
    | ok next =>
      rw [hnext] at h
      cases h
      exact ⟨version, next, rfl, hnext, rfl⟩

/-- An update leaves the state as it is, or has replaced a record by one of the same owner; only a
failure at the version keeps the vector. -/
theorem update_cases (encryptor : TenantEnvelopeEncryptor) (env : Environment)
    (payload : UpdatePayload R) (s : EncryptedCloudMemoryService R) :
    (update encryptor env payload s).2 = s ∨
      ∃ r r', s.records.get? payload.id = some r ∧ SameOwner r r' ∧
        ((update encryptor env payload s).2 = putRecord s payload.id r' ∨
          (update encryptor env payload s).2 = amended s payload.id r') := by
  unfold update
  cases hr : s.records.get? payload.id with
  | none => exact .inl rfl
  | some r =>
    dsimp only
    cases hpatch : (patchContent encryptor env s payload r).run 0 with
    | error e => exact .inl rfl
    | ok p =>
      obtain ⟨r₁, t⟩ := p
      dsimp only
      have hsame := (sameOwner_patchContent hpatch).trans
        (sameOwner_patchFields payload.patch r₁)
      cases hbump : bumpVersion (patchFields payload.patch r₁) with
      | error e => exact .inr ⟨r, _, rfl, hsame, .inl rfl⟩
      | ok r₂ =>
        obtain ⟨version, next, -, -, rfl⟩ := bumpVersion_ok hbump
        let r₃ := touch (env.now t).zulu ((patchFields payload.patch r₁).setField "version" next (by decide))
        exact .inr ⟨r, r₃, rfl, hsame.trans ⟨rfl, rfl⟩, .inr rfl⟩

/-! ## What a rewrap does -/

/-- A field at the version is left alone; every other one is rewrapped once. -/
theorem rewrapField_ok {version : Int} {tenantId recordId : UUID} {field : String}
    {current rotated : LooseEnvelope R} {n t t' : Nat}
    (h : (rewrapField encryptor env version tenantId recordId field current).run t =
      .ok ((rotated, n), t')) :
    (current.keyVersion.eqInt version = true ∧ rotated = current ∧ n = 0 ∧ t' = t) ∨
      current.keyVersion.eqInt version = false ∧ n = 1 ∧
        ∃ value value', current.typed = some value ∧
          (encryptor.rewrap env tenantId recordId field value version).run t = .ok (value', t') ∧
          rotated = cipher value' := by
  unfold rewrapField at h
  by_cases hversion : current.keyVersion.eqInt version = true
  · rw [if_pos hversion] at h
    obtain ⟨heq, rfl⟩ := Txn.pure_ok.mp h
    obtain ⟨rfl, rfl⟩ := Prod.mk.injEq _ _ _ _ ▸ heq
    exact .inl ⟨hversion, rfl, rfl, rfl⟩
  · rw [if_neg hversion] at h
    cases htyped : current.typed with
    | none =>
      rw [htyped] at h
      cases h
    | some value =>
      rw [htyped] at h
      obtain ⟨value', t₁, hrewrap, h⟩ := Txn.bind_ok.mp h
      obtain ⟨heq, rfl⟩ := Txn.pure_ok.mp h
      obtain ⟨rfl, rfl⟩ := Prod.mk.injEq _ _ _ _ ▸ heq
      exact .inr ⟨by simpa using hversion, rfl, value, value', rfl, hrewrap, rfl⟩

/-- A rewrapped record: the two envelopes are rewrapped, the rest stays. -/
theorem rewrapRecord_ok {version : Int} {r r' : StoredRecord R} {n t t' : Nat}
    (h : (rewrapRecord encryptor env version r).run t = .ok ((r', n), t')) :
    ∃ tenant recordId content provenance n₁ n₂ t₁,
      tenantOf R r.ownerId = .ok tenant ∧ recordIdOf R r.id = .ok recordId ∧
      (rewrapField encryptor env version tenant recordId "content" r.contentCiphertext).run t =
        .ok ((content, n₁), t₁) ∧
      (rewrapField encryptor env version tenant recordId "provenance" r.provenanceCiphertext).run
        t₁ = .ok ((provenance, n₂), t') ∧
      r' = { r with contentCiphertext := content, provenanceCiphertext := provenance } ∧
      n = n₁ + n₂ := by
  unfold rewrapRecord at h
  obtain ⟨tenant, t₁, h₁, h₂⟩ := Txn.bind_ok.mp h
  obtain ⟨htenant, rfl⟩ := Txn.ofExcept_ok.mp h₁
  obtain ⟨recordId, t₂, h₃, h₄⟩ := Txn.bind_ok.mp h₂
  obtain ⟨hid, rfl⟩ := Txn.ofExcept_ok.mp h₃
  obtain ⟨⟨content, n₁⟩, t₃, hcontent, h₅⟩ := Txn.bind_ok.mp h₄
  obtain ⟨⟨provenance, n₂⟩, t₄, hprovenance, h₆⟩ := Txn.bind_ok.mp h₅
  obtain ⟨heq, rfl⟩ := Txn.pure_ok.mp h₆
  obtain ⟨rfl, rfl⟩ := Prod.mk.injEq _ _ _ _ ▸ heq
  exact ⟨tenant, recordId, content, provenance, n₁, n₂, _, htenant, hid, hcontent, hprovenance,
    rfl, rfl⟩

/-- Every record of the first loop was rewrapped at its own ticks. -/
theorem rewrapRecords_ok {version : Int} {items pending : List (String × StoredRecord R)}
    {n t t' : Nat}
    (h : (rewrapRecords encryptor env version items).run t = .ok ((pending, n), t')) :
    List.Forall₂ (fun e e' => e'.1 = e.1 ∧ ∃ k u u',
      (rewrapRecord encryptor env version e.2).run u = .ok ((e'.2, k), u')) items pending := by
  induction items generalizing pending n t t' with
  | nil =>
    obtain ⟨heq, -⟩ := Txn.pure_ok.mp h
    obtain ⟨rfl, -⟩ := Prod.mk.injEq _ _ _ _ ▸ heq
    exact .nil
  | cons e rest ih =>
    obtain ⟨⟨r', k⟩, t₁, hhead, h⟩ := Txn.bind_ok.mp h
    obtain ⟨⟨more, m⟩, t₂, hrest, h⟩ := Txn.bind_ok.mp h
    obtain ⟨heq, -⟩ := Txn.pure_ok.mp h
    obtain ⟨rfl, -⟩ := Prod.mk.injEq _ _ _ _ ▸ heq
    exact .cons ⟨rfl, k, t, t₁, hhead⟩ (ih hrest)

/-- A rewrap leaves the state as it is or rewraps every record. -/
theorem rewrap_cases (encryptor : TenantEnvelopeEncryptor) (env : Environment) (version : Int)
    (s : EncryptedCloudMemoryService R) :
    (∃ e, (rewrap encryptor env version s).1 = .error e) ∧
        (rewrap encryptor env version s).2 = s ∨
      ∃ pending n t, 1 ≤ version ∧ s.keyVersion ≤ version ∧
        (rewrapRecords encryptor env version s.records.items).run 0 = .ok ((pending, n), t) ∧
        rewrap encryptor env version s =
          (.ok n, { s with records := applyPending s.records pending, keyVersion := version }) := by
  unfold rewrap
  by_cases hversion : version < 1 ∨ version < s.keyVersion
  · rw [if_pos hversion]
    exact .inl ⟨⟨_, rfl⟩, rfl⟩
  · rw [if_neg hversion]
    cases hpending : (rewrapRecords encryptor env version s.records.items).run 0 with
    | error e => exact .inl ⟨⟨e, rfl⟩, rfl⟩
    | ok p =>
      obtain ⟨⟨pending, n⟩, t⟩ := p
      exact .inr ⟨pending, n, t, by omega, by omega, rfl, rfl⟩

/-- The records after a rewrap. -/
theorem get?_applyPending {version : Int} {pending : List (String × StoredRecord R)} {n t : Nat}
    (h : (rewrapRecords encryptor env version s.records.items).run 0 = .ok ((pending, n), t))
    {i : String} {r : StoredRecord R} (hr : s.records.get? i = some r) :
    ∃ r' k u u', (applyPending s.records pending).get? i = some r' ∧
      (rewrapRecord encryptor env version r).run u = .ok ((r', k), u') := by
  obtain ⟨r', hlookup, k, u, u', hrewrap⟩ := Dict.lookup_of_forall₂ (p := fun r r' => ∃ k u u',
    (rewrapRecord encryptor env version r).run u = .ok ((r', k), u')) (rewrapRecords_ok h) hr
  refine ⟨r', k, u, u', ?_, hrewrap⟩
  unfold applyPending
  rw [Dict.get?_mapValues, hr, hlookup]
  rfl

/-! ## What a deletion does -/

omit [Python R] in
/-- What a forget does; only its last case is `forgotten`. -/
theorem forget_cases (env : Environment) (ownerId memoryId : String)
    (s : EncryptedCloudMemoryService R) :
    ((ownerId, memoryId) ∈ s.forgetKeys ∧ forget env ownerId memoryId s = (false, s)) ∨
      ((ownerId, memoryId) ∉ s.forgetKeys ∧ holds s ownerId memoryId = false ∧
        forget env ownerId memoryId s =
          (false, { s with forgetKeys := insert (ownerId, memoryId) s.forgetKeys })) ∨
      ((ownerId, memoryId) ∉ s.forgetKeys ∧ holds s ownerId memoryId = true ∧
        forget env ownerId memoryId s = (true, bury s ownerId memoryId (env.now 0).zulu)) := by
  unfold forget
  by_cases hkey : (ownerId, memoryId) ∈ s.forgetKeys
  · exact .inl ⟨hkey, if_pos hkey⟩
  · rw [if_neg hkey]
    cases hholds : holds s ownerId memoryId with
    | false => exact .inr (.inl ⟨hkey, rfl, rfl⟩)
    | true => exact .inr (.inr ⟨hkey, rfl, rfl⟩)

omit [Python R] in
/-- Burying a record takes it away and leaves the others. -/
theorem get?_bury (s : EncryptedCloudMemoryService R) (o i at_ j : String) :
    (bury s o i at_).records.get? j = if j = i then none else s.records.get? j :=
  Dict.get?_pop _ _ _

omit [Python R] in
/-- So does burying several. -/
theorem get?_buryAll (o : String) (ids : List String) (t : Nat)
    (s : EncryptedCloudMemoryService R) (j : String) :
    (buryAll env o ids t s).records.get? j = if j ∈ ids then none else s.records.get? j := by
  induction ids generalizing t s with
  | nil => rfl
  | cons i rest ih =>
    unfold buryAll
    rw [ih, get?_bury]
    by_cases hj : j = i
    · simp [hj]
    · simp [hj]

omit [Python R] in
/-- The tombstones after the loop: the old ones, and one for each id. -/
theorem get?_tombstones_buryAll (env : Environment) (o : String) (ids : List String) (t : Nat)
    (s : EncryptedCloudMemoryService R) (k : String × String) :
    (∃ u, (buryAll env o ids t s).tombstones.get? k = some (env.now u).zulu ∧
        k.1 = o ∧ k.2 ∈ ids) ∨
      (buryAll env o ids t s).tombstones.get? k = s.tombstones.get? k ∧ ¬ (k.1 = o ∧ k.2 ∈ ids) := by
  induction ids generalizing t s with
  | nil =>
    refine .inr ⟨rfl, ?_⟩
    rintro ⟨-, hmem⟩
    cases hmem
  | cons i rest ih =>
    unfold buryAll
    rcases ih (t + 1) (bury s o i (env.now t).zulu) with ⟨u, hu, ho, hmem⟩ | ⟨hold, hnot⟩
    · exact .inl ⟨u, hu, ho, List.mem_cons_of_mem _ hmem⟩
    · have hbury : (bury s o i (env.now t).zulu).tombstones =
          s.tombstones.set (o, i) (env.now t).zulu := rfl
      rw [hbury] at hold
      rw [hold]
      by_cases hk : k = (o, i)
      · subst hk
        exact .inl ⟨t, Dict.get?_set_self _ _ _, rfl, List.mem_cons_self⟩
      · refine .inr ⟨Dict.get?_set_of_ne _ _ hk, ?_⟩
        rintro ⟨rfl, hmem⟩
        rcases List.mem_cons.mp hmem with rfl | hrest
        · exact hk rfl
        · exact hnot ⟨rfl, hrest⟩

omit [Python R] in
/-- The write keys stay. -/
theorem writeKeys_buryAll (o : String) (ids : List String) (t : Nat)
    (s : EncryptedCloudMemoryService R) : (buryAll env o ids t s).writeKeys = s.writeKeys := by
  induction ids generalizing t s with
  | nil => rfl
  | cons i rest ih =>
    unfold buryAll
    rw [ih]
    rfl

omit [Python R] in
theorem mem_idsOf {o i : String} : i ∈ idsOf s o ↔ ownerAt s i = some o := by
  unfold idsOf Dict.keys
  constructor
  · intro h
    obtain ⟨⟨_, r⟩, hmem, rfl⟩ := List.mem_map.mp h
    have hr := Dict.get?_filter_eq_some.mp ((Dict.mem_items_iff _ _ _).mp hmem)
    exact ownerAt_eq_some.mpr ⟨r, hr.1, of_decide_eq_true hr.2⟩
  · intro h
    obtain ⟨r, hr, ho⟩ := ownerAt_eq_some.mp h
    have hmem := (Dict.mem_items_iff _ _ _).mpr
      (Dict.get?_filter_eq_some (p := fun _ r => decide (r.ownerId = o)).mpr
        ⟨hr, decide_eq_true ho⟩)
    exact List.mem_map_of_mem hmem

/-- A deletion is refused or removes the owner's records and write keys. -/
theorem deleteOwner_cases (env : Environment) (o : String) (s : EncryptedCloudMemoryService R) :
    (∃ e, tenantOf R o = .error e ∧ deleteOwner env o s = (.error e, s)) ∨
      ∃ tenant, tenantOf R o = .ok tenant ∧
        deleteOwner env o s =
          (.ok (idsOf s o).length,
            { buryAll env o (idsOf s o) 0 s with
              writeKeys := s.writeKeys.filter fun key _ => decide (key.1 ≠ o) }) := by
  unfold deleteOwner
  cases htenant : tenantOf R o with
  | error e => exact .inl ⟨e, rfl, rfl⟩
  | ok tenant =>
    refine .inr ⟨tenant, rfl, ?_⟩
    dsimp only
    rw [writeKeys_buryAll]

/-! ## What a restore does -/

/-- The ledger loop keeps what is there and adds entries that passed their checks. -/
theorem applyLedger_get? (entries : List (PyObj R)) (d : Dict (String × String) String)
    (k : String × String) :
    (applyLedger entries d).2.get? k = d.get? k ∨
      ∃ entry ∈ entries, ∃ at_, checkEntry entry = .ok (k, at_) ∧
        (applyLedger entries d).2.get? k = some at_ := by
  induction entries generalizing d with
  | nil => exact .inl rfl
  | cons entry rest ih =>
    unfold applyLedger
    cases hentry : checkEntry entry with
    | error e => exact .inl rfl
    | ok p =>
      obtain ⟨key, at_⟩ := p
      dsimp only
      rcases ih (d.set key at_) with hold | ⟨entry', hmem, at', hok, hget⟩
      · rw [hold]
        by_cases hk : k = key
        · subst hk
          exact .inr ⟨entry, List.mem_cons_self, at_, hentry, Dict.get?_set_self _ _ _⟩
        · exact .inl (Dict.get?_set_of_ne _ _ hk)
      · exact .inr ⟨entry', List.mem_cons_of_mem _ hmem, at', hok, hget⟩

/-- Merging a ledger loses no tombstone. -/
theorem contains_applyLedger (entries : List (PyObj R)) {d : Dict (String × String) String}
    {k : String × String} (h : d.contains k = true) :
    (applyLedger entries d).2.contains k = true := by
  rcases applyLedger_get? entries d k with hold | ⟨_, _, at_, _, hget⟩
  · unfold Dict.contains at h ⊢
    rw [hold]
    exact h
  · unfold Dict.contains
    rw [hget]
    rfl

/-- A record that passed its checks is under its own id and has a valid owner. -/
theorem checkRecord_ok {key : PyKey} {record : PyObj R} {r : StoredRecord R}
    (h : checkRecord key record = .ok r) :
    key = .str r.id ∧ ∃ tenant, tenantOf R r.ownerId = .ok tenant := by
  unfold checkRecord at h
  split at h
  · rename_i memoryId fields
    cases howner : PyDict.getText fields "owner_id" with
    | none =>
      rw [howner] at h
      cases h
    | some o =>
      rw [howner] at h
      dsimp only at h
      cases htenant : tenantOf R o with
      | error e =>
        rw [htenant] at h
        cases h
      | ok tenant =>
        rw [htenant] at h
        dsimp only at h
        by_cases hid : PyDict.getText fields "id" ≠ some memoryId
        · rw [if_pos hid] at h
          cases h
        · rw [if_neg hid] at h
          obtain ⟨content, -, h₁⟩ := except_bind_ok.mp h
          obtain ⟨provenance, -, h₂⟩ := except_bind_ok.mp h₁
          cases h₂
          exact ⟨rfl, tenant, htenant⟩
  · cases h

/-- A restored record comes from an entry of the snapshot that passes the check. -/
theorem mem_of_checkRecords {records : PyDict R} {restored : List (StoredRecord R)}
    (h : checkRecords records = .ok restored) {r : StoredRecord R} (hr : r ∈ restored) :
    ∃ e ∈ records, checkRecord e.1 e.2 = .ok r := by
  induction records generalizing restored with
  | nil =>
    cases h
    cases hr
  | cons e rest ih =>
    unfold checkRecords at h
    obtain ⟨r₀, hhead, h₁⟩ := except_bind_ok.mp h
    obtain ⟨more, hmore, h₂⟩ := except_bind_ok.mp h₁
    cases h₂
    rcases List.mem_cons.mp hr with rfl | hrest
    · exact ⟨e, List.mem_cons_self, hhead⟩
    · obtain ⟨e', hmem, hok⟩ := ih hmore hrest
      exact ⟨e', List.mem_cons_of_mem _ hmem, hok⟩

omit [Python R] in
/-- A record found under an id is one of the list. -/
theorem get?_byId {records : List (StoredRecord R)} {i : String} {r : StoredRecord R}
    (h : (byId records).get? i = some r) : r ∈ records ∧ r.id = i := by
  have hfold : ∀ (l : List (StoredRecord R)) (d : Dict String (StoredRecord R)),
      (l.foldl (fun d r => d.set r.id r) d).get? i = some r →
        (r ∈ l ∧ r.id = i) ∨ d.get? i = some r := by
    intro l
    induction l with
    | nil => exact fun d hd => .inr hd
    | cons r₀ rest ih =>
      intro d hd
      rcases ih _ hd with ⟨hmem, hid⟩ | hold
      · exact .inl ⟨List.mem_cons_of_mem _ hmem, hid⟩
      · rw [Dict.get?_set] at hold
        by_cases hi : i = r₀.id
        · rw [if_pos hi] at hold
          cases hold
          exact .inl ⟨List.mem_cons_self, hi.symm⟩
        · rw [if_neg hi] at hold
          exact .inr hold
  rcases hfold records ∅ h with hmem | hnone
  · exact hmem
  · cases hnone

/-- A restore is refused outright, or changes the ledger only, or installs its records. -/
theorem restore_cases (snapshot : PyDict R) (tombstones : List (PyObj R))
    (s : EncryptedCloudMemoryService R) :
    (∃ e, snapshotRecords snapshot = .error e ∧ restore snapshot tombstones s = (.error e, s)) ∨
      (∃ e, restore snapshot tombstones s = (.error e, { s with
        tombstones := (applyLedger (tombstoneEntries s ++ tombstones) s.tombstones).2 })) ∨
      ∃ records restored, snapshotRecords snapshot = .ok records ∧
        checkRecords records = .ok restored ∧
        restore snapshot tombstones s =
          (.ok (install s (applyLedger (tombstoneEntries s ++ tombstones) s.tombstones).2
              (byId restored)).records.items.length,
            install s (applyLedger (tombstoneEntries s ++ tombstones) s.tombstones).2
              (byId restored)) := by
  unfold restore
  cases hrecords : snapshotRecords snapshot with
  | error e => exact .inl ⟨e, rfl, rfl⟩
  | ok records =>
    dsimp only
    cases hledger : applyLedger (tombstoneEntries s ++ tombstones) s.tombstones with
    | mk outcome ledger =>
      cases outcome with
      | error e => exact .inr (.inl ⟨e, rfl⟩)
      | ok u =>
        dsimp only
        cases hrestored : checkRecords records with
        | error e => exact .inr (.inl ⟨e, rfl⟩)
        | ok restored => exact .inr (.inr ⟨records, restored, rfl, hrestored, rfl⟩)

/-- What `restore` installs: records of the snapshot that no tombstone names. -/
theorem get?_install {ledger : Dict (String × String) String} {d : Dict String (StoredRecord R)}
    {i : String} {r : StoredRecord R} :
    (install s ledger d).records.get? i = some r ↔
      d.get? i = some r ∧ ledger.contains (r.ownerId, i) = false := by
  unfold install
  dsimp only
  rw [Dict.get?_filter_eq_some, Bool.not_eq_true']

end OpenMemory.Cloud
