import OpenMemory.Cloud.Rewrap

/-!
# KMS failures

`write` and `update` end with a reading of the record they have just stored, and that reading asks
the KMS for two keys. A failure there makes the call raise although it has done its work; `rewrap`
collects its pending writes first and has no such window.

A write asks for keys at ticks 3 and 6 (to wrap) and 7 and 8 (to unwrap). An update that changes the
content asks at ticks 2, 4 and 5, another at ticks 1 and 2. For each the theorem
`kms_failures_iff` says exactly when raising leaves records, write keys, vectors and key version as
they were.
-/

namespace OpenMemory.Cloud

open Lib

variable {R : Type} [Python R]

variable {encryptor : TenantEnvelopeEncryptor} {env : Environment}
  {s s' : EncryptedCloudMemoryService R}

/-- Records, write keys, vectors and key version are as they were. -/
structure Unchanged (s s' : EncryptedCloudMemoryService R) : Prop where
  records : s'.records = s.records
  writeKeys : s'.writeKeys = s.writeKeys
  embeddings : s'.embeddings = s.embeddings
  keyVersion : s'.keyVersion = s.keyVersion

omit [Python R] in
theorem Unchanged.of_eq (h : s' = s) : Unchanged s s' := by
  subst h
  exact ⟨rfl, rfl, rfl, rfl⟩

/-- The KMS wraps a key at a tick. -/
def AnswersWrap (encryptor : TenantEnvelopeEncryptor) (env : Environment) (t : Nat) (tenant : UUID)
    (version : Int) (dek : Bytes) : Prop :=
  env.kmsFails t = false ∧ ∃ wrapped,
    encryptor.kms.wrap (env.urandom t) tenant version dek = .ok wrapped

/-- An encryption of a good field whose key the KMS wraps. -/
theorem encrypt_of {tenant record : UUID} {field plaintext : String} {version : Int} {t : Nat}
    {wrapped : Bytes} (hfield : field ≠ "" ∧ '/' ∉ field.toList) (hversion : 1 ≤ version)
    (hkms : env.kmsFails (t + 2) = false)
    (hwrap : encryptor.kms.wrap (env.urandom (t + 2)) tenant version (env.urandom t 32) =
      .ok wrapped) :
    (encryptor.encrypt env tenant record field plaintext version).run t =
      .ok (encryptor.envelopeOf env t tenant record field plaintext version wrapped, t + 3) := by
  have hgood : ¬ (version < 1 ∨ field = "" ∨ '/' ∈ field.toList) := by
    rintro (h | h | h)
    · omega
    · exact hfield.1 h
    · exact hfield.2 h
  unfold TenantEnvelopeEncryptor.encrypt
  rw [if_neg hgood]
  refine Txn.bind_ok.mpr ⟨env.urandom t 32, t + 1, rfl, ?_⟩
  refine Txn.bind_ok.mpr ⟨env.urandom (t + 1) 12, t + 2, rfl, ?_⟩
  refine Txn.bind_ok.mpr ⟨wrapped, t + 3, ?_, Txn.pure_ok.mpr ⟨rfl, rfl⟩⟩
  show (if env.kmsFails (t + 2) = true then _ else _) = _
  rw [hkms, if_neg Bool.false_ne_true, hwrap]

/-! ## Reading -/

/-- What a record needs to be read while the KMS answers. -/
theorem exists_readsAs_iff {r : StoredRecord R} :
    (∃ m, ReadsAs encryptor r m) ↔
      ∃ tenant recordId, tenantOf R r.ownerId = .ok tenant ∧ recordIdOf R r.id = .ok recordId ∧
        (openField encryptor tenant recordId "content" r.contentCiphertext).isSome ∧
        ∃ text, openField encryptor tenant recordId "provenance" r.provenanceCiphertext = some text ∧
          (JsonValue.loads text).isSome := by
  constructor
  · rintro ⟨m, ⟨tenant, recordId, text, htenant, hid, hcontent, htext, hloads⟩, -⟩
    refine ⟨tenant, recordId, htenant, hid, by rw [hcontent]; rfl, text, htext, ?_⟩
    unfold loadsProvenance at hloads
    cases hvalue : JsonValue.loads text with
    | none =>
      rw [hvalue] at hloads
      cases hloads
    | some value => rfl
  · rintro ⟨tenant, recordId, htenant, hid, hcontent, text, htext, hloads⟩
    obtain ⟨content, hcontent⟩ := Option.isSome_iff_exists.mp hcontent
    obtain ⟨value, hvalue⟩ := Option.isSome_iff_exists.mp hloads
    refine ⟨⟨r.id, r.ownerId, r.fields, content, value⟩,
      ⟨tenant, recordId, text, htenant, hid, hcontent, htext, ?_⟩, rfl, rfl, rfl⟩
    unfold loadsProvenance
    rw [hvalue]

/-- A reading raises exactly when it does not succeed. -/
theorem readAt_error_iff {r : StoredRecord R} {t : Nat} :
    (∃ e, readAt encryptor env r t = .error e) ↔
      ¬ (env.kmsFails t = false ∧ env.kmsFails (t + 1) = false ∧ ∃ m, ReadsAs encryptor r m) := by
  constructor
  · rintro ⟨e, he⟩ ⟨hkms, hkms', m, hm⟩
    rw [readAt_ok_iff.mpr ⟨hkms, hkms', hm⟩] at he
    cases he
  · intro h
    cases hread : readAt encryptor env r t with
    | error e => exact ⟨e, rfl⟩
    | ok m =>
      obtain ⟨hkms, hkms', hm⟩ := readAt_ok_iff.mp hread
      exact absurd ⟨hkms, hkms', m, hm⟩ h

/-- When a record whose tenant and id are known is read. -/
theorem exists_readAt_iff {r : StoredRecord R} {tenant recordId : UUID} {t : Nat}
    (htenant : tenantOf R r.ownerId = .ok tenant) (hid : recordIdOf R r.id = .ok recordId) :
    (∃ m, readAt encryptor env r t = .ok m) ↔
      env.kmsFails t = false ∧ env.kmsFails (t + 1) = false ∧
        (openField encryptor tenant recordId "content" r.contentCiphertext).isSome ∧
        ∃ text, openField encryptor tenant recordId "provenance" r.provenanceCiphertext = some text ∧
          (JsonValue.loads text).isSome := by
  constructor
  · rintro ⟨m, hm⟩
    obtain ⟨hkms, hkms', hreads⟩ := readAt_ok_iff.mp hm
    obtain ⟨tenant', recordId', htenant', hid', hparts⟩ := exists_readsAs_iff.mp ⟨m, hreads⟩
    rw [htenant] at htenant'
    cases htenant'
    rw [hid] at hid'
    cases hid'
    exact ⟨hkms, hkms', hparts⟩
  · rintro ⟨hkms, hkms', hparts⟩
    obtain ⟨m, hm⟩ := exists_readsAs_iff.mpr ⟨tenant, recordId, htenant, hid, hparts⟩
    exact ⟨m, readAt_ok_iff.mpr ⟨hkms, hkms', hm⟩⟩

/-! ## Writing -/

/-- The write stores a record: its owner is valid, its key is not taken, and both keys are
wrapped. -/
def Stores (encryptor : TenantEnvelopeEncryptor) (env : Environment) (payload : WritePayload R)
    (s : EncryptedCloudMemoryService R) : Prop :=
  ∃ tenant recordId, tenantOf R payload.ownerId = .ok tenant ∧
    (s.writeKeys.get? (payload.ownerId, payload.idempotencyKey)).filter
      (fun existing => decide (existing ≠ "")) = none ∧
    recordIdOf R (drawnId env) = .ok recordId ∧ 1 ≤ s.keyVersion ∧
    AnswersWrap encryptor env 3 tenant s.keyVersion (env.urandom 1 32) ∧
    AnswersWrap encryptor env 6 tenant s.keyVersion (env.urandom 4 32)

/-- Both keys of the final reading are unwrapped, and the provenance parses. -/
def WriteReadsBack (env : Environment) (payload : WritePayload R) : Prop :=
  env.kmsFails 7 = false ∧ env.kmsFails 8 = false ∧
    (JsonValue.loads payload.provenance.dumps).isSome

theorem clock_ok {now : String} {t t' : Nat} (h : (clock env).run t = .ok (now, t')) :
    t' = t + 1 := by
  change Except.ok ((env.now t).zulu, t + 1) = Except.ok (now, t') at h
  exact (Prod.mk.inj (Except.ok.inj h)).2.symm

/-- A record that a write has to store: what it needed, and when it reads back. -/
theorem newRecord_needs (hlaw : encryptor.Lawful) {payload : WritePayload R} {tenant : UUID}
    (htenant : tenantOf R payload.ownerId = .ok tenant) {r : StoredRecord R} {t : Nat}
    (h : (newRecord encryptor env s payload tenant).run 0 = .ok (r, t)) :
    t = 7 ∧ (∃ recordId, recordIdOf R (drawnId env) = .ok recordId) ∧ 1 ≤ s.keyVersion ∧
      AnswersWrap encryptor env 3 tenant s.keyVersion (env.urandom 1 32) ∧
      AnswersWrap encryptor env 6 tenant s.keyVersion (env.urandom 4 32) ∧
      ((∃ m, ReadsAs encryptor r m) ↔ (JsonValue.loads payload.provenance.dumps).isSome) := by
  unfold newRecord at h
  obtain ⟨now, t₁, hnow, h₁⟩ := Txn.bind_ok.mp h
  obtain rfl := clock_ok hnow
  obtain ⟨recordId, t₂, hdrawn, h₂⟩ := Txn.bind_ok.mp h₁
  obtain ⟨hid, rfl⟩ := Txn.ofExcept_ok.mp hdrawn
  obtain ⟨content, t₃, hcontent, h₃⟩ := Txn.bind_ok.mp h₂
  obtain ⟨provenance, t₄, hprovenance, h₄⟩ := Txn.bind_ok.mp h₃
  obtain ⟨rfl, rfl⟩ := Txn.pure_ok.mp h₄
  obtain ⟨hversion, rfl, hkms, wrapped, hwrap, -⟩ := encrypt_ok hcontent
  obtain ⟨-, rfl, hkms', wrapped', hwrap', -⟩ := encrypt_ok hprovenance
  refine ⟨rfl, ⟨recordId, hid⟩, hversion, ⟨hkms, wrapped, hwrap⟩, ⟨hkms', wrapped', hwrap'⟩, ?_⟩
  -- what was encrypted opens again
  have hopen := open_encrypt hlaw hcontent
  have hopen' := open_encrypt hlaw hprovenance
  rw [exists_readsAs_iff]
  constructor
  -- so the record reads exactly when its provenance is JSON
  · rintro ⟨tenant', recordId', htenant', hid', -, text, htext, hloads⟩
    dsimp only at htenant' hid'
    rw [htenant] at htenant'
    cases htenant'
    have hrecord : recordId' = recordId := Except.ok.inj (hid'.symm.trans hid)
    subst hrecord
    have hsame : some payload.provenance.dumps = some text := hopen'.symm.trans htext
    rw [Option.some.inj hsame]
    exact hloads
  -- and then it reads as the text that was encrypted
  · intro hloads
    exact ⟨tenant, recordId, htenant, hid, Option.isSome_iff_exists.mpr ⟨_, hopen⟩, _, hopen',
      hloads⟩

/-- What it needed is enough. -/
theorem newRecord_of (payload : WritePayload R) {tenant recordId : UUID}
    (hid : recordIdOf R (drawnId env) = .ok recordId) (hversion : 1 ≤ s.keyVersion)
    (hwrap : AnswersWrap encryptor env 3 tenant s.keyVersion (env.urandom 1 32))
    (hwrap' : AnswersWrap encryptor env 6 tenant s.keyVersion (env.urandom 4 32)) :
    ∃ r, (newRecord encryptor env s payload tenant).run 0 = .ok (r, 7) := by
  obtain ⟨hkms, wrapped, hwrapped⟩ := hwrap
  obtain ⟨hkms', wrapped', hwrapped'⟩ := hwrap'
  have hnow : (clock env).run 0 = .ok ((env.now 0).zulu, 1) := rfl
  have hdrawn : (MonadExcept.ofExcept (recordIdOf R ("mem_" ++ hexOf env.uuid4)) :
      Observing UUID).run 1 = .ok (recordId, 1) := Txn.ofExcept_ok.mpr ⟨hid, rfl⟩
  unfold newRecord
  rw [Txn.run_bind_of_ok hnow, Txn.run_bind_of_ok hdrawn,
    Txn.run_bind_of_ok (encrypt_of (by decide) hversion hkms hwrapped),
    Txn.run_bind_of_ok (encrypt_of (by decide) hversion hkms' hwrapped')]
  exact ⟨_, rfl⟩

/-- A write that raises has changed nothing exactly when it stores nothing or its record reads
back. -/
theorem write_unchanged_iff (hlaw : encryptor.Lawful) {payload : WritePayload R}
    (hfresh : s.records.get? (drawnId env) = none) :
    (∀ e, (write encryptor env payload s).1 = .error e →
        Unchanged s (write encryptor env payload s).2) ↔
      (Stores encryptor env payload s → WriteReadsBack env payload) := by
  -- where nothing is stored, nothing changes
  have hquiet : (write encryptor env payload s).2 = s → ¬ Stores encryptor env payload s →
      ((∀ e, (write encryptor env payload s).1 = .error e →
          Unchanged s (write encryptor env payload s).2) ↔
        (Stores encryptor env payload s → WriteReadsBack env payload)) :=
    fun hsame hnot => ⟨fun _ h => absurd h hnot, fun _ _ _ => .of_eq hsame⟩
  -- the owner binding fails
  cases htenant : tenantOf R payload.ownerId with
  | error e =>
    refine hquiet ?_ ?_
    · unfold write
      rw [htenant]
    · rintro ⟨tenant, recordId, hok, -⟩
      rw [htenant] at hok
      cases hok
  | ok tenant =>
    cases hkey : (s.writeKeys.get? (payload.ownerId, payload.idempotencyKey)).filter
        (fun existing => decide (existing ≠ "")) with
    -- the key is used: the answer is the record that it points to
    | some existing =>
      refine hquiet ?_ ?_
      · unfold write
        rw [htenant, hkey]
        dsimp only
        cases s.records.get? existing <;> rfl
      · rintro ⟨_, _, -, hnone, -⟩
        rw [hkey] at hnone
        cases hnone
    | none =>
      cases hnew : (newRecord encryptor env s payload tenant).run 0 with
      -- the encryption fails
      | error e =>
        refine hquiet ?_ ?_
        · unfold write
          rw [htenant, hkey]
          dsimp only
          rw [hnew]
        · rintro ⟨tenant', recordId, hok, -, hid, hversion, hwrap, hwrap'⟩
          rw [htenant] at hok
          cases hok
          obtain ⟨r, hr⟩ := newRecord_of payload hid hversion hwrap hwrap'
          rw [hnew] at hr
          cases hr
      -- a record is stored, and then read
      | ok p =>
        obtain ⟨r, t⟩ := p
        obtain ⟨rfl, ⟨recordId, hid⟩, hversion, hwrap, hwrap', hreads⟩ :=
          newRecord_needs hlaw htenant hnew
        have hstores : Stores encryptor env payload s :=
          ⟨tenant, recordId, htenant, hkey, hid, hversion, hwrap, hwrap'⟩
        have hwrite : write encryptor env payload s =
            ((readAt encryptor env r 7).map (⟨·, "created"⟩),
              stored s payload.ownerId payload.idempotencyKey r) := by
          unfold write
          rw [htenant, hkey]
          dsimp only
          rw [hnew]
        rw [hwrite]
        constructor
        -- it was not there, so an error of the reading leaves a change behind
        · intro hunchanged _
          by_contra hnot
          have hfails : ∃ e, readAt encryptor env r 7 = .error e := by
            refine readAt_error_iff.mpr fun hok => hnot ⟨hok.1, hok.2.1, ?_⟩
            exact hreads.mp hok.2.2
          obtain ⟨e, he⟩ := hfails
          have hrecords := (hunchanged e (by rw [he]; rfl)).records
          have hthere : (s.records.set r.id r).get? r.id = some r := Dict.get?_set_self _ _ _
          have hsame : s.records.set r.id r = s.records := hrecords
          rw [hsame, (newRecord_ok hnew).1, hfresh] at hthere
          cases hthere
        · intro hsafe e he
          obtain ⟨hkms, hkms', hloads⟩ := hsafe hstores
          obtain ⟨m, hm⟩ := hreads.mpr hloads
          rw [readAt_ok_iff.mpr ⟨hkms, hkms', hm⟩] at he
          cases he

/-! ## Updating -/

omit [Python R] in
theorem get_set (d : PyDict R) (key key' : String) (value : PyObj R) :
    PyDict.get (d.set key value) key' = if key' = key then some value else d.get key' := by
  unfold PyDict.get PyDict.set
  rw [Dict.lookup_setItems]
  simp only [PyKey.str.injEq]

omit [Python R] in
/-- The other fields of a patch leave the version alone. -/
theorem get_version_patchFields (patch : CloudPatch R) (r : StoredRecord R) :
    (patchFields patch r).fields.get "version" = r.fields.get "version" := by
  have hfield : ∀ (key : String) (hkey : PyKey.str key ∉ ownKeys) (value : Option (PyObj R))
      (r : StoredRecord R), key ≠ "version" →
      (patchField key hkey value r).fields.get "version" = r.fields.get "version" := by
    intro key hkey value r hne
    cases value with
    | none => rfl
    | some value => exact (get_set _ _ _ _).trans (if_neg (Ne.symm hne))
  unfold patchFields
  rw [hfield _ _ _ _ (by decide), hfield _ _ _ _ (by decide), hfield _ _ _ _ (by decide),
    hfield _ _ _ _ (by decide), hfield _ _ _ _ (by decide)]

/-- A version that equals an integer can be incremented. -/
theorem exists_succ {version : PyObj R} {n : Int} (h : version.eqInt n = true) :
    ∃ next, version.succ = .ok next := by
  cases version with
  | int m => exact ⟨_, rfl⟩
  | bool b => exact ⟨_, rfl⟩
  | float x => exact ⟨_, rfl⟩
  | none => cases h
  | str text => cases h
  | bytes data => cases h
  | list items => cases h
  | dict items => cases h

theorem checkUpdate_ok {payload : UpdatePayload R} {r : StoredRecord R} {tenant recordId : UUID}
    (h : checkUpdate payload r = .ok (tenant, recordId)) :
    tenantOf R r.ownerId = .ok tenant ∧ recordIdOf R r.id = .ok recordId ∧
      ∃ version, r.fields.get "version" = some version ∧
        version.eqInt payload.expectedVersion = true := by
  unfold checkUpdate at h
  split at h
  · cases h
  · cases hversion : r.fields.get "version" with
    | none =>
      rw [hversion] at h
      cases h
    | some version =>
      rw [hversion] at h
      dsimp only at h
      split at h
      · obtain ⟨recordId', hid, h₁⟩ := except_bind_ok.mp h
        obtain ⟨tenant', htenant, h₂⟩ := except_bind_ok.mp h₁
        cases h₂
        exact ⟨htenant, hid, version, rfl, ‹_›⟩
      · cases h

/-- The update has a record to amend: its checks pass, and a new content's key is wrapped. -/
def Amends (encryptor : TenantEnvelopeEncryptor) (env : Environment) (payload : UpdatePayload R)
    (s : EncryptedCloudMemoryService R) (r : StoredRecord R) (tenant recordId : UUID) : Prop :=
  s.records.get? payload.id = some r ∧ checkUpdate payload r = .ok (tenant, recordId) ∧
    (payload.patch.content.isSome → 1 ≤ s.keyVersion ∧
      AnswersWrap encryptor env 2 tenant s.keyVersion (env.urandom 0 32))

/-- The tick at which the final reading starts. -/
def readingTick (payload : UpdatePayload R) : Nat := if payload.patch.content.isSome then 4 else 1

/-- Both keys of the final reading are unwrapped, a content that stays opens, and the provenance
opens and parses. -/
def UpdateReadsBack (encryptor : TenantEnvelopeEncryptor) (env : Environment)
    (payload : UpdatePayload R) (r : StoredRecord R) (tenant recordId : UUID) : Prop :=
  env.kmsFails (readingTick payload) = false ∧ env.kmsFails (readingTick payload + 1) = false ∧
    (payload.patch.content = none →
      (openField encryptor tenant recordId "content" r.contentCiphertext).isSome) ∧
    ∃ text, openField encryptor tenant recordId "provenance" r.provenanceCiphertext = some text ∧
      (JsonValue.loads text).isSome

/-- The tick at which an update asks for the time. -/
def clockTick (payload : UpdatePayload R) : Nat := if payload.patch.content.isSome then 3 else 0

/-- The fields of a patch other than the content, in the order of the loop. -/
def CloudPatch.others (patch : CloudPatch R) : List (String × Option (PyObj R)) :=
  [("type", patch.type), ("space", patch.space), ("importance", patch.importance),
    ("confidence", patch.confidence), ("state", patch.state)]

/-- The record has already all that the update assigns, and there is no vector to drop: the envelope
that the drawn key and nonce give for the patched content, the patched values, a version that adding
one does not change (a float), and the time as it is now. -/
structure AssignsNothing (encryptor : TenantEnvelopeEncryptor) (env : Environment)
    (payload : UpdatePayload R) (s : EncryptedCloudMemoryService R) (r : StoredRecord R)
    (tenant recordId : UUID) : Prop where
  noVector : s.embeddings.get? r.id = none
  content : ∀ text, payload.patch.content = some text → ∃ wrapped,
    encryptor.kms.wrap (env.urandom 2) tenant s.keyVersion (env.urandom 0 32) = .ok wrapped ∧
      r.contentCiphertext =
        cipher (encryptor.envelopeOf env 0 tenant recordId "content" text s.keyVersion wrapped)
  others : ∀ e ∈ payload.patch.others, ∀ value, e.2 = some value → r.fields.get e.1 = some value
  version : ∃ version, r.fields.get "version" = some version ∧ version.succ = .ok version
  updatedAt : r.fields.get "updated_at" = some (.str (env.now (clockTick payload)).zulu)

/-- A record whose content is patched: what it needed, and when it reads back. -/
theorem patchContent_needs (hlaw : encryptor.Lawful) {payload : UpdatePayload R}
    {r r₁ : StoredRecord R} {t : Nat} (hr : s.records.get? payload.id = some r)
    (h : (patchContent encryptor env s payload r).run 0 = .ok (r₁, t)) :
    ∃ tenant recordId, Amends encryptor env payload s r tenant recordId ∧
      t = clockTick payload ∧ r₁.fields = r.fields ∧
      r₁.provenanceCiphertext = r.provenanceCiphertext ∧
      (r₁.contentCiphertext = r.contentCiphertext ↔
        ∀ text, payload.patch.content = some text → ∃ wrapped,
          encryptor.kms.wrap (env.urandom 2) tenant s.keyVersion (env.urandom 0 32) = .ok wrapped ∧
            r.contentCiphertext = cipher
              (encryptor.envelopeOf env 0 tenant recordId "content" text s.keyVersion wrapped)) ∧
      ((openField encryptor tenant recordId "content" r₁.contentCiphertext).isSome ↔
        (payload.patch.content = none →
          (openField encryptor tenant recordId "content" r.contentCiphertext).isSome)) := by
  unfold patchContent at h
  obtain ⟨⟨tenant, recordId⟩, t₁, hchecked, h₁⟩ := Txn.bind_ok.mp h
  obtain ⟨hcheck, rfl⟩ := Txn.ofExcept_ok.mp hchecked
  dsimp only at h₁
  -- without new content only the ids are checked
  cases hcontent : payload.patch.content with
  | none =>
    rw [hcontent] at h₁
    obtain ⟨rfl, rfl⟩ := Txn.pure_ok.mp h₁
    refine ⟨tenant, recordId, ⟨hr, hcheck, ?_⟩, ?_, rfl, rfl, ?_, ?_⟩
    · rw [hcontent]
      intro hsome
      cases hsome
    · unfold clockTick
      rw [hcontent]
      rfl
    · refine ⟨?_, fun _ => rfl⟩
      rintro - text ⟨⟩
    · exact ⟨fun hopen _ => hopen, fun hopen => hopen rfl⟩
  -- new content is encrypted under the version of the service
  | some content =>
    rw [hcontent] at h₁
    obtain ⟨value, t₂, hencrypt, h₂⟩ := Txn.bind_ok.mp h₁
    obtain ⟨rfl, rfl⟩ := Txn.pure_ok.mp h₂
    obtain ⟨hversion, rfl, hkms, wrapped, hwrap, hvalue⟩ := encrypt_ok hencrypt
    refine ⟨tenant, recordId, ⟨hr, hcheck, fun _ => ⟨hversion, hkms, wrapped, hwrap⟩⟩, ?_, rfl, rfl,
      ?_, ?_⟩
    · unfold clockTick
      rw [hcontent]
      rfl
    -- the envelope is the same only if the very same bytes are drawn again
    · constructor
      · rintro hstays text ⟨⟩
        exact ⟨wrapped, hwrap, hvalue ▸ hstays.symm⟩
      · intro hstays
        obtain ⟨wrapped', hwrap', henvelope⟩ := hstays content rfl
        rw [hwrap] at hwrap'
        cases hwrap'
        rw [← hvalue] at henvelope
        exact henvelope.symm
    -- and it opens as the new content
    · constructor
      · intro _ hnone
        cases hnone
      · intro _
        exact Option.isSome_iff_exists.mpr ⟨content, open_encrypt hlaw hencrypt⟩

/-- What it needed is enough. -/
theorem patchContent_of {payload : UpdatePayload R} {r : StoredRecord R} {tenant recordId : UUID}
    (h : Amends encryptor env payload s r tenant recordId) :
    ∃ p, (patchContent encryptor env s payload r).run 0 = .ok p := by
  obtain ⟨-, hcheck, hwrap⟩ := h
  have hchecked : (MonadExcept.ofExcept (checkUpdate payload r) : Observing (UUID × UUID)).run 0 =
      .ok ((tenant, recordId), 0) := Txn.ofExcept_ok.mpr ⟨hcheck, rfl⟩
  unfold patchContent
  rw [Txn.run_bind_of_ok hchecked]
  dsimp only
  cases hcontent : payload.patch.content with
  | none => exact ⟨_, rfl⟩
  | some content =>
    rw [hcontent] at hwrap
    obtain ⟨hversion, hkms, wrapped, hwrapped⟩ := hwrap rfl
    dsimp only
    rw [Txn.run_bind_of_ok (encrypt_of (by decide) hversion hkms hwrapped)]
    exact ⟨_, rfl⟩

omit [Python R] in
theorem envelopes_patchFields (patch : CloudPatch R) (r : StoredRecord R) :
    (patchFields patch r).contentCiphertext = r.contentCiphertext ∧
      (patchFields patch r).provenanceCiphertext = r.provenanceCiphertext := by
  have hfield : ∀ (key : String) (hkey : PyKey.str key ∉ ownKeys) (value : Option (PyObj R))
      (r : StoredRecord R),
      (patchField key hkey value r).contentCiphertext = r.contentCiphertext ∧
        (patchField key hkey value r).provenanceCiphertext = r.provenanceCiphertext := by
    intro key hkey value r
    cases value <;> exact ⟨rfl, rfl⟩
  unfold patchFields
  constructor
  · rw [(hfield _ _ _ _).1, (hfield _ _ _ _).1, (hfield _ _ _ _).1, (hfield _ _ _ _).1,
      (hfield _ _ _ _).1]
  · rw [(hfield _ _ _ _).2, (hfield _ _ _ _).2, (hfield _ _ _ _).2, (hfield _ _ _ _).2,
      (hfield _ _ _ _).2]

/-- `d[key] = value` for each value that there is. -/
def assign : List (String × Option (PyObj R)) → PyDict R → PyDict R
  | [], d => d
  | (key, value) :: l, d => assign l (value.elim d (d.set key))

omit [Python R] in
theorem get_assign_of_not_mem {l : List (String × Option (PyObj R))} {key : String}
    (h : key ∉ l.map Prod.fst) (d : PyDict R) : (assign l d).get key = d.get key := by
  induction l generalizing d with
  | nil => rfl
  | cons e l ih =>
    obtain ⟨key', value⟩ := e
    rw [List.map_cons, List.mem_cons, not_or] at h
    rw [assign, ih h.2]
    cases value with
    | none => rfl
    | some value => exact (get_set _ _ _ _).trans (if_neg h.1)

omit [Python R] in
/-- Assigning to different keys changes nothing exactly when each has its value already. -/
theorem assign_eq_self_iff {l : List (String × Option (PyObj R))} (hl : (l.map Prod.fst).Nodup)
    (d : PyDict R) :
    assign l d = d ↔ ∀ e ∈ l, ∀ value, e.2 = some value → d.get e.1 = some value := by
  induction l with
  | nil => exact ⟨fun _ _ he => absurd he List.not_mem_nil, fun _ => rfl⟩
  | cons e l ih =>
    obtain ⟨key, value⟩ := e
    rw [List.map_cons, List.nodup_cons] at hl
    rw [List.forall_mem_cons]
    cases value with
    | none =>
      refine (ih hl.2).trans ⟨fun h => ⟨?_, h⟩, fun h => h.2⟩
      rintro _ ⟨⟩
    | some value =>
      have hassign : assign ((key, some value) :: l) d = assign l (d.set key value) := rfl
      rw [hassign]
      constructor
      · intro hsame
        -- the later assignments leave the key alone, so its value was there before
        have hget : d.get key = some value := by
          rw [← hsame, get_assign_of_not_mem hl.1, get_set, if_pos rfl]
        have hset : d.set key value = d := Dict.setItems_eq_self hget
        rw [hset] at hsame
        refine ⟨?_, (ih hl.2).mp hsame⟩
        rintro _ ⟨⟩
        exact hget
      · rintro ⟨hhead, htail⟩
        have hset : d.set key value = d := Dict.setItems_eq_self (hhead value rfl)
        rw [hset]
        exact (ih hl.2).mpr htail

omit [Python R] in
theorem fields_patchField (key : String) (hkey : PyKey.str key ∉ ownKeys)
    (value : Option (PyObj R)) (r : StoredRecord R) :
    (patchField key hkey value r).fields = value.elim r.fields (r.fields.set key) := by
  cases value <;> rfl

omit [Python R] in
theorem fields_patchFields (patch : CloudPatch R) (r : StoredRecord R) :
    (patchFields patch r).fields = assign patch.others r.fields := by
  unfold patchFields
  simp only [fields_patchField]
  rfl

/-- The fields after an update are those before it exactly when it assigns what was there. -/
theorem fields_touched_iff {payload : UpdatePayload R} {r r₁ r₂ : StoredRecord R} {now : String}
    (hfields : r₁.fields = r.fields)
    (hbump : bumpVersion (patchFields payload.patch r₁) = .ok r₂) :
    (touch now r₂).fields = r.fields ↔
      (∀ e ∈ payload.patch.others, ∀ value, e.2 = some value → r.fields.get e.1 = some value) ∧
        (∃ version, r.fields.get "version" = some version ∧ version.succ = .ok version) ∧
          r.fields.get "updated_at" = some (.str now) := by
  unfold bumpVersion at hbump
  rw [get_version_patchFields, hfields] at hbump
  -- a record without a version is not updated
  cases hversion : r.fields.get "version" with
  | none =>
    rw [hversion] at hbump
    cases hbump
  | some version =>
    rw [hversion] at hbump
    dsimp only at hbump
    cases hnext : version.succ with
    | error e =>
      rw [hnext] at hbump
      cases hbump
    | ok next =>
      -- the update is one assignment of all the fields that it sets
      rw [hnext] at hbump
      cases hbump
      have hall : (touch now ((patchFields payload.patch r₁).setField "version" next
          (by decide))).fields =
          assign (payload.patch.others ++ [("version", some next), ("updated_at", some (.str now))])
            r.fields := by
        show (((patchFields payload.patch r₁).fields.set "version" next).set "updated_at"
          (.str now)) = _
        rw [fields_patchFields, hfields]
        rfl
      have hnodup : ((payload.patch.others ++ [("version", some next),
          ("updated_at", some (PyObj.str now))]).map Prod.fst).Nodup := by
        show ["type", "space", "importance", "confidence", "state", "version", "updated_at"].Nodup
        decide
      -- which changes nothing when every field has its value already
      rw [hall, assign_eq_self_iff hnodup, List.forall_mem_append, List.forall_mem_cons,
        List.forall_mem_singleton]
      refine and_congr_right fun _ => and_congr ?_ ?_
      -- the version must be its own successor
      · constructor
        · intro h
          have hstays := h next rfl
          rw [hversion] at hstays
          cases hstays
          exact ⟨_, rfl, hnext⟩
        · rintro ⟨_, ⟨⟩, hsame⟩ _ ⟨⟩
          rw [hnext] at hsame
          cases hsame
          exact hversion
      · refine ⟨fun h => h _ rfl, ?_⟩
        rintro h _ ⟨⟩
        exact h

/-- An update whose record is found and patched: the version is incremented, and the record that is
stored keeps id, owner and envelopes. -/
theorem update_of_patchContent {payload : UpdatePayload R} {r r₁ : StoredRecord R} {t : Nat}
    (hr : s.records.get? payload.id = some r)
    (h : (patchContent encryptor env s payload r).run 0 = .ok (r₁, t))
    {version : PyObj R} (hversion : r₁.fields.get "version" = some version)
    (heq : version.eqInt payload.expectedVersion = true) :
    ∃ r₂, bumpVersion (patchFields payload.patch r₁) = .ok r₂ ∧
      SameOwner r (touch (env.now t).zulu r₂) ∧
      (touch (env.now t).zulu r₂).contentCiphertext = r₁.contentCiphertext ∧
      (touch (env.now t).zulu r₂).provenanceCiphertext = r₁.provenanceCiphertext ∧
      update encryptor env payload s =
        ((readAt encryptor env (touch (env.now t).zulu r₂) (t + 1)).map (⟨·, "updated"⟩),
          amended s payload.id (touch (env.now t).zulu r₂)) := by
  obtain ⟨next, hnext⟩ := exists_succ heq
  have hbump : bumpVersion (patchFields payload.patch r₁) =
      .ok ((patchFields payload.patch r₁).setField "version" next (by decide)) := by
    unfold bumpVersion
    rw [get_version_patchFields, hversion]
    dsimp only
    rw [hnext]
  have hsame := (sameOwner_patchContent h).trans (sameOwner_patchFields payload.patch r₁)
  obtain ⟨hcontent, hprovenance⟩ := envelopes_patchFields payload.patch r₁
  refine ⟨_, hbump, ⟨hsame.1, hsame.2⟩, hcontent, hprovenance, ?_⟩
  unfold update
  rw [hr]
  dsimp only
  rw [h]
  dsimp only
  rw [hbump]

omit [Python R] in
/-- A record of the same id, owner and provenance is the same if its content and fields are. -/
theorem SameOwner.eq_iff {r r' : StoredRecord R} (h : SameOwner r r')
    (hprovenance : r'.provenanceCiphertext = r.provenanceCiphertext) :
    r' = r ↔ r'.contentCiphertext = r.contentCiphertext ∧ r'.fields = r.fields := by
  constructor
  · rintro rfl
    exact ⟨rfl, rfl⟩
  · rintro ⟨hcontent, hfields⟩
    obtain ⟨hid, howner⟩ := h
    cases r
    cases r'
    dsimp only at hid howner hprovenance hcontent hfields
    subst hid howner hprovenance hcontent hfields
    rfl

omit [Python R] in
/-- Storing a record under an id changes nothing exactly when it is the record that is there and
there is no vector. -/
theorem unchanged_amended_iff {i : String} {r r' : StoredRecord R}
    (hr : s.records.get? i = some r) (hid : r'.id = r.id) :
    Unchanged s (amended s i r') ↔ r' = r ∧ s.embeddings.get? r.id = none := by
  constructor
  · intro h
    have hrecords : s.records.set i r' = s.records := h.records
    have hembeddings : s.embeddings.pop r'.id = s.embeddings := h.embeddings
    have hget : (s.records.set i r').get? i = some r' := Dict.get?_set_self _ _ _
    have hpop : (s.embeddings.pop r'.id).get? r'.id = none := Dict.get?_pop_self _ _
    rw [hrecords, hr] at hget
    rw [hembeddings, hid] at hpop
    exact ⟨(Option.some.inj hget).symm, hpop⟩
  · rintro ⟨rfl, hnone⟩
    exact ⟨Dict.set_eq_self hr, rfl, Dict.pop_of_get?_eq_none hnone, rfl⟩

/-- An update that raises has changed nothing exactly when it amends nothing, or its record reads
back, or it assigns what was there. -/
theorem update_unchanged_iff (hlaw : encryptor.Lawful) {payload : UpdatePayload R} :
    (∀ e, (update encryptor env payload s).1 = .error e →
        Unchanged s (update encryptor env payload s).2) ↔
      ∀ r tenant recordId, Amends encryptor env payload s r tenant recordId →
        UpdateReadsBack encryptor env payload r tenant recordId ∨
          AssignsNothing encryptor env payload s r tenant recordId := by
  cases hr : s.records.get? payload.id with
  | none =>
    constructor
    · rintro - r tenant recordId ⟨hget, -⟩
      rw [hr] at hget
      cases hget
    · intro _ e _
      refine .of_eq ?_
      unfold update
      rw [hr]
  | some r =>
    cases hpatch : (patchContent encryptor env s payload r).run 0 with
    | error e =>
      constructor
      · rintro - r' tenant recordId hamends
        have hsame : r' = r := Option.some.inj (hamends.1.symm.trans hr)
        subst hsame
        obtain ⟨p, hp⟩ := patchContent_of hamends
        rw [hpatch] at hp
        cases hp
      · intro _ e' _
        refine .of_eq ?_
        unfold update
        rw [hr]
        dsimp only
        rw [hpatch]
    | ok p =>
      obtain ⟨r₁, t⟩ := p
      obtain ⟨tenant, recordId, hamends, htick, hfields, hprovenance, hstays, hopen⟩ :=
        patchContent_needs hlaw hr hpatch
      have hreading : t + 1 = readingTick payload := by
        rw [htick]
        unfold clockTick readingTick
        split <;> rfl
      obtain ⟨htenant, hid, version, hversion, heq⟩ := checkUpdate_ok hamends.2.1
      rw [← hfields] at hversion
      obtain ⟨r₂, hbump, hsame, hcontent₂, hprovenance₂, hupdate⟩ :=
        update_of_patchContent hr hpatch hversion heq
      -- the final reading succeeds exactly under the condition
      have hreads : (∃ m, readAt encryptor env (touch (env.now t).zulu r₂) (t + 1) = .ok m) ↔
          UpdateReadsBack encryptor env payload r tenant recordId := by
        rw [exists_readAt_iff (by rw [hsame.2]; exact htenant) (by rw [hsame.1]; exact hid),
          hcontent₂, hprovenance₂, hprovenance, hopen, hreading]
        rfl
      -- the record that is stored is the one that was there exactly under the other
      have hassigns : touch (env.now t).zulu r₂ = r ∧ s.embeddings.get? r.id = none ↔
          AssignsNothing encryptor env payload s r tenant recordId := by
        rw [hsame.eq_iff (hprovenance₂.trans hprovenance), hcontent₂, hstays,
          fields_touched_iff hfields hbump, htick]
        constructor
        · rintro ⟨⟨hcontent, hothers, hversion, hnow⟩, hnone⟩
          exact ⟨hnone, hcontent, hothers, hversion, hnow⟩
        · rintro ⟨hnone, hcontent, hothers, hversion, hnow⟩
          exact ⟨⟨hcontent, hothers, hversion, hnow⟩, hnone⟩
      rw [hupdate]
      constructor
      · intro hunchanged r' tenant' recordId' hamends'
        obtain rfl : r' = r := Option.some.inj (hamends'.1.symm.trans hr)
        obtain ⟨rfl, rfl⟩ : tenant' = tenant ∧ recordId' = recordId := by
          have hpair := Except.ok.inj (hamends'.2.1.symm.trans hamends.2.1)
          exact Prod.mk.inj hpair
        by_cases hback : UpdateReadsBack encryptor env payload r' tenant' recordId'
        · exact .inl hback
        · cases hread : readAt encryptor env (touch (env.now t).zulu r₂) (t + 1) with
          | ok m => exact absurd (hreads.mp ⟨m, hread⟩) hback
          | error e =>
            have hsaved := hunchanged e (by rw [hread]; rfl)
            exact .inr (hassigns.mp ((unchanged_amended_iff hr hsame.1).mp hsaved))
      · intro hsafe e he
        rcases hsafe r tenant recordId hamends with hback | hnothing
        · obtain ⟨m, hm⟩ := hreads.mpr hback
          rw [hm] at he
          cases he
        · exact (unchanged_amended_iff hr hsame.1).mpr (hassigns.mpr hnothing)

/-! ## The three operations -/

/-- Exactly when a write (under a fresh id), an update or a rewrap that raises has changed nothing,
for every pattern of KMS failures. -/
theorem kms_failures_iff (hlaw : encryptor.Lawful) (env : Environment)
    (s : EncryptedCloudMemoryService R) :
    (∀ payload : WritePayload R, s.records.get? (drawnId env) = none →
      ((∀ e, (write encryptor env payload s).1 = .error e →
          Unchanged s (write encryptor env payload s).2) ↔
        (Stores encryptor env payload s → WriteReadsBack env payload))) ∧
    (∀ payload : UpdatePayload R,
      ((∀ e, (update encryptor env payload s).1 = .error e →
          Unchanged s (update encryptor env payload s).2) ↔
        ∀ r tenant recordId, Amends encryptor env payload s r tenant recordId →
          UpdateReadsBack encryptor env payload r tenant recordId ∨
            AssignsNothing encryptor env payload s r tenant recordId)) ∧
    ∀ version e, (rewrap encryptor env version s).1 = .error e →
      Unchanged s (rewrap encryptor env version s).2 := by
  refine ⟨fun payload hfresh => write_unchanged_iff hlaw hfresh, fun payload => update_unchanged_iff hlaw,
    fun version e he => .of_eq ?_⟩
  rcases rewrap_cases encryptor env version s with ⟨-, hsame⟩ | ⟨_, _, _, -, -, -, hok⟩
  · exact hsame
  · rw [hok] at he
    cases he

/-- The desk when the KMS goes down at a tick. -/
def deskOutage (id tick : Nat) : Environment :=
  { deskEnv id with kmsFails := fun t => decide (tick ≤ t) }

/-- At the desk: a KMS that is down from the start makes a write raise and change nothing. -/
theorem deskOutage_unchanged :
    (write deskEncryptor (deskOutage 7 0) (deskNote "k" "A") (newService 1)).1.map (fun _ => ()) =
        .error (.kmsUnavailableError "key wrap failed") ∧
      Unchanged (newService 1)
        (write deskEncryptor (deskOutage 7 0) (deskNote "k" "A") (newService 1)).2 := by
  have herror : (write deskEncryptor (deskOutage 7 0) (deskNote "k" "A") (newService 1)).1.map
      (fun _ => ()) = .error (.kmsUnavailableError "key wrap failed") := by decide +kernel
  refine ⟨herror, ?_⟩
  cases hresult : (write deskEncryptor (deskOutage 7 0) (deskNote "k" "A") (newService 1)).1 with
  | ok m =>
    rw [hresult] at herror
    cases herror
  | error e =>
    refine ((kms_failures_iff deskEncryptor_lawful (deskOutage 7 0) (newService 1)).1 _ rfl).mpr ?_
      e hresult
    rintro ⟨_, _, -, -, -, -, ⟨hkms, -⟩, -⟩
    cases hkms

/-- A KMS that goes down after both keys are wrapped: the write raises, and the record and its key
are there. -/
theorem write_raises_after_storing :
    (write deskEncryptor (deskOutage 7 7) (deskNote "k" "A") (newService 1)).1.map (fun _ => ()) =
        .error (.kmsUnavailableError "key unwrap failed") ∧
      holds (newService 1 : EncryptedCloudMemoryService ℚ) deskOwner deskId = false ∧
      holds (write deskEncryptor (deskOutage 7 7) (deskNote "k" "A") (newService 1)).2 deskOwner
        deskId = true := by
  decide +kernel

end OpenMemory.Cloud
