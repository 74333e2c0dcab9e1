import OpenMemory.Cloud.Envelopes

/-!
# Key rotation keeps what the records say

`rewrap` decrypts every envelope of another key version and encrypts it again. Over an AES-GCM and a
KMS that undo themselves (`TenantEnvelopeEncryptor.Lawful`; the local KMS does, `lawful_service`), a
rewrapped envelope opens to the text it opened to before (`rewrapField_opens`), so every record reads
back to what it was (`rewrap_preserves`).

What `_read` returns is told apart from whether the KMS answers: `ReadsAs` is the former, and a
reading succeeds exactly when both unwraps are answered (`readAt_ok_iff`).
-/

namespace OpenMemory.Cloud

open Lib

variable {R : Type} [Python R]

/-! ## Laws -/

/-- AES-GCM undoes itself and appends a tag of 16 bytes. -/
structure AESGCM.Lawful (aes : AESGCM) : Prop where
  decrypt_encrypt : ∀ key nonce data aad,
    aes.decrypt key nonce (aes.encrypt key nonce data aad) aad = some data
  length_encrypt : ∀ key nonce data aad, (aes.encrypt key nonce data aad).length = data.length + 16

/-- The KMS unwraps what it wrapped. -/
structure KeyManagementService.Lawful (kms : KeyManagementService) : Prop where
  unwrap_wrap : ∀ (random : Nat → Bytes) tenant version dek wrapped,
    (∀ n, (random n).length = n) → dek.length = 32 →
    kms.wrap random tenant version dek = .ok wrapped → kms.unwrap tenant version wrapped = .ok dek

/-- The local KMS is lawful over a lawful AES-GCM. -/
theorem lawful_service {aes : AESGCM} (haes : aes.Lawful) (kms : LocalDevelopmentKMS) :
    (kms.service aes).Lawful where
  unwrap_wrap random tenant version dek wrapped hrandom hdek hwrap := by
    have hversion : 1 ≤ version := by
      unfold LocalDevelopmentKMS.service at hwrap
      dsimp only at hwrap
      split at hwrap
      · cases hwrap
      · omega
    obtain rfl := wrap_ok hwrap
    refine unwrap_of hversion ?_ hdek ?_
    · rw [List.length_append, hrandom, haes.length_encrypt]
      omega
    · rw [List.take_left' (hrandom 12), List.drop_left' (hrandom 12)]
      exact haes.decrypt_encrypt _ _ _ _

structure TenantEnvelopeEncryptor.Lawful (encryptor : TenantEnvelopeEncryptor) : Prop where
  aes : encryptor.aes.Lawful
  kms : encryptor.kms.Lawful

variable {encryptor : TenantEnvelopeEncryptor} {env : Environment}
  {s : EncryptedCloudMemoryService R}

/-- What was encrypted opens. -/
theorem open_encrypt (hlaw : encryptor.Lawful) {tenant record : UUID} {field plaintext : String}
    {version : Int} {t t' : Nat} {c : EnvelopeCiphertext}
    (h : (encryptor.encrypt env tenant record field plaintext version).run t = .ok (c, t')) :
    encryptor.openEnvelope tenant record field c = some plaintext := by
  obtain ⟨hversion, -, -, wrapped, hwrap, rfl⟩ := encrypt_ok h
  refine openEnvelope_eq_some.mpr ⟨hversion, env.length_urandom _ _, ?_, env.urandom t 32,
    encodeText plaintext, ?_, env.length_urandom _ _, hlaw.aes.decrypt_encrypt _ _ _ _,
    decodeText_encodeText plaintext⟩
  · unfold TenantEnvelopeEncryptor.envelopeOf
    dsimp only
    rw [hlaw.aes.length_encrypt]
    omega
  · exact hlaw.kms.unwrap_wrap _ _ _ _ _ (env.length_urandom _) (env.length_urandom _ _) hwrap

/-! ## Reading -/

/-- What a stored envelope opens to. -/
def openField (encryptor : TenantEnvelopeEncryptor) (tenant record : UUID) (field : String)
    (value : LooseEnvelope R) : Option String :=
  value.typed.bind (encryptor.openEnvelope tenant record field)

omit [Python R] in
theorem decryptField_ok_iff {tenant record : UUID} {field plaintext : String}
    {value : LooseEnvelope R} {t t' : Nat} :
    (decryptField encryptor env tenant record field value).run t = .ok (plaintext, t') ↔
      env.kmsFails t = false ∧ t' = t + 1 ∧
        openField encryptor tenant record field value = some plaintext := by
  unfold decryptField openField
  cases value.typed with
  | none =>
    constructor
    · intro h
      cases h
    · rintro ⟨-, -, h⟩
      cases h
  | some c => exact decrypt_ok_iff

/-- The record reads as a memory while the KMS answers. -/
structure ReadsAs (encryptor : TenantEnvelopeEncryptor) (r : StoredRecord R) (m : CloudMemory R) :
    Prop where
  parts : ∃ tenant recordId text,
    tenantOf R r.ownerId = .ok tenant ∧ recordIdOf R r.id = .ok recordId ∧
    openField encryptor tenant recordId "content" r.contentCiphertext = some m.content ∧
    openField encryptor tenant recordId "provenance" r.provenanceCiphertext = some text ∧
    loadsProvenance text = .ok m.provenance
  plain : m.id = r.id ∧ m.ownerId = r.ownerId ∧ m.fields = r.fields

theorem read_ok_iff {r : StoredRecord R} {m : CloudMemory R} {t t' : Nat} :
    (read encryptor env r).run t = .ok (m, t') ↔
      env.kmsFails t = false ∧ env.kmsFails (t + 1) = false ∧ t' = t + 2 ∧
        ReadsAs encryptor r m := by
  unfold read
  constructor
  · intro h
    obtain ⟨tenant, t₁, h₁, h₂⟩ := Txn.bind_ok.mp h
    obtain ⟨htenant, rfl⟩ := Txn.ofExcept_ok.mp h₁
    obtain ⟨recordId, t₂, h₃, h₄⟩ := Txn.bind_ok.mp h₂
    obtain ⟨hid, rfl⟩ := Txn.ofExcept_ok.mp h₃
    obtain ⟨content, t₃, h₅, h₆⟩ := Txn.bind_ok.mp h₄
    obtain ⟨hkms, rfl, hcontent⟩ := decryptField_ok_iff.mp h₅
    obtain ⟨text, t₄, h₇, h₈⟩ := Txn.bind_ok.mp h₆
    obtain ⟨hkms', rfl, htext⟩ := decryptField_ok_iff.mp h₇
    obtain ⟨provenance, t₅, h₉, h₁₀⟩ := Txn.bind_ok.mp h₈
    obtain ⟨hloads, rfl⟩ := Txn.ofExcept_ok.mp h₉
    obtain ⟨rfl, rfl⟩ := Txn.pure_ok.mp h₁₀
    exact ⟨hkms, hkms', rfl, ⟨⟨tenant, recordId, text, htenant, hid, hcontent, htext, hloads⟩,
      rfl, rfl, rfl⟩⟩
  · rintro ⟨hkms, hkms', rfl, ⟨tenant, recordId, text, htenant, hid, hcontent, htext, hloads⟩,
      hplain⟩
    obtain ⟨i, o, fields, content, provenance⟩ := m
    obtain ⟨rfl, rfl, rfl⟩ := hplain
    refine Txn.bind_ok.mpr ⟨tenant, t, Txn.ofExcept_ok.mpr ⟨htenant, rfl⟩, ?_⟩
    refine Txn.bind_ok.mpr ⟨recordId, t, Txn.ofExcept_ok.mpr ⟨hid, rfl⟩, ?_⟩
    refine Txn.bind_ok.mpr ⟨content, t + 1, decryptField_ok_iff.mpr ⟨hkms, rfl, hcontent⟩, ?_⟩
    refine Txn.bind_ok.mpr ⟨text, t + 2, decryptField_ok_iff.mpr ⟨hkms', rfl, htext⟩, ?_⟩
    refine Txn.bind_ok.mpr ⟨provenance, t + 2, Txn.ofExcept_ok.mpr ⟨hloads, rfl⟩, ?_⟩
    exact Txn.pure_ok.mpr ⟨rfl, rfl⟩

/-- A reading succeeds exactly when both unwraps are answered and the record reads. -/
theorem readAt_ok_iff {r : StoredRecord R} {m : CloudMemory R} {t : Nat} :
    readAt encryptor env r t = .ok m ↔
      env.kmsFails t = false ∧ env.kmsFails (t + 1) = false ∧ ReadsAs encryptor r m := by
  unfold readAt
  constructor
  · intro h
    cases hread : (read encryptor env r).run t with
    | error e =>
      rw [hread] at h
      cases h
    | ok p =>
      rw [hread] at h
      cases h
      obtain ⟨hkms, hkms', -, hreads⟩ := read_ok_iff.mp hread
      exact ⟨hkms, hkms', hreads⟩
  · rintro ⟨hkms, hkms', hreads⟩
    rw [read_ok_iff.mpr ⟨hkms, hkms', rfl, hreads⟩]
    rfl

/-! ## One envelope -/

/-- 1 for an envelope whose version is another. -/
def stale (version : Int) (value : LooseEnvelope R) : Nat :=
  if value.keyVersion.eqInt version then 0 else 1

/-- A rewrapped envelope carries the version and opens to the text it opened to before. -/
theorem rewrapField_opens (hlaw : encryptor.Lawful) {version : Int} {tenant record : UUID}
    {field plaintext : String} {current rotated : LooseEnvelope R} {n t t' : Nat}
    (h : (rewrapField encryptor env version tenant record field current).run t =
      .ok ((rotated, n), t'))
    (hopen : openField encryptor tenant record field current = some plaintext) :
    rotated.keyVersion = .int version ∧
      openField encryptor tenant record field rotated = some plaintext := by
  rcases rewrapField_ok h with ⟨hversion, rfl, -, -⟩ | ⟨-, -, value, value', htyped, hrewrap, rfl⟩
  · refine ⟨?_, hopen⟩
    obtain ⟨c, htyped, -⟩ := Option.bind_eq_some_iff.mp hopen
    -- a typed envelope has an integer version
    obtain ⟨keyVersion, wrapped, nonce, ciphertext⟩ := rotated
    unfold LooseEnvelope.typed at htyped
    split at htyped
    · rename_i k _ _ _ hk _ _ _
      dsimp only at hk hversion ⊢
      subst hk
      rw [of_decide_eq_true (show decide (k = version) = true from hversion)]
    · cases htyped
  · unfold TenantEnvelopeEncryptor.rewrap at hrewrap
    split at hrewrap
    · cases hrewrap
    · obtain ⟨p, t₁, hdecrypt, hencrypt⟩ := Txn.bind_ok.mp hrewrap
      obtain ⟨-, -, hopened⟩ := decrypt_ok_iff.mp hdecrypt
      have hsame : p = plaintext := by
        unfold openField at hopen
        rw [htyped, Option.bind_some, hopened] at hopen
        exact Option.some.inj hopen
      subst hsame
      obtain ⟨-, -, -, _, -, hvalue⟩ := encrypt_ok hencrypt
      refine ⟨?_, open_encrypt hlaw hencrypt⟩
      rw [hvalue]
      rfl

theorem rewrapField_count {version : Int} {tenant record : UUID} {field : String}
    {current rotated : LooseEnvelope R} {n t t' : Nat}
    (h : (rewrapField encryptor env version tenant record field current).run t =
      .ok ((rotated, n), t')) : n = stale version current := by
  unfold stale
  rcases rewrapField_ok h with ⟨hversion, -, rfl, -⟩ | ⟨hversion, rfl, -⟩
  · rw [if_pos hversion]
  · rw [hversion, if_neg Bool.false_ne_true]

/-! ## All records -/

/-- How many envelopes of a record have another version. -/
def staleEnvelopes (version : Int) (r : StoredRecord R) : Nat :=
  stale version r.contentCiphertext + stale version r.provenanceCiphertext

theorem rewrapRecords_count {version : Int} {items pending : List (String × StoredRecord R)}
    {n t t' : Nat}
    (h : (rewrapRecords encryptor env version items).run t = .ok ((pending, n), t')) :
    n = (items.map fun e => staleEnvelopes version e.2).sum := by
  induction items generalizing pending n t t' with
  | nil =>
    obtain ⟨heq, -⟩ := Txn.pure_ok.mp h
    exact (congrArg Prod.snd heq)
  | cons e rest ih =>
    obtain ⟨⟨r', k⟩, t₁, hhead, h₁⟩ := Txn.bind_ok.mp h
    obtain ⟨⟨more, m⟩, t₂, hrest, h₂⟩ := Txn.bind_ok.mp h₁
    obtain ⟨heq, -⟩ := Txn.pure_ok.mp h₂
    have hn : n = k + m := congrArg Prod.snd heq
    obtain ⟨_, _, _, _, n₁, n₂, _, -, -, hcontent, hprovenance, -, hk⟩ := rewrapRecord_ok hhead
    rw [hn, hk, rewrapField_count hcontent, rewrapField_count hprovenance, ih hrest]
    rfl

/-- A rewrapped record carries the version and reads as before. -/
theorem rewrapRecord_reads (hlaw : encryptor.Lawful) {version : Int} {r r' : StoredRecord R}
    {n t t' : Nat} (h : (rewrapRecord encryptor env version r).run t = .ok ((r', n), t'))
    {m : CloudMemory R} (hreads : ReadsAs encryptor r m) :
    r'.contentCiphertext.keyVersion = .int version ∧
      r'.provenanceCiphertext.keyVersion = .int version ∧ ReadsAs encryptor r' m := by
  obtain ⟨tenant, recordId, content, provenance, n₁, n₂, t₁, htenant, hid, hcontent, hprovenance,
    rfl, -⟩ := rewrapRecord_ok h
  obtain ⟨⟨tenant', recordId', text, htenant', hid', hopen, hopen', hloads⟩, hplain⟩ := hreads
  rw [htenant] at htenant'
  cases htenant'
  rw [hid] at hid'
  cases hid'
  obtain ⟨hv, hopened⟩ := rewrapField_opens hlaw hcontent hopen
  obtain ⟨hv', hopened'⟩ := rewrapField_opens hlaw hprovenance hopen'
  exact ⟨hv, hv', ⟨⟨tenant, recordId, text, htenant, hid, hopened, hopened', hloads⟩, hplain⟩⟩

/-- What a rewrap that returned has done. -/
structure Rewrapped (encryptor : TenantEnvelopeEncryptor) (version : Int)
    (s s' : EncryptedCloudMemoryService R) (n : Nat) : Prop where
  /-- Every envelope carries the version. -/
  versions : ∀ i r', s'.records.get? i = some r' →
    r'.contentCiphertext.keyVersion = .int version ∧
      r'.provenanceCiphertext.keyVersion = .int version
  /-- Every record is still there, with its other fields, and reads as before. -/
  records : ∀ i r, s.records.get? i = some r → ∃ r', s'.records.get? i = some r' ∧
    r'.id = r.id ∧ r'.ownerId = r.ownerId ∧ r'.fields = r.fields ∧
    ∀ env t m, readAt encryptor env r t = .ok m →
      ∀ env' t', (∀ u, env'.kmsFails u = false) → readAt encryptor env' r' t' = .ok m
  /-- And no other record is. -/
  ids : s'.records.keys = s.records.keys
  count : n = (s.records.values.map (staleEnvelopes version)).sum
  rest : s' = { s with records := s'.records, keyVersion := version }

/-- A rewrap of readable records to a version that is not below the current one: if it returns, the
records are rewrapped and read as before; if it raises, the state is what it was. -/
theorem rewrap_preserves (hlaw : encryptor.Lawful)
    (hreadable : ∀ i r, s.records.get? i = some r →
      ∃ env t m, readAt encryptor env r t = .ok m)
    (env : Environment) (version : Int) :
    (∀ n, (rewrap encryptor env version s).1 = .ok n →
        Rewrapped encryptor version s (rewrap encryptor env version s).2 n) ∧
      ∀ e, (rewrap encryptor env version s).1 = .error e →
        (rewrap encryptor env version s).2 = s := by
  rcases rewrap_cases encryptor env version s with
    ⟨⟨e, herror⟩, hsame⟩ | ⟨pending, n, t, -, -, hrun, hok⟩
  · refine ⟨fun n hn => ?_, fun _ _ => hsame⟩
    rw [herror] at hn
    cases hn
  · refine ⟨fun n' hn => ?_, fun e he => ?_⟩
    · rw [hok] at hn
      cases hn
      rw [hok]
      have hreads : ∀ {i r}, s.records.get? i = some r → ∃ r',
          (applyPending s.records pending).get? i = some r' ∧
          r'.id = r.id ∧ r'.ownerId = r.ownerId ∧ r'.fields = r.fields ∧
          r'.contentCiphertext.keyVersion = .int version ∧
          r'.provenanceCiphertext.keyVersion = .int version ∧
          ∀ m, ReadsAs encryptor r m → ReadsAs encryptor r' m := by
        intro i r hr
        obtain ⟨r', k, u, u', hget, hrecord⟩ := get?_applyPending hrun hr
        obtain ⟨env₀, t₀, m₀, hm₀⟩ := hreadable i r hr
        obtain ⟨-, -, hreads⟩ := readAt_ok_iff.mp hm₀
        obtain ⟨hv, hv', -⟩ := rewrapRecord_reads hlaw hrecord hreads
        obtain ⟨_, _, _, _, _, _, _, -, -, -, -, heq, -⟩ := rewrapRecord_ok hrecord
        refine ⟨r', hget, ?_, ?_, ?_, hv, hv', fun m hm => (rewrapRecord_reads hlaw hrecord hm).2.2⟩
        · rw [heq]
        · rw [heq]
        · rw [heq]
      constructor
      · intro i r' hr'
        obtain ⟨r, hr, -⟩ := Dict.get?_mapValues_eq_some.mp hr'
        obtain ⟨r'', hget, -, -, -, hv, hv', -⟩ := hreads hr
        have hsame : r'' = r' := Option.some.inj (hget.symm.trans hr')
        rw [← hsame]
        exact ⟨hv, hv'⟩
      · intro i r hr
        obtain ⟨r', hget, hid, howner, hfields, -, -, hm⟩ := hreads hr
        refine ⟨r', hget, hid, howner, hfields, fun env₀ t₀ m hread env' t' hkms => ?_⟩
        obtain ⟨-, -, hreads₀⟩ := readAt_ok_iff.mp hread
        exact readAt_ok_iff.mpr ⟨hkms _, hkms _, hm m hreads₀⟩
      · exact Dict.map_fst_mapItems (fun id r => (pending.lookup id).getD r) s.records.items
      · rw [rewrapRecords_count hrun, Dict.values, List.map_map]
        rfl
      · rfl
    · rw [hok] at he
      cases he

/-- At the desk the KMS and the cipher are lawful. -/
theorem checksumAes_lawful : checksumAes.Lawful where
  decrypt_encrypt key nonce data aad := by
    have htag : (tagOf key nonce aad).length = 16 := List.length_replicate
    unfold checksumAes
    dsimp only
    rw [List.length_append, htag, Nat.add_sub_cancel, List.drop_left, List.take_left, if_pos rfl]
  length_encrypt key nonce data aad := by
    show (data ++ tagOf key nonce aad).length = _
    rw [List.length_append]
    exact congrArg (data.length + ·) List.length_replicate

theorem deskEncryptor_lawful : deskEncryptor.Lawful :=
  ⟨checksumAes_lawful, lawful_service checksumAes_lawful deskKms⟩

/-- The record at the desk is readable. -/
theorem deskWritten_readable {i : String} {r : StoredRecord ℚ}
    (h : deskWritten.records.get? i = some r) :
    ∃ env t m, readAt deskEncryptor env r t = .ok m := by
  have hkeys : deskWritten.records.keys = [deskId] := by decide +kernel
  have hread : ((deskWritten.records.get? deskId).map fun r =>
      (readAt deskEncryptor (deskEnv 0) r 0).toOption.isSome) = some true := by decide +kernel
  have hmem : i ∈ deskWritten.records.keys :=
    List.mem_map_of_mem ((Dict.mem_items_iff _ _ _).mpr h)
  rw [hkeys, List.mem_singleton] at hmem
  rw [← hmem, h, Option.map_some] at hread
  cases hm : readAt deskEncryptor (deskEnv 0) r 0 with
  | error e =>
    rw [hm] at hread
    cases hread
  | ok m => exact ⟨deskEnv 0, 0, m, hm⟩

/-- Two envelopes at the desk are rewrapped to version 2. -/
theorem deskRewrapped :
    (rewrap deskEncryptor (deskEnv 0) 2 deskWritten).1 = .ok 2 ∧
      Rewrapped deskEncryptor 2 deskWritten (rewrap deskEncryptor (deskEnv 0) 2 deskWritten).2 2 := by
  have hok : (rewrap deskEncryptor (deskEnv 0) 2 deskWritten).1 = .ok 2 := by decide +kernel
  exact ⟨hok, (rewrap_preserves deskEncryptor_lawful (fun _ _ h => deskWritten_readable h)
    (deskEnv 0) 2).1 2 hok⟩

end OpenMemory.Cloud
