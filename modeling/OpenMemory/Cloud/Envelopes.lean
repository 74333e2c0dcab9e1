import OpenMemory.Cloud.Runs

/-!
# Envelopes are bound to their place

An envelope is encrypted under associated data that names tenant, record, field and key version, and
its data key is wrapped under associated data that names tenant and key version. Both are texts with
slashes in between; the ids have a fixed length, so the texts determine what they name
(`LocalDevelopmentKMS.aad_inj`, `TenantEnvelopeEncryptor.aad_inj`).

- `decode_encode`: the stored text of an envelope reads back.
- `decrypt_ok_iff`: what a decryption returns, told apart from whether the KMS answers.
- `envelope_bound`: over an ideal AEAD it decrypts at its own place and nowhere else.
-/

namespace OpenMemory.Cloud

open Lib

/-! ## Associated data -/

theorem toString_injective {a b : Int} (h : (toString a).toList = (toString b).toList) : a = b :=
  Int.repr_injective (String.toList_injective h)

theorem str_append_inj {u u' : UUID} {l l' : List Char}
    (h : u.str.toList ++ l = u'.str.toList ++ l') : u = u' ∧ l = l' := by
  have hlength : u.str.toList.length = u'.str.toList.length := by
    rw [String.length_toList, String.length_toList, UUID.length_str, UUID.length_str]
  obtain ⟨hstr, hrest⟩ := List.append_inj h hlength
  exact ⟨UUID.str_injective (String.toList_injective hstr), hrest⟩

theorem LocalDevelopmentKMS.aad_inj {tenant tenant' : UUID} {version version' : Int}
    (h : aad tenant version = aad tenant' version') : tenant = tenant' ∧ version = version' := by
  have hchars := congrArg String.toList (encodeText_injective h)
  simp only [String.toList_append, List.append_assoc] at hchars
  obtain ⟨htenant, hrest⟩ := str_append_inj (List.append_cancel_left hchars)
  exact ⟨htenant, toString_injective (List.append_cancel_left hrest)⟩

/-- For one key version the field is what is left between the ids and the version. -/
theorem TenantEnvelopeEncryptor.aad_inj {tenant tenant' record record' : UUID}
    {field field' : String} {version : Int}
    (h : aad tenant record field version = aad tenant' record' field' version) :
    tenant = tenant' ∧ record = record' ∧ field = field' := by
  have hchars := congrArg String.toList (encodeText_injective h)
  simp only [String.toList_append, List.append_assoc] at hchars
  obtain ⟨htenant, hrest⟩ := str_append_inj (List.append_cancel_left hchars)
  obtain ⟨hrecord, hlast⟩ := str_append_inj (List.append_cancel_left hrest)
  have hfield := List.append_cancel_right (List.append_cancel_left hlast)
  exact ⟨htenant, hrecord, String.toList_injective hfield⟩

/-! ## The stored text -/

/-- What `decode` accepts: a positive version, a wrapped key with nonce and tag, a nonce, and a
ciphertext with a tag. -/
structure EnvelopeCiphertext.WellFormed (value : EnvelopeCiphertext) : Prop where
  version : 1 ≤ value.keyVersion
  wrapped : 12 + 16 ≤ value.wrappedDek.length
  nonce : value.nonce.length = 12
  ciphertext : 16 ≤ value.ciphertext.length

/-- The members of the text, in key order. -/
def EnvelopeCiphertext.members (value : EnvelopeCiphertext) : List (String × JsonValue) :=
  [("c", .str (b64 value.ciphertext)), ("k", .int value.keyVersion), ("n", .str (b64 value.nonce)),
    ("v", .int 1), ("w", .str (b64 value.wrappedDek))]

theorem isPlain_b64 (data : Bytes) :
    ∀ c ∈ (EnvelopeCiphertext.b64 data).toList, JsonValue.isPlain c = true := by
  have hsymbol : ∀ n < 64, JsonValue.isPlain (Base64.symbol n) = true := by decide
  intro c hc
  unfold EnvelopeCiphertext.b64 at hc
  rw [String.toList_ofList] at hc
  rcases Base64.mem_encode hc with rfl | ⟨n, hn, rfl⟩
  · decide
  · exact hsymbol n hn

theorem EnvelopeCiphertext.encode_eq (value : EnvelopeCiphertext) :
    value.encode = JsonValue.dumpsCompact (.obj value.members) := by
  have hsort : ∀ v k w n c : List Char,
      ([("v", v), ("k", k), ("w", w), ("n", n), ("c", c)] : List (String × List Char)).insertionSort
        (fun a b => a.1 ≤ b.1) =
      ([("c", c), ("k", k), ("n", n), ("v", v), ("w", w)] : List (String × List Char)).insertionSort
        (fun a b => a.1 ≤ b.1) := by
    intro v k w n c
    simp [List.insertionSort, List.orderedInsert]
  unfold encode members JsonValue.dumpsCompact
  simp only [JsonValue.print, JsonValue.printMembers, hsort]

theorem EnvelopeCiphertext.isFlat_members {value : EnvelopeCiphertext} (h : 1 ≤ value.keyVersion) :
    ∀ e ∈ value.members, JsonValue.IsFlat e := by
  obtain ⟨n, hn⟩ := Int.eq_ofNat_of_zero_le (by omega : 0 ≤ value.keyVersion)
  have hpos : 0 < n := by omega
  have hkeys : ∀ key ∈ ["c", "k", "n", "v", "w"], ∀ c ∈ key.toList, JsonValue.isPlain c = true := by
    simp [JsonValue.isPlain]
  intro e he
  unfold members at he
  rw [hn] at he
  simp only [List.mem_cons, List.not_mem_nil, or_false] at he
  rcases he with rfl | rfl | rfl | rfl | rfl
  · exact ⟨hkeys "c" (by simp), .str (isPlain_b64 _)⟩
  · exact ⟨hkeys "k" (by simp), .int hpos⟩
  · exact ⟨hkeys "n" (by simp), .str (isPlain_b64 _)⟩
  · exact ⟨hkeys "v" (by simp), .int Nat.one_pos⟩
  · exact ⟨hkeys "w" (by simp), .str (isPlain_b64 _)⟩

/-- The stored text reads back as its members. -/
theorem EnvelopeCiphertext.loads_encode {value : EnvelopeCiphertext} (h : 1 ≤ value.keyVersion) :
    JsonValue.loads value.encode = some (.obj value.members) := by
  have hsorted : value.members.Pairwise fun a b => a.1 ≤ b.1 := by
    simp [members]
  rw [encode_eq]
  exact JsonValue.loads_flat (isFlat_members h) hsorted

theorem decode_b64 (data : Bytes) :
    Base64.decode (EnvelopeCiphertext.b64 data).toList = some data := by
  unfold EnvelopeCiphertext.b64
  rw [String.toList_ofList]
  exact Base64.decode_encode data

/-- `decode` reads what `encode` prints. -/
theorem EnvelopeCiphertext.decode_encode {value : EnvelopeCiphertext} (h : value.WellFormed) :
    decode value.encode = .ok value := by
  have hv : JsonValue.member "v" value.members = some (.int 1) := by
    simp [members, JsonValue.member]
  have hk : JsonValue.member "k" value.members = some (.int value.keyVersion) := by
    simp [members, JsonValue.member]
  have hw : decodeField value.members "w" = some value.wrappedDek := by
    simp [decodeField, members, JsonValue.member, decode_b64]
  have hn : decodeField value.members "n" = some value.nonce := by
    simp [decodeField, members, JsonValue.member, decode_b64]
  have hc : decodeField value.members "c" = some value.ciphertext := by
    simp [decodeField, members, JsonValue.member, decode_b64]
  -- well-formed parts pass the checks of the lengths
  have hlengths : ¬ (value.wrappedDek.length < 12 + 16 ∨ value.nonce.length ≠ 12 ∨
      value.ciphertext.length < 16) := by
    have := h.wrapped
    have := h.nonce
    have := h.ciphertext
    omega
  have hversion : ¬ value.keyVersion < 1 := by
    have := h.version
    omega
  have hparse : parse value.encode = some value := by
    unfold parse
    rw [loads_encode h.version]
    simp only [bind, Option.bind, hv, hk, hw, hn, hc]
    rw [if_neg hversion, if_neg hlengths]
  unfold decode
  rw [hparse]

/-! ## What encryption returns -/

variable {encryptor : TenantEnvelopeEncryptor} {env env' : Environment}

/-- The envelope of an encryption that starts at a tick, with the wrapped key. -/
def TenantEnvelopeEncryptor.envelopeOf (encryptor : TenantEnvelopeEncryptor) (env : Environment)
    (t : Nat) (tenant record : UUID) (field plaintext : String) (version : Int)
    (wrapped : Bytes) : EnvelopeCiphertext where
  keyVersion := version
  wrappedDek := wrapped
  nonce := env.urandom (t + 1) 12
  ciphertext := encryptor.aes.encrypt (env.urandom t 32) (env.urandom (t + 1) 12)
    (encodeText plaintext) (aad tenant record field version)

/-- An encryption has drawn a key and a nonce and has had the key wrapped. -/
theorem encrypt_ok {tenant record : UUID} {field plaintext : String} {version : Int} {t t' : Nat}
    {c : EnvelopeCiphertext}
    (h : (encryptor.encrypt env tenant record field plaintext version).run t = .ok (c, t')) :
    1 ≤ version ∧ t' = t + 3 ∧ env.kmsFails (t + 2) = false ∧ ∃ wrapped,
      encryptor.kms.wrap (env.urandom (t + 2)) tenant version (env.urandom t 32) = .ok wrapped ∧
      c = encryptor.envelopeOf env t tenant record field plaintext version wrapped := by
  unfold TenantEnvelopeEncryptor.encrypt at h
  -- a version or a field that cannot be used is refused
  by_cases hbad : version < 1 ∨ field = "" ∨ '/' ∈ field.toList
  · rw [if_pos hbad] at h
    cases h
  · rw [if_neg hbad] at h
    obtain ⟨dek, t₁, hdek, h₁⟩ := Txn.bind_ok.mp h
    cases hdek
    obtain ⟨nonce, t₂, hnonce, h₂⟩ := Txn.bind_ok.mp h₁
    cases hnonce
    obtain ⟨wrapped, t₃, hwrap, h₃⟩ := Txn.bind_ok.mp h₂
    obtain ⟨rfl, rfl⟩ := Txn.pure_ok.mp h₃
    -- the request to the KMS may fail, and the KMS may refuse it
    change (if env.kmsFails (t + 2) = true then _ else _) = _ at hwrap
    cases hkms : env.kmsFails (t + 2) with
    | true =>
      rw [if_pos hkms] at hwrap
      cases hwrap
    | false =>
      rw [hkms, if_neg Bool.false_ne_true] at hwrap
      cases hwrapped : encryptor.kms.wrap (env.urandom (t + 2)) tenant version
          (env.urandom t 32) with
      | error e =>
        rw [hwrapped] at hwrap
        cases hwrap
      | ok w =>
        rw [hwrapped] at hwrap
        cases hwrap
        exact ⟨by omega, rfl, rfl, wrapped, rfl, rfl⟩

/-- What `decrypt` returns while the KMS answers. -/
def TenantEnvelopeEncryptor.openEnvelope (encryptor : TenantEnvelopeEncryptor)
    (tenant record : UUID) (field : String) (c : EnvelopeCiphertext) : Option String :=
  if c.keyVersion < 1 ∨ c.nonce.length ≠ 12 ∨ c.ciphertext.length < 16 then none
  else
    match encryptor.kms.unwrap tenant c.keyVersion c.wrappedDek with
    | .error _ => none
    | .ok dek =>
      if dek.length ≠ 32 then none
      else
        (encryptor.aes.decrypt dek c.nonce c.ciphertext
          (aad tenant record field c.keyVersion)).bind decodeText

/-- An envelope opens when its shape is right, its key is unwrapped and its data is authentic. -/
theorem openEnvelope_eq_some {tenant record : UUID} {field plaintext : String}
    {c : EnvelopeCiphertext} :
    encryptor.openEnvelope tenant record field c = some plaintext ↔
      1 ≤ c.keyVersion ∧ c.nonce.length = 12 ∧ 16 ≤ c.ciphertext.length ∧
      ∃ dek data, encryptor.kms.unwrap tenant c.keyVersion c.wrappedDek = .ok dek ∧
        dek.length = 32 ∧
        encryptor.aes.decrypt dek c.nonce c.ciphertext
          (TenantEnvelopeEncryptor.aad tenant record field c.keyVersion) = some data ∧
        decodeText data = some plaintext := by
  unfold TenantEnvelopeEncryptor.openEnvelope
  -- the shape of the envelope is checked before the key is asked for
  by_cases hshape : c.keyVersion < 1 ∨ c.nonce.length ≠ 12 ∨ c.ciphertext.length < 16
  · rw [if_pos hshape]
    constructor
    · intro h
      cases h
    · rintro ⟨h₁, h₂, h₃, -⟩
      omega
  · rw [if_neg hshape]
    cases hunwrap : encryptor.kms.unwrap tenant c.keyVersion c.wrappedDek with
    | error e =>
      constructor
      · intro h
        cases h
      · rintro ⟨-, -, -, dek, data, h, -⟩
        cases h
    | ok dek =>
      dsimp only
      constructor
      · intro h
        -- the unwrapped key must have 32 bytes
        by_cases hlength : dek.length ≠ 32
        · rw [if_pos hlength] at h
          cases h
        · rw [if_neg hlength] at h
          obtain ⟨data, hdata, htext⟩ := Option.bind_eq_some_iff.mp h
          exact ⟨by omega, by omega, by omega, dek, data, rfl, by omega, hdata, htext⟩
      · rintro ⟨-, -, -, dek', data, h, hlength, hdata, htext⟩
        cases h
        rw [if_neg (not_not.mpr hlength), hdata, Option.bind_some]
        exact htext

/-- A decryption succeeds exactly when the KMS answers and the envelope opens. -/
theorem decrypt_ok_iff {tenant record : UUID} {field plaintext : String} {c : EnvelopeCiphertext}
    {t t' : Nat} :
    (encryptor.decrypt env tenant record field c).run t = .ok (plaintext, t') ↔
      env.kmsFails t = false ∧ t' = t + 1 ∧
        encryptor.openEnvelope tenant record field c = some plaintext := by
  unfold TenantEnvelopeEncryptor.decrypt TenantEnvelopeEncryptor.openEnvelope
  by_cases hshape : c.keyVersion < 1 ∨ c.nonce.length ≠ 12 ∨ c.ciphertext.length < 16
  · rw [if_pos hshape, if_pos hshape]
    constructor
    · intro h
      cases h
    · rintro ⟨-, -, h⟩
      cases h
  -- the same three ways to fail, and the same text
  · rw [if_neg hshape, if_neg hshape, Txn.bind_ok]
    cases hkms : env.kmsFails t with
    | true =>
      have hrequest : (encryptor.requestUnwrap env tenant c.keyVersion c.wrappedDek).run t =
          .error (.kmsUnavailableError "key unwrap failed") := by
        show (if env.kmsFails t = true then _ else _) = _
        rw [if_pos hkms]
      rw [hrequest]
      constructor
      · rintro ⟨_, _, h, -⟩
        cases h
      · rintro ⟨h, -⟩
        cases h
    | false =>
      cases hunwrap : encryptor.kms.unwrap tenant c.keyVersion c.wrappedDek with
      | error e =>
        have hrequest : (encryptor.requestUnwrap env tenant c.keyVersion c.wrappedDek).run t =
            .error (.kmsUnavailableError "key unwrap failed") := by
          show (if env.kmsFails t = true then _ else _) = _
          rw [hkms, if_neg Bool.false_ne_true, hunwrap]
        rw [hrequest]
        constructor
        · rintro ⟨_, _, h, -⟩
          cases h
        · rintro ⟨-, -, h⟩
          cases h
      | ok dek =>
        have hrequest : (encryptor.requestUnwrap env tenant c.keyVersion c.wrappedDek).run t =
            .ok (dek, t + 1) := by
          show (if env.kmsFails t = true then _ else _) = _
          rw [hkms, if_neg Bool.false_ne_true, hunwrap]
        rw [hrequest]
        dsimp only
        by_cases hlength : dek.length ≠ 32
        · rw [if_pos hlength]
          constructor
          · rintro ⟨_, _, h, hrest⟩
            cases h
            rw [if_pos hlength] at hrest
            cases hrest
          · rintro ⟨-, -, h⟩
            cases h
        · rw [if_neg hlength]
          constructor
          · rintro ⟨_, _, h, hrest⟩
            cases h
            rw [if_neg hlength] at hrest
            -- the associated data and the encoding decide the rest
            cases hdata : (encryptor.aes.decrypt dek c.nonce c.ciphertext
                (TenantEnvelopeEncryptor.aad tenant record field c.keyVersion)).bind decodeText with
            | none =>
              rw [hdata] at hrest
              cases hrest
            | some p =>
              rw [hdata] at hrest
              obtain ⟨rfl, rfl⟩ := Txn.pure_ok.mp hrest
              exact ⟨rfl, rfl, rfl⟩
          · rintro ⟨-, rfl, h⟩
            refine ⟨dek, t + 1, rfl, ?_⟩
            rw [if_neg hlength, h]
            rfl

/-- A decryption raises nothing but permission errors. -/
theorem decrypt_raises (tenant record : UUID) (field : String) (c : EnvelopeCiphertext) :
    Txn.Raises (fun e => e.isPermissionError = true)
      (encryptor.decrypt env tenant record field c) := by
  unfold TenantEnvelopeEncryptor.decrypt
  split
  · exact .throw rfl
  · refine .bind ?_ fun dek => ?_
    · intro t e h
      change (if env.kmsFails t = true then _ else _) = _ at h
      split at h
      · cases h
        rfl
      · split at h
        · cases h
          rfl
        · cases h
    · split
      · exact .throw rfl
      · split
        · exact .throw rfl
        · exact .pure _

/-! ## Ideal AEAD -/

/-- One encryption. -/
structure Encryption where
  key : Bytes
  nonce : Bytes
  data : Bytes
  aad : Bytes
  deriving DecidableEq

/-- What it made. -/
def AESGCM.ciphertextOf (aes : AESGCM) (e : Encryption) : Bytes :=
  aes.encrypt e.key e.nonce e.data e.aad

/-- Decryption succeeds exactly for key, nonce, ciphertext and associated data of an encryption that
was made; a ciphertext was made under one associated data; the tag has 16 bytes. -/
structure AESGCM.Ideal (aes : AESGCM) (made : Set Encryption) : Prop where
  decrypt_iff : ∀ key nonce ciphertext aad data,
    aes.decrypt key nonce ciphertext aad = some data ↔
      ⟨key, nonce, data, aad⟩ ∈ made ∧ aes.encrypt key nonce data aad = ciphertext
  binds : ∀ e ∈ made, ∀ e' ∈ made, e.key = e'.key → e.nonce = e'.nonce →
    aes.ciphertextOf e = aes.ciphertextOf e' → e.aad = e'.aad
  length_encrypt : ∀ key nonce data aad, (aes.encrypt key nonce data aad).length = data.length + 16

/-- The two encryptions of `encrypt` over the local KMS: the data key's and the field's. -/
def encryptionsOf (kms : LocalDevelopmentKMS) (env : Environment) (t : Nat) (tenant record : UUID)
    (field plaintext : String) (version : Int) : List Encryption :=
  [⟨kms.masterKey, env.urandom (t + 2) 12, env.urandom t 32, LocalDevelopmentKMS.aad tenant version⟩,
    ⟨env.urandom t 32, env.urandom (t + 1) 12, encodeText plaintext,
      TenantEnvelopeEncryptor.aad tenant record field version⟩]

section Local

variable {kms : LocalDevelopmentKMS} {aes : AESGCM}

/-- The encryptor over the local KMS. -/
def localEncryptor (kms : LocalDevelopmentKMS) (aes : AESGCM) : TenantEnvelopeEncryptor :=
  ⟨aes, kms.service aes⟩

theorem wrap_ok {random : Nat → Bytes} {tenant : UUID} {version : Int} {dek wrapped : Bytes}
    (h : (kms.service aes).wrap random tenant version dek = .ok wrapped) :
    wrapped = random 12 ++ aes.encrypt kms.masterKey (random 12) dek
      (LocalDevelopmentKMS.aad tenant version) := by
  unfold LocalDevelopmentKMS.service at h
  dsimp only at h
  split at h
  · cases h
  · cases h
    rfl

/-- An unwrapped key was authentic. -/
theorem unwrap_ok {tenant : UUID} {version : Int} {wrapped dek : Bytes}
    (h : (kms.service aes).unwrap tenant version wrapped = .ok dek) :
    aes.decrypt kms.masterKey (wrapped.take 12) (wrapped.drop 12)
      (LocalDevelopmentKMS.aad tenant version) = some dek := by
  unfold LocalDevelopmentKMS.service at h
  dsimp only at h
  split at h
  · cases h
  · cases hdecrypt : aes.decrypt kms.masterKey (wrapped.take 12) (wrapped.drop 12)
        (LocalDevelopmentKMS.aad tenant version) with
    | none =>
      rw [hdecrypt] at h
      cases h
    | some d =>
      rw [hdecrypt] at h
      dsimp only at h
      split at h
      · cases h
      · cases h
        rfl

/-- An authentic key is unwrapped. -/
theorem unwrap_of {tenant : UUID} {version : Int} {wrapped dek : Bytes} (hversion : 1 ≤ version)
    (hlength : 12 + 16 ≤ wrapped.length) (hdek : dek.length = 32)
    (h : aes.decrypt kms.masterKey (wrapped.take 12) (wrapped.drop 12)
      (LocalDevelopmentKMS.aad tenant version) = some dek) :
    (kms.service aes).unwrap tenant version wrapped = .ok dek := by
  unfold LocalDevelopmentKMS.service
  dsimp only
  rw [if_neg (by omega), h]
  dsimp only
  rw [if_neg (not_not.mpr hdek)]

variable {made : Set Encryption} {tenant record : UUID} {field plaintext : String} {version : Int}
  {t t' : Nat} {c : EnvelopeCiphertext}

/-- The envelope of an encryption over the local KMS. -/
theorem encrypt_local_ok
    (hc : ((localEncryptor kms aes).encrypt env tenant record field plaintext version).run t =
      .ok (c, t')) :
    1 ≤ version ∧ c.keyVersion = version ∧
      c.wrappedDek = env.urandom (t + 2) 12 ++ aes.encrypt kms.masterKey (env.urandom (t + 2) 12)
        (env.urandom t 32) (LocalDevelopmentKMS.aad tenant version) ∧
      c.nonce = env.urandom (t + 1) 12 ∧
      c.ciphertext = aes.encrypt (env.urandom t 32) (env.urandom (t + 1) 12) (encodeText plaintext)
        (TenantEnvelopeEncryptor.aad tenant record field version) := by
  obtain ⟨hversion, -, -, wrapped, hwrap, rfl⟩ := encrypt_ok hc
  exact ⟨hversion, rfl, wrap_ok hwrap, rfl, rfl⟩

/-- The envelope passes the checks of `decode`. -/
theorem wellFormed_encrypt
    (hlength : ∀ key nonce data aad, (aes.encrypt key nonce data aad).length = data.length + 16)
    (hc : ((localEncryptor kms aes).encrypt env tenant record field plaintext version).run t =
      .ok (c, t')) : c.WellFormed := by
  obtain ⟨hversion, hkey, hwrapped, hnonce, hciphertext⟩ := encrypt_local_ok hc
  constructor
  · rw [hkey]
    exact hversion
  · rw [hwrapped, List.length_append, hlength, env.length_urandom, env.length_urandom]
    omega
  · rw [hnonce, env.length_urandom]
  · rw [hciphertext, hlength]
    omega

/-- Over an ideal AEAD an envelope's text reads back, the envelope decrypts under its own tenant,
record, field and key version, and under any other it raises `PermissionError`. -/
theorem envelope_bound (hideal : aes.Ideal made)
    (hmade : ∀ e ∈ encryptionsOf kms env t tenant record field plaintext version, e ∈ made)
    (hc : ((localEncryptor kms aes).encrypt env tenant record field plaintext version).run t =
      .ok (c, t')) :
    EnvelopeCiphertext.decode c.encode = .ok c ∧
      (∀ env' u, env'.kmsFails u = false →
        ((localEncryptor kms aes).decrypt env' tenant record field c).run u =
          .ok (plaintext, u + 1)) ∧
      ∀ env' u tenant' record' field' version',
        (tenant', record', field', version') ≠ (tenant, record, field, c.keyVersion) →
        ∃ e, ((localEncryptor kms aes).decrypt env' tenant' record' field'
            { c with keyVersion := version' }).run u = .error e ∧ e.isPermissionError = true := by
  obtain ⟨hversion, hkey, hwrapped, hnonce, hciphertext⟩ := encrypt_local_ok hc
  have hformed := wellFormed_encrypt hideal.length_encrypt hc
  have hdekMade := hmade _ List.mem_cons_self
  have hfieldMade := hmade _ (List.mem_cons_of_mem _ List.mem_cons_self)
  have htake : c.wrappedDek.take 12 = env.urandom (t + 2) 12 := by
    rw [hwrapped, List.take_left' (env.length_urandom _ _)]
  have hdrop : c.wrappedDek.drop 12 = aes.encrypt kms.masterKey (env.urandom (t + 2) 12)
      (env.urandom t 32) (LocalDevelopmentKMS.aad tenant version) := by
    rw [hwrapped, List.drop_left' (env.length_urandom _ _)]
  have hdek : aes.decrypt kms.masterKey (c.wrappedDek.take 12) (c.wrappedDek.drop 12)
      (LocalDevelopmentKMS.aad tenant version) = some (env.urandom t 32) := by
    rw [htake, hdrop]
    exact (hideal.decrypt_iff _ _ _ _ _).mpr ⟨hdekMade, rfl⟩
  refine ⟨EnvelopeCiphertext.decode_encode hformed, ?_, ?_⟩
  · intro env' u hkms
    refine decrypt_ok_iff.mpr ⟨hkms, rfl, openEnvelope_eq_some.mpr
      ⟨hformed.version, hformed.nonce, hformed.ciphertext, env.urandom t 32, encodeText plaintext,
        unwrap_of hformed.version hformed.wrapped (env.length_urandom t 32) (hkey ▸ hdek),
        env.length_urandom t 32, ?_, decodeText_encodeText plaintext⟩⟩
    rw [hkey, hnonce, hciphertext]
    exact (hideal.decrypt_iff _ _ _ _ _).mpr ⟨hfieldMade, rfl⟩
  · intro env' u tenant' record' field' version' hother
    cases hrun : ((localEncryptor kms aes).decrypt env' tenant' record' field'
        { c with keyVersion := version' }).run u with
    | error e => exact ⟨e, rfl, decrypt_raises _ _ _ _ u e hrun⟩
    | ok p =>
      exfalso
      obtain ⟨-, -, hopened⟩ := decrypt_ok_iff.mp hrun
      obtain ⟨-, -, -, dek', data', hunwrap, -, hdata, -⟩ := openEnvelope_eq_some.mp hopened
      -- the data key binds tenant and version
      have hunwrapped := unwrap_ok hunwrap
      rw [htake, hdrop] at hunwrapped
      obtain ⟨hdekMade', hdekSame⟩ := (hideal.decrypt_iff _ _ _ _ _).mp hunwrapped
      have hdekAad := hideal.binds _ hdekMade' _ hdekMade rfl rfl hdekSame
      obtain ⟨rfl, rfl⟩ := LocalDevelopmentKMS.aad_inj hdekAad
      have hdekEq : dek' = env.urandom t 32 := by
        rw [htake, hdrop] at hdek
        exact Option.some.inj (hunwrapped.symm.trans hdek)
      -- and the field's ciphertext the rest
      dsimp only [localEncryptor] at hdata
      rw [hdekEq, hnonce, hciphertext] at hdata
      obtain ⟨hfieldMade', hfieldSame⟩ := (hideal.decrypt_iff _ _ _ _ _).mp hdata
      have hfieldAad := hideal.binds _ hfieldMade' _ hfieldMade rfl rfl hfieldSame
      obtain ⟨-, rfl, rfl⟩ := TenantEnvelopeEncryptor.aad_inj hfieldAad
      exact hother (by rw [hkey])

end Local

/-! ### An ideal AEAD at the desk -/

/-- A cipher that remembers its encryptions. -/
def recordedAes (made : List Encryption) : AESGCM where
  encrypt key nonce data aad := data ++ tagOf key nonce aad
  decrypt key nonce ciphertext aad :=
    (made.find? fun e => decide (e.key = key ∧ e.nonce = nonce ∧ e.aad = aad ∧
      e.data ++ tagOf key nonce aad = ciphertext)).map Encryption.data

theorem recordedAes_ideal {made : List Encryption}
    (hbinds : ∀ e ∈ made, ∀ e' ∈ made, e.key = e'.key → e.nonce = e'.nonce → e.aad = e'.aad) :
    (recordedAes made).Ideal {e | e ∈ made} where
  decrypt_iff key nonce ciphertext aad data := by
    unfold recordedAes
    dsimp only
    rw [Option.map_eq_some_iff]
    -- found means made with the same key, nonce and associated data
    constructor
    · rintro ⟨e, hfound, rfl⟩
      have hmatch := List.find?_some hfound
      obtain ⟨rfl, rfl, rfl, hsame⟩ := of_decide_eq_true hmatch
      exact ⟨List.mem_of_find?_eq_some hfound, hsame⟩
    -- what is searched for was made, so it is found
    · rintro ⟨hmem, hsame⟩
      have hsome : (made.find? fun e => decide (e.key = key ∧ e.nonce = nonce ∧ e.aad = aad ∧
          e.data ++ tagOf key nonce aad = ciphertext)).isSome :=
        List.find?_isSome.mpr ⟨_, hmem, decide_eq_true ⟨rfl, rfl, rfl, hsame⟩⟩
      obtain ⟨e, hfound⟩ := Option.isSome_iff_exists.mp hsome
      refine ⟨e, hfound, ?_⟩
      have hmatch := List.find?_some hfound
      obtain ⟨-, -, -, hsame'⟩ := of_decide_eq_true hmatch
      exact List.append_cancel_right (hsame'.trans hsame.symm)
  binds e he e' he' hkey hnonce _ := hbinds e he e' he' hkey hnonce
  length_encrypt key nonce data aad := by
    show (data ++ List.replicate 16 _).length = _
    rw [List.length_append, List.length_replicate]

/-- The encryptions of one field at the desk. -/
def deskEncryptions : List Encryption :=
  encryptionsOf deskKms (deskEnv 7) 0 ⟨1⟩ ⟨2⟩ "content" "A" 1

/-- The desk's envelope reads back, opens, and does not open as another field. -/
theorem deskEnvelope_bound :
    (∃ c t', ((localEncryptor deskKms (recordedAes deskEncryptions)).encrypt (deskEnv 7) ⟨1⟩ ⟨2⟩
        "content" "A" 1).run 0 = .ok (c, t') ∧
      EnvelopeCiphertext.decode c.encode = .ok c ∧
      ((localEncryptor deskKms (recordedAes deskEncryptions)).decrypt (deskEnv 7) ⟨1⟩ ⟨2⟩
        "content" c).run 0 = .ok ("A", 1) ∧
      ∃ e, ((localEncryptor deskKms (recordedAes deskEncryptions)).decrypt (deskEnv 7) ⟨1⟩ ⟨2⟩
        "provenance" c).run 0 = .error e ∧ e.isPermissionError = true) := by
  have hbinds : ∀ e ∈ deskEncryptions, ∀ e' ∈ deskEncryptions, e.key = e'.key →
      e.nonce = e'.nonce → e.aad = e'.aad := by decide +kernel
  obtain ⟨c, t', hc⟩ : ∃ c t', ((localEncryptor deskKms (recordedAes deskEncryptions)).encrypt
      (deskEnv 7) ⟨1⟩ ⟨2⟩ "content" "A" 1).run 0 = .ok (c, t') := ⟨_, _, rfl⟩
  obtain ⟨hcodec, hopens, hother⟩ := envelope_bound (recordedAes_ideal hbinds) (fun _ he => he) hc
  refine ⟨c, t', hc, hcodec, hopens (deskEnv 7) 0 rfl, ?_⟩
  exact hother (deskEnv 7) 0 ⟨1⟩ ⟨2⟩ "provenance" c.keyVersion (by simp)

end OpenMemory.Cloud
