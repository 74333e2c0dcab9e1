import OpenMemory.Application.Reference
import OpenMemory.Postgres.Repository

/-!
# Envelopes (`cloud/security.py`)

What the repositories rely on of the encryptor of a deployment. An envelope carries the version
of the tenant's key that it was encrypted under (`Labels`), and opening an envelope gives back
what was sealed (`Opens`).

The encryptor of the examples hides nothing: an envelope is the plaintext behind its label.
-/

namespace OpenMemory.Postgres

open Lib

/-! ## What is relied on -/

namespace TenantEnvelopeEncryptor

variable (encryptor : TenantEnvelopeEncryptor)

/-- `EnvelopeCiphertext.decode(text).key_version` is the version that the text was encrypted
under. -/
structure Labels (keyVersion : String → Int) : Prop where
  content : ∀ tenantId recordId plaintext k text,
    encryptor.encryptContent tenantId recordId plaintext k = .ok text → keyVersion text = k
  provenance : ∀ tenantId recordId plaintext k text,
    encryptor.encryptProvenance tenantId recordId plaintext k = .ok text → keyVersion text = k

/-- Decryption inverts encryption for the same tenant and record. -/
structure Opens : Prop where
  content : ∀ tenantId recordId plaintext k text,
    encryptor.encryptContent tenantId recordId plaintext k = .ok text →
      encryptor.decryptContent tenantId recordId text = .ok plaintext
  provenance : ∀ tenantId recordId plaintext k text,
    encryptor.encryptProvenance tenantId recordId plaintext k = .ok text →
      encryptor.decryptProvenance tenantId recordId text = .ok plaintext

end TenantEnvelopeEncryptor

/-! ## Round trips -/

section RoundTrip

variable {R : Type} [Python R]

/-- An identifier that is not blank is kept by `value or None`. -/
theorem truthyKey_of_not_blank {key : Option String} (h : someAnd isBlank key = false) :
    MemoryApplicationService.truthyKey key = key := by
  cases key with
  | none => rfl
  | some text =>
    refine Option.filter_some_pos (decide_eq_true ?_)
    rintro rfl
    have hblank : someAnd isBlank (some "") = true := by decide
    rw [hblank] at h
    cases h

/-- Stored provenance is read as it was written. -/
theorem provenanceFromJson_toJson (p : Provenance) :
    provenanceFromJson R (provenanceToJson p) = .ok p := by
  have hread : readTimestamp R p.capturedAt.isoformat = .ok p.capturedAt := by
    unfold readTimestamp
    rw [Python.fromisoformat_isoformat p.capturedAt p.capturedAt_utc]
  have hchecked := p.checked
  simp only [ProvenanceFields.postInit, checkOpaqueId, except_bind_ok, raiseIf_except_ok]
    at hchecked
  obtain ⟨_, -, _, hid, _, hmodel, _, -, _, ⟨_, hclient, -⟩, _, ⟨_, hconnection, -⟩,
    _, ⟨_, hconversation, -⟩, _, ⟨_, hmessage, -⟩, -⟩ := hchecked
  have hmake : Provenance.make p.toProvenanceFields = .ok p :=
    construct_ok.mpr ⟨_, p.checked, p.checked, rfl⟩
  simp only [provenanceFromJson, provenanceToJson, hread, truthyKey_of_not_blank hid,
    truthyKey_of_not_blank hmodel, truthyKey_of_not_blank hclient,
    truthyKey_of_not_blank hconnection, truthyKey_of_not_blank hconversation,
    truthyKey_of_not_blank hmessage]
  exact hmake

variable {m : Type → Type} {session : Session m R} {encryptor : TenantEnvelopeEncryptor}

/-- A payload opens to what it was made of. -/
theorem openPayload_cloudFields (hencryptor : session.encryptor = some encryptor)
    (hopens : encryptor.Opens) {i : UUID} {content : String} {provenance : Provenance} {k : Int}
    {payload : Payload} (h : session.cloudFields i content provenance k = .ok payload) :
    session.openPayload session.tenant i payload = .ok (content, provenance) := by
  unfold Session.cloudFields at h
  cases htenant : session.tenant with
  | none =>
    rw [htenant] at h
    obtain rfl := except_pure_ok.mp h
    simp only [Session.openPayload, provenanceFromJson_toJson]
    rfl
  | some tenant =>
    rw [htenant, hencryptor] at h
    simp only [except_bind_ok, except_pure_ok] at h
    obtain ⟨text, htext, json, hjson, rfl⟩ := h
    simp only [Session.openPayload, hencryptor, hopens.content _ _ _ _ _ htext,
      hopens.provenance _ _ _ _ _ hjson]
    show (provenanceFromJson R (provenanceToJson provenance) >>= _) = _
    rw [provenanceFromJson_toJson]
    rfl

/-- The content and provenance of a memory that is read from a row. -/
theorem openPayload_of_memoryFromRow {i : UUID} {row : MemoryRow R} {memory : Memory R}
    (h : session.memoryFromRow i row = .ok memory) :
    memory.id = i ∧ (session.openPayload row.tenantId i row.payload).map (fun opened =>
      (collapse opened.1, opened.2)) = .ok (memory.content, memory.provenance) := by
  simp only [Session.memoryFromRow, except_bind_ok] at h
  obtain ⟨_, -, ⟨content, provenance⟩, hpayload, _, -, _, -, hmake⟩ := h
  rw [hpayload, Memory.make_ok hmake]
  exact ⟨rfl, rfl⟩

/-- The same of a version. -/
theorem openPayload_of_versionFromRow {i : UUID} {v : Int} {row : VersionRow R}
    {version : MemoryVersion R} (h : session.versionFromRow i v row = .ok version) :
    version.memoryId = i ∧ version.version = v ∧
      session.openPayload row.tenantId i row.payload = .ok (version.content, version.provenance) := by
  simp only [Session.versionFromRow, except_bind_ok, except_pure_ok] at h
  obtain ⟨_, -, ⟨content, provenance⟩, hpayload, _, -, rfl⟩ := h
  exact ⟨rfl, rfl, hpayload⟩

end RoundTrip

/-! ## Records as texts -/

/-- The fields of a record as one text. -/
def writeFields : List (List Char) → List Char
  | [] => []
  | field :: rest => (field.flatMap fun c => ['.', c]) ++ '!' :: writeFields rest

/-- The fields of the text, the first of which continues the one read so far. -/
def readFields (sofar : List Char) : List Char → List (List Char)
  | '.' :: c :: rest => readFields (sofar ++ [c]) rest
  | '!' :: rest => sofar :: readFields [] rest
  | _ => []

theorem readFields_append (sofar field rest : List Char) :
    readFields sofar ((field.flatMap fun c => ['.', c]) ++ '!' :: rest) =
      (sofar ++ field) :: readFields [] rest := by
  induction field generalizing sofar with
  | nil => rw [List.append_nil, List.flatMap_nil, List.nil_append, readFields]
  | cons c field ih =>
    rw [List.flatMap_cons, List.append_assoc]
    show readFields (sofar ++ [c]) ((field.flatMap fun c => ['.', c]) ++ '!' :: rest) = _
    rw [ih, List.append_assoc, List.singleton_append]

theorem readFields_writeFields (fields : List (List Char)) :
    readFields [] (writeFields fields) = fields := by
  induction fields with
  | nil => rfl
  | cons field rest ih =>
    unfold writeFields
    rw [readFields_append, ih, List.nil_append]

/-- A column that may be null, as a field. -/
def nullable : Option String → List Char
  | none => []
  | some text => '+' :: text.toList

/-- The column of a field. -/
def readNullable : List Char → Option String
  | [] => none
  | _ :: text => some (String.ofList text)

theorem readNullable_nullable (column : Option String) :
    readNullable (nullable column) = column := by
  cases column with
  | none => rfl
  | some text => exact congrArg some String.ofList_toList

/-- The fields of a provenance. -/
def ProvenanceJson.fields (p : ProvenanceJson) : List (List Char) :=
  p.sourceType.value.toList :: nullable p.sourceId :: nullable p.sourceModel ::
    nullable p.sourceClient :: nullable p.sourceConnectionId :: nullable p.conversationId ::
    nullable p.messageId :: p.capturedAt.toList :: p.evidence.map String.toList

/-- The provenance with the fields. -/
def ProvenanceJson.ofFields : List (List Char) → Option ProvenanceJson
  | sourceType :: sourceId :: sourceModel :: sourceClient :: sourceConnectionId ::
      conversationId :: messageId :: capturedAt :: evidence =>
    (SourceType.ofValue (String.ofList sourceType)).map fun sourceType =>
      { sourceType := sourceType, sourceId := readNullable sourceId
        sourceModel := readNullable sourceModel, sourceClient := readNullable sourceClient
        sourceConnectionId := readNullable sourceConnectionId
        conversationId := readNullable conversationId, messageId := readNullable messageId
        capturedAt := String.ofList capturedAt, evidence := evidence.map String.ofList }
  | _ => none

theorem ProvenanceJson.ofFields_fields (p : ProvenanceJson) : ofFields p.fields = some p := by
  have htype : SourceType.ofValue p.sourceType.value = some p.sourceType := by
    cases p.sourceType <;> rfl
  have hevidence : (p.evidence.map String.toList).map String.ofList = p.evidence := by
    rw [List.map_map]
    refine (List.map_congr_left fun text _ => ?_).trans (List.map_id _)
    exact String.ofList_toList
  simp only [fields, ofFields, readNullable_nullable, hevidence, String.ofList_toList, htype,
    Option.map_some]

/-! ## An encryptor that hides nothing -/

/-- The text behind a label with the version of the key. -/
def labelled (k : Int) (text : List Char) : Except PyError String :=
  if k < 1 then .error (.valueError "invalid envelope field or key version")
  else .ok (String.ofList (List.replicate k.toNat 'k' ++ ':' :: text))

/-- The version on the label. -/
def labelOf (envelope : String) : Int :=
  (envelope.toList.takeWhile fun c => decide (c = 'k')).length

/-- The text behind the label. -/
def unlabelled (envelope : String) : List Char :=
  (envelope.toList.dropWhile fun c => decide (c = 'k')).drop 1

theorem labelled_ok {k : Int} {text : List Char} {envelope : String} (h : labelled k text = .ok envelope) :
    1 ≤ k ∧ envelope.toList = List.replicate k.toNat 'k' ++ ':' :: text := by
  unfold labelled at h
  split at h
  · cases h
  · rename_i hk
    obtain rfl := Except.ok.inj h
    exact ⟨by omega, String.toList_ofList⟩

theorem labelOf_labelled {k : Int} {text : List Char} {envelope : String}
    (h : labelled k text = .ok envelope) : labelOf envelope = k := by
  obtain ⟨hk, htext⟩ := labelled_ok h
  unfold labelOf
  rw [htext, List.takeWhile_append_of_pos (fun c hc => ?_)]
  · simp
    omega
  · exact decide_eq_true (List.eq_of_mem_replicate hc)

theorem unlabelled_labelled {k : Int} {text : List Char} {envelope : String}
    (h : labelled k text = .ok envelope) : unlabelled envelope = text := by
  obtain ⟨-, htext⟩ := labelled_ok h
  unfold unlabelled
  rw [htext, List.dropWhile_append_of_pos (fun c hc => ?_)]
  · rfl
  · exact decide_eq_true (List.eq_of_mem_replicate hc)

/-- The encryptor of the examples. -/
def labelling : TenantEnvelopeEncryptor where
  encryptContent _ _ plaintext k := labelled k plaintext.toList
  decryptContent _ _ envelope := .ok (String.ofList (unlabelled envelope))
  encryptProvenance _ _ plaintext k := labelled k (writeFields plaintext.fields)
  decryptProvenance _ _ envelope :=
    match ProvenanceJson.ofFields (readFields [] (unlabelled envelope)) with
    | none => .error (.valueError "ciphertext envelope is invalid")
    | some provenance => .ok provenance

theorem labelling_labels : labelling.Labels labelOf where
  content _ _ _ _ _ h := labelOf_labelled h
  provenance _ _ _ _ _ h := labelOf_labelled h

theorem labelling_opens : labelling.Opens where
  content _ _ plaintext k text h := by
    show Except.ok (String.ofList (unlabelled text)) = _
    rw [unlabelled_labelled h, String.ofList_toList]
  provenance _ _ plaintext k text h := by
    simp only [labelling]
    rw [unlabelled_labelled h, readFields_writeFields, ProvenanceJson.ofFields_fields]

end OpenMemory.Postgres
