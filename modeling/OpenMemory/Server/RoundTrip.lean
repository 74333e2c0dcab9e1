import OpenMemory.Application.Codec
import OpenMemory.Server.Validation

/-!
# What a package brings back

A payload is a dump of the record that the models make of it (`ofDto`), if the exported record is
within the limits of the package (`Fits`). So what the models read of the payload, of the document
and of the text is that record, up to the order of members.

- `writeExport_ok`, `loadExport_dumps`: what is written of payloads, and what is read of a text.
- `importRecord_ofDto`: what is imported of the record that the models made.
- `package_round_trip`: a package brings back what was exported (`portable`), but for what it has no
  place for: tenants, consents and the opaque ids of an origin.
-/


namespace OpenMemory.Server

open Lib JsonValue
open MemoryApplicationService (isHexDigest)
open Mcp (Text Ranged UnitFloat BoundedInt LowerInt WireType WireState WireSourceType WireProvenance
  UtcText MemoryRecord literal validTimestamp enumOf orNull unitJson v0States)
open WireField

variable {R : Type} [Python R] {f : JsonValue → JsonValue} {lib : PackageReader R}

/-! ## What a package can hold -/

/-- A text that a field takes as it is. -/
structure FitsText (lo hi : Nat) (text : String) : Prop where
  trimmed : trimBoth isTrimmed text = text
  bounded : lo ≤ text.length ∧ text.length ≤ hi

def FitsText.text {lo hi : Nat} {text : String} (h : FitsText lo hi text) : Text lo hi :=
  ⟨text, h.trimmed, h.bounded⟩

/-- The memories that the models of a package take as they are. -/
structure MemoryFits (m : Memory R) : Prop where
  ownerId : FitsText 1 128 m.ownerId
  content : m.content.length ≤ Mcp.maxContentLength
  type : m.memoryType ≠ .mentalNote
  state : m.state ∈ v0States
  space : ∀ t, m.space = some t → FitsText 0 128 t
  sourceId : ∀ t, m.provenance.sourceId = some t → FitsText 0 256 t
  sourceModel : ∀ t, m.provenance.sourceModel = some t → FitsText 0 128 t
  evidence : ∀ t ∈ m.provenance.evidence, trimBoth isTrimmed t = t
  evidenceText : FitsText 0 2000 (joinSpace m.provenance.evidence)
  idempotencyKey : ∀ t, m.idempotencyKey = some t → FitsText 0 256 t
  profileId : ∀ d, m.embedding = some d → FitsText 1 128 d.profileId
  profileVersion : ∀ d, m.embedding = some d → FitsText 1 64 d.profileVersion
  dimension : ∀ d, m.embedding = some d → d.dimension ≤ 16384

structure VersionFits (v : MemoryVersion R) : Prop where
  version : 1 ≤ v.version
  content : FitsText 1 Mcp.maxContentLength v.content
  importance : Python.inUnit v.importance = true
  confidence : Python.inUnit v.confidence = true
  space : ∀ t, v.space = some t → FitsText 0 128 t
  changeReason : FitsText 1 256 v.changeReason

structure Fits (record : MemoryRecordDto R) : Prop where
  memory : MemoryFits record.memory
  history : ∀ v ∈ record.history, VersionFits v
  relations : ∀ r ∈ record.relations, FitsText 1 256 r.ownerId
  writeFingerprint : ∀ digest, record.writeFingerprint = some digest → isHexDigest digest = true

/-! ### The records of the models -/

/-- The text of an id fits its field. -/
theorem fits_str (u : UUID) : FitsText 1 128 u.str where
  trimmed := Mcp.trimBoth_str u
  bounded := by
    have hlength := u.length_str
    omega

/-- So does a time, printed with a `Z`. -/
theorem fits_zulu (d : DateTime) {lo : Nat} (hlo : lo ≤ 1) : FitsText lo 80 d.zulu where
  trimmed := Mcp.trimBoth_zulu d
  bounded := by
    have hpos : d.zulu.length ≠ 0 := fun h => d.zulu_ne_empty (by simpa using h)
    have hle := d.length_zulu_le
    omega

theorem fits_typeValue (t : MemoryType) : FitsText 1 64 t.value := by
  cases t <;> exact ⟨by decide, by decide⟩

theorem fits_stateValue (s : MemoryState) : FitsText 1 64 s.value := by
  cases s <;> exact ⟨by decide, by decide⟩

theorem fits_relationValue (t : RelationType) : FitsText 1 64 t.value := by
  cases t <;> exact ⟨by decide, by decide⟩

/-- The content of a memory that fits is no longer than the schema allows. -/
theorem fits_content {m : Memory R} (h : MemoryFits m) :
    FitsText 1 Mcp.maxContentLength m.content where
  trimmed := Mcp.trimBoth_content m
  bounded := by
    have hpos := Mcp.one_le_length_of_not_blank m.not_blank.2
    rw [Mcp.trimBoth_content] at hpos
    exact ⟨hpos, h.content⟩

/-- A text that is there. -/
def fitted {lo hi : Nat} (text : Option String) (h : ∀ t, text = some t → FitsText lo hi t) :
    Option (Text lo hi) := text.pmap (fun _ hfits => FitsText.text hfits) h

theorem one_le_dimension (d : EmbeddingDescriptor) : 1 ≤ d.dimension := by
  have h := d.checked
  simp only [DescriptorFields.postInit, except_bind_ok, raiseIf_except_ok] at h
  obtain ⟨_, -, _, hdimension, -⟩ := h
  have hpos := of_decide_eq_false hdimension
  omega

theorem isMetric_metric (d : EmbeddingDescriptor) : isMetric d.metric = true := by
  have h := d.checked
  simp only [DescriptorFields.postInit, except_bind_ok, raiseIf_except_ok] at h
  obtain ⟨_, -, _, -, _, hmetric, -⟩ := h
  exact decide_eq_true (not_not.mp (of_decide_eq_false hmetric))

def EmbeddingProfileRecord.ofDescriptor (d : EmbeddingDescriptor) (hid : FitsText 1 128 d.profileId)
    (hversion : FitsText 1 64 d.profileVersion) (hdimension : d.dimension ≤ 16384) :
    EmbeddingProfileRecord where
  profileId := hid.text
  profileVersion := hversion.text
  dimension := ⟨d.dimension, decide_eq_true ⟨one_le_dimension d, hdimension⟩⟩
  metric := ⟨d.metric, isMetric_metric d⟩

def HistoryRecord.ofVersion (v : MemoryVersion R) (h : VersionFits v) : HistoryRecord R where
  memoryId := (fits_str v.memoryId).text
  version := ⟨v.version, decide_eq_true h.version⟩
  content := h.content.text
  type := (fits_typeValue v.memoryType).text
  state := (fits_stateValue v.state).text
  importance := ⟨v.importance, h.importance⟩
  confidence := ⟨v.confidence, h.confidence⟩
  space := fitted v.space h.space
  occurredAt := v.occurredAt.map fun d => (fits_zulu d (Nat.zero_le 1)).text
  provenance := provenancePayload v.provenance (evidenceList v.provenance)
  changedAt := (fits_zulu v.changedAt le_rfl).text
  changeReason := h.changeReason.text

def RelationRecord.ofRelation (r : Relation) (h : FitsText 1 256 r.ownerId) : RelationRecord where
  sourceId := (fits_str r.sourceId).text
  targetId := (fits_str r.targetId).text
  type := (fits_relationValue r.relationType).text
  ownerId := h.text
  createdAt := (fits_zulu r.createdAt le_rfl).text

/-- A state that v0 knows has a wire state. -/
theorem isSome_wireState {s : MemoryState} (h : s ∈ v0States) :
    (WireState.ofValue s.value).isSome = true := by
  revert h
  cases s <;> decide

def wireProvenance (p : Provenance) (hid : ∀ t, p.sourceId = some t → FitsText 0 256 t)
    (hmodel : ∀ t, p.sourceModel = some t → FitsText 0 128 t)
    (hevidence : FitsText 0 2000 (joinSpace p.evidence)) : WireProvenance where
  sourceType := (WireSourceType.ofValue p.sourceType.value).get
    (Mcp.wireSourceType_ofValue_isSome _)
  capturedAt := ⟨p.capturedAt.zulu, p.capturedAt, p.capturedAt_utc, rfl⟩
  sourceId := fitted p.sourceId hid
  sourceModel := fitted p.sourceModel hmodel
  evidence := if p.evidence = [] then none else some hevidence.text

/-- The record that the models make of a payload. -/
def ExportMemoryRecord.ofDto (includeEmbeddings : Bool) (record : MemoryRecordDto R)
    (h : Fits record) : ExportMemoryRecord R where
  id := (fits_str record.memory.id).text
  ownerId := h.memory.ownerId.text
  content := (fits_content h.memory).text
  type := (WireType.ofValue record.memory.memoryType.value).get
    ((Mcp.wireType_ofValue_isSome _).mpr h.memory.type)
  space := fitted record.memory.space h.memory.space
  importance := ⟨record.memory.importance, record.memory.inUnit.1⟩
  confidence := ⟨record.memory.confidence, record.memory.inUnit.2⟩
  state := (WireState.ofValue record.memory.state.value).get (isSome_wireState h.memory.state)
  version := ⟨record.memory.version, decide_eq_true record.memory.one_le_version⟩
  createdAt := (fits_zulu record.memory.createdAt le_rfl).text
  updatedAt := (fits_zulu record.memory.updatedAt le_rfl).text
  occurredAt := record.memory.occurredAt.map fun d => (fits_zulu d (Nat.zero_le 1)).text
  provenance := wireProvenance record.memory.provenance h.memory.sourceId h.memory.sourceModel
    h.memory.evidenceText
  idempotencyKey := fitted record.memory.idempotencyKey h.memory.idempotencyKey
  provenanceEvidence :=
    record.memory.provenance.evidence.pmap (fun t ht => ⟨t, ht⟩) h.memory.evidence
  embeddingProfile := record.memory.embedding.pmap
    (fun d hd => EmbeddingProfileRecord.ofDescriptor d (h.memory.profileId d hd)
      (h.memory.profileVersion d hd) (h.memory.dimension d hd)) fun _ hd => hd
  history := record.history.pmap HistoryRecord.ofVersion h.history
  relations := record.relations.pmap RelationRecord.ofRelation h.relations
  embeddingValues := if includeEmbeddings then record.embedding else none
  writeFingerprint :=
    record.writeFingerprint.pmap (fun digest hd => ⟨digest, hd⟩) h.writeFingerprint

/-! ### Payloads as dumps -/

section

variable {lo hi : Nat} {text : Option String}

/-- Fitting a text keeps it. -/
theorem map_val_fitted (h : ∀ t, text = some t → FitsText lo hi t) :
    (fitted text h).map Text.val = text := by
  cases text <;> rfl

theorem map_textJson_fitted (h : ∀ t, text = some t → FitsText lo hi t) :
    (fitted text h).map textJson = text.map .str := by
  cases text <;> rfl

theorem orNull_eq (text : Option String) : orNull text = (text.map JsonValue.str).getD .null := rfl

end

/-- Encoding what was built from an optional item encodes the item. -/
theorem map_pmap_eq {α β γ : Type} {P : α → Prop} {g : ∀ a, P a → β} {encode : β → γ} {k : α → γ}
    {item : Option α} (h : ∀ a ∈ item, P a) (hk : ∀ a ha, encode (g a ha) = k a) :
    (item.pmap g h).map encode = item.map k := by
  cases item with
  | none => rfl
  | some a => exact congrArg some (hk a (h a rfl))

/-- A wire type keeps the text it was read from. -/
theorem value_wireType {s : String} (h : (WireType.ofValue s).isSome = true) :
    ((WireType.ofValue s).get h).value = s := by
  have hfind := List.find?_some (Option.some_get h).symm
  exact of_decide_eq_true hfind

theorem value_wireState {s : String} (h : (WireState.ofValue s).isSome = true) :
    ((WireState.ofValue s).get h).value = s := by
  have hfind := List.find?_some (Option.some_get h).symm
  exact of_decide_eq_true hfind

theorem value_wireSourceType {s : String} (h : (WireSourceType.ofValue s).isSome = true) :
    ((WireSourceType.ofValue s).get h).value = s := by
  have hfind := List.find?_some (Option.some_get h).symm
  exact of_decide_eq_true hfind

section

variable {includeEmbeddings : Bool} {record : MemoryRecordDto R}

/-- The payload of a version is a dump with its nulls. -/
theorem versionPayload_eq (v : MemoryVersion R) (h : VersionFits v) :
    versionPayload v = .obj (nulled (HistoryRecord.ofVersion v h).fields) := by
  have hspace := map_textJson_fitted h.space
  cases hoccurred : v.occurredAt with
  | none =>
    simp only [versionPayload, nulled, HistoryRecord.fields, HistoryRecord.ofVersion, hspace,
      hoccurred, List.map_cons, List.map_nil, orNull_eq]
    rfl
  | some d =>
    simp only [versionPayload, nulled, HistoryRecord.fields, HistoryRecord.ofVersion, hspace,
      hoccurred, List.map_cons, List.map_nil, orNull_eq]
    rfl

/-- A relation is exported as its record is printed. -/
theorem relationPayload_eq (r : Relation) (h : FitsText 1 256 r.ownerId) :
    relationPayload r = .obj (nulled (RelationRecord.ofRelation r h).fields) := rfl

/-- The versions of a history are exported as their records are printed. -/
theorem map_versionPayload {history : List (MemoryVersion R)} (h : ∀ v ∈ history, VersionFits v) :
    history.map versionPayload =
      (history.pmap HistoryRecord.ofVersion h).map fun v => .obj (nulled v.fields) := by
  rw [List.map_pmap, ← List.pmap_eq_map (p := VersionFits) h]
  exact List.pmap_congr_left _ fun v _ h₁ _ => versionPayload_eq v h₁

/-- The relations of a memory are exported as their records are printed. -/
theorem map_relationPayload {relations : List Relation}
    (h : ∀ r ∈ relations, FitsText 1 256 r.ownerId) :
    relations.map relationPayload =
      (relations.pmap RelationRecord.ofRelation h).map fun r => .obj (nulled r.fields) := by
  rw [List.map_pmap, ← List.pmap_eq_map (p := fun r : Relation => FitsText 1 256 r.ownerId) h]
  exact List.pmap_congr_left _ fun r _ h₁ _ => relationPayload_eq r h₁

theorem map_evidence {evidence : List String} (h : ∀ t ∈ evidence, trimBoth isTrimmed t = t) :
    (evidence.pmap (fun t ht => (⟨t, ht⟩ : Trimmed)) h).map (fun t => JsonValue.str t.val) =
      evidence.map .str := by
  rw [List.map_pmap]
  exact List.pmap_eq_map _

/-- The fields of an origin that fits are its payload. -/
theorem nulled_wireProvenance {p : Provenance}
    (hid : ∀ t, p.sourceId = some t → FitsText 0 256 t)
    (hmodel : ∀ t, p.sourceModel = some t → FitsText 0 128 t)
    (hevidence : FitsText 0 2000 (joinSpace p.evidence)) :
    nulled (provenanceFields (wireProvenance p hid hmodel hevidence)) =
      provenancePayload p (evidenceText p) := by
  have hsourceId := map_textJson_fitted hid
  have hsourceModel := map_textJson_fitted hmodel
  have hsourceType := value_wireSourceType (Mcp.wireSourceType_ofValue_isSome p.sourceType)
  have htext : ((if p.evidence = [] then none else some hevidence.text).map textJson).getD .null =
      evidenceText p := by
    unfold evidenceText
    split_ifs <;> rfl
  unfold nulled provenanceFields wireProvenance provenancePayload
  simp only [List.map_cons, List.map_nil, hsourceId, hsourceModel, hsourceType, htext, orNull_eq]
  rfl

/-- What the payload of a record holds, field by field. -/
def payloadFields (includeEmbeddings : Bool) (record : MemoryRecordDto R) :
    List (String × Option JsonValue) :=
  let m := record.memory
  [("id", some (.str m.id.str)), ("owner_id", some (.str m.ownerId)),
    ("content", some (.str m.content)), ("type", some (.str m.memoryType.value)),
    ("space", m.space.map .str), ("importance", some (floatJson m.importance)),
    ("confidence", some (floatJson m.confidence)), ("state", some (.str m.state.value)),
    ("version", some (.int m.version)), ("created_at", some (timestampJson m.createdAt)),
    ("updated_at", some (timestampJson m.updatedAt)),
    ("occurred_at", m.occurredAt.map timestampJson),
    ("provenance", some (.obj (provenancePayload m.provenance (evidenceText m.provenance)))),
    ("provenance_evidence", some (evidenceList m.provenance)),
    ("idempotency_key", m.idempotencyKey.map .str),
    ("embedding_profile", m.embedding.map profilePayload),
    ("history", some (.arr (record.history.map versionPayload))),
    ("relations", some (.arr (record.relations.map relationPayload))),
    ("write_fingerprint", record.writeFingerprint.map .str),
    ("embedding_values", if includeEmbeddings
      then record.embedding.map fun xs => .arr (xs.map floatJson) else none)]

/-- A payload shows nulls up to the fingerprint. -/
theorem exportRecordPayload_eq : exportRecordPayload includeEmbeddings record =
    nulled ((payloadFields includeEmbeddings record).take 18) ++
      present ((payloadFields includeEmbeddings record).drop 18) := rfl

/-- The record that the models make of a payload is dumped as the payload. -/
theorem fields_ofDto (h : Fits record) :
    (ExportMemoryRecord.ofDto includeEmbeddings record h).fields nulled =
      payloadFields includeEmbeddings record := by
  have hspace := map_textJson_fitted h.memory.space
  have hkey := map_textJson_fitted h.memory.idempotencyKey
  have htype := value_wireType ((Mcp.wireType_ofValue_isSome _).mpr h.memory.type)
  have hstate := value_wireState (isSome_wireState h.memory.state)
  have hprovenance := nulled_wireProvenance h.memory.sourceId h.memory.sourceModel
    h.memory.evidenceText
  -- field by field, what the record writes is what the payload has
  have hevidence := map_evidence h.memory.evidence
  have hhistory := (map_versionPayload h.history).symm
  have hrelations := (map_relationPayload h.relations).symm
  have hoccurred : (record.memory.occurredAt.map fun d =>
      (fits_zulu d (Nat.zero_le 1)).text).map textJson =
        record.memory.occurredAt.map timestampJson := by
    cases record.memory.occurredAt <;> rfl
  have hprofile : (record.memory.embedding.pmap (fun d hd =>
      EmbeddingProfileRecord.ofDescriptor d (h.memory.profileId d hd) (h.memory.profileVersion d hd)
        (h.memory.dimension d hd)) fun _ hd => hd).map (fun p => JsonValue.obj (nulled p.fields)) =
        record.memory.embedding.map profilePayload :=
    map_pmap_eq _ fun _ _ => rfl
  have hfingerprint : (record.writeFingerprint.pmap
      (fun digest hd => (⟨digest, hd⟩ : Ranged isHexDigest)) h.writeFingerprint).map
        (fun t => JsonValue.str t.val) = record.writeFingerprint.map .str :=
    map_pmap_eq _ fun _ _ => rfl
  have hvalues : (if includeEmbeddings then record.embedding else none).map
      (fun xs => JsonValue.arr (xs.map floatJson)) = if includeEmbeddings
        then record.embedding.map fun xs => .arr (xs.map floatJson) else none := by
    split_ifs <;> rfl
  unfold ExportMemoryRecord.fields ExportMemoryRecord.ofDto payloadFields
  simp only [hspace, hkey, htype, hstate, hprovenance, hevidence, hhistory, hrelations, hoccurred,
    hprofile, hfingerprint, hvalues]
  rfl

/-- How a reader finds the members of a payload. -/
theorem views_payload (h : Fits record) :
    Views id ((ExportMemoryRecord.ofDto includeEmbeddings record h).fields nulled)
      (exportRecordPayload includeEmbeddings record) := by
  have hnodup : (((payloadFields includeEmbeddings record).take 18 ++
      (payloadFields includeEmbeddings record).drop 18).map Prod.fst).Nodup := by
    have hkeys : ExportMemoryRecord.keys.Nodup := by decide
    exact hkeys
  obtain ⟨members, hobj, hviews⟩ := rearranges_id.views _ _ hnodup
  obtain rfl := JsonValue.obj.inj hobj
  rw [List.take_append_drop] at hviews
  rw [fields_ofDto, exportRecordPayload_eq]
  exact hviews

theorem ExportMemoryRecord.rearrange_id (r : ExportMemoryRecord R) : r.rearrange id = r := by
  have hhistory : r.history.map (HistoryRecord.rearrange id) = r.history := List.map_id _
  unfold rearrange
  rw [hhistory]

/-- A payload of a record that fits is valid. -/
theorem modelValidate_payload (h : Fits record)
    (hnumbers : ∀ x ∈ (ExportMemoryRecord.ofDto includeEmbeddings record h).numbers,
      PrintsFloat lib x) :
    ExportMemoryRecord.modelValidate lib (.obj (exportRecordPayload includeEmbeddings record)) =
      .ok (ExportMemoryRecord.ofDto includeEmbeddings record h) := by
  rw [ExportMemoryRecord.modelValidate_views rearranges_id (writes_nulled rearranges_id) hnumbers
    (views_payload h), ExportMemoryRecord.rearrange_id]

end

/-! ## What comes back -/

/-- An origin without its opaque ids. -/
def portableFields (p : Provenance) : ProvenanceFields :=
  { sourceType := p.sourceType, capturedAt := p.capturedAt, sourceId := p.sourceId
    sourceModel := p.sourceModel, evidence := p.evidence }

/-- What is left of an origin in a package passes the checks of the domain. -/
theorem portableFields_checked (p : Provenance) :
    (portableFields p).postInit = .ok (portableFields p) := by
  have h := p.checked
  simp only [ProvenanceFields.postInit, except_bind_ok, except_pure_ok] at h ⊢
  obtain ⟨at_, hat, _, h₁, _, h₂, _, h₃, _, -, _, -, _, -, _, -, _, h₈, heq⟩ := h
  have hcaptured : p.capturedAt = at_ := congrArg ProvenanceFields.capturedAt heq
  refine ⟨at_, hat, _, h₁, _, h₂, _, h₃, _, rfl, _, rfl, _, rfl, _, rfl, _, h₈, ?_⟩
  rw [← hcaptured]
  rfl

def portableProvenance (p : Provenance) : Provenance := ⟨portableFields p, portableFields_checked p⟩

/-- What is left of a memory in a package passes the checks of the domain. -/
theorem portableMemory_checked (m : Memory R) :
    ({ m.toMemoryFields with
        provenance := portableProvenance m.provenance, tenantId := none, captureConsent := none } :
      MemoryFields R).postInit = .ok
        { m.toMemoryFields with
          provenance := portableProvenance m.provenance, tenantId := none
          captureConsent := none } := by
  have h := m.checked
  have hcontent := m.collapse_content
  simp only [MemoryFields.postInit, except_bind_ok, except_pure_ok] at h ⊢
  obtain ⟨_, h₁, _, -, _, h₃, _, h₄, _, h₅, _, h₆, _, h₇, _, h₈, _, h₉, _, h₁₀, _, h₁₁, _, h₁₂, _,
    h₁₃, -⟩ := h
  exact ⟨_, h₁, _, rfl, _, h₃, _, h₄, _, h₅, _, h₆, _, h₇, _, h₈, _, h₉, _, h₁₀, _, h₁₁, _, h₁₂, _,
    h₁₃, by rw [hcontent]⟩

/-- A memory without its tenant, its consent and the opaque ids of its origin. -/
def portableMemory (m : Memory R) : Memory R := ⟨_, portableMemory_checked m⟩

def portableVersion (v : MemoryVersion R) : MemoryVersion R :=
  { v with provenance := portableProvenance v.provenance, captureConsent := none }

def portable (includeEmbeddings : Bool) (record : MemoryRecordDto R) : MemoryRecordDto R where
  memory := portableMemory record.memory
  history := record.history.map portableVersion
  relations := record.relations
  embedding := if includeEmbeddings then record.embedding else none
  writeFingerprint := record.writeFingerprint

/-! ### Reading -/

/-- A time that `fromisoformat` reads is read back from its text with a `Z`. -/
theorem requiredTime_zulu {d : DateTime} (h : Python.fromisoformat R d.isoformat = some d) :
    requiredTime R d.zulu = .ok d := by
  unfold requiredTime Mcp.datetime
  rw [if_neg d.zulu_ne_empty, fromZ_zulu, h]

/-- So is one that may be missing. -/
theorem parseTime_zulu {time : Option DateTime}
    (h : ∀ d, time = some d → Python.fromisoformat R d.isoformat = some d) :
    parseTime R (time.map DateTime.zulu) = .ok time := by
  cases time with
  | none => rfl
  | some d =>
    rw [Option.map_some, parseTime, if_neg d.zulu_ne_empty]
    unfold Mcp.datetime
    rw [fromZ_zulu, h d rfl]
    rfl

/-- An id that `UUID` reads is read back from its text. -/
theorem uuidField_str {u : UUID} (h : Python.parseUuid R u.str = some u) :
    uuidField R u.str = .ok u := by
  unfold uuidField
  rw [h]

/-- A member of an enumeration is read back from its value. -/
theorem enumOf_value {α : Type} {ofValue : String → Option α} {s : String} {a : α}
    (h : ofValue s = some a) : enumOf ofValue s = .ok a := by
  unfold enumOf
  rw [h]

theorem RelationType.ofValue_value (t : RelationType) : RelationType.ofValue t.value = some t := by
  cases t <;> rfl

/-- A text that may be null is read back. -/
theorem sourceText_orNull (text : Option String) : sourceText (some (orNull text)) = some text := by
  cases text <;> rfl

/-- A field that is there is found. -/
theorem itemField_of {key : String} {value : List (String × JsonValue)} {item : JsonValue}
    (h : member key value = some item) : itemField key value = .ok item := by
  unfold itemField
  rw [h]

/-- The provenance of members that say what it says. -/
theorem provenanceFromPayload_of {p : Provenance} {value : List (String × JsonValue)}
    (hsource : member "source_type" value = some (.str p.sourceType.value))
    (hcaptured : member "captured_at" value = some (.str p.capturedAt.zulu))
    (hid : member "source_id" value = some (orNull p.sourceId))
    (hmodel : member "source_model" value = some (orNull p.sourceModel))
    (hevidence : member "evidence" value = some (.arr (p.evidence.map .str))) :
    provenanceFromPayload lib value = .ok (portableProvenance p) := by
  -- `other` would be read as `unknown`; the domain has no such type.
  have hother : p.sourceType.value ≠ "other" := by
    cases p.sourceType <;> decide
  have hlist : evidenceField lib (member "evidence" value) = .ok p.evidence := by
    rw [hevidence]
    show Except.ok ((p.evidence.map JsonValue.str).map lib.text) = _
    rw [List.map_map]
    exact congrArg Except.ok (List.map_id _)
  have hsourceType : enumOf SourceType.ofValue (if lib.text (.str p.sourceType.value) = "other"
      then "unknown" else lib.text (.str p.sourceType.value)) = .ok p.sourceType := by
    have htext : lib.text (.str p.sourceType.value) = p.sourceType.value := rfl
    rw [htext, if_neg hother]
    exact enumOf_value (SourceType.ofValue_value _)
  have hcapturedAt : requiredTime R (lib.text (.str p.capturedAt.zulu)) = .ok p.capturedAt :=
    requiredTime_zulu (Python.fromisoformat_isoformat _ p.capturedAt_utc)
  unfold provenanceFromPayload
  rw [hlist, itemField_of hsource, itemField_of hcaptured, hid, hmodel, sourceText_orNull,
    sourceText_orNull]
  simp only [except_ok_bind, hsourceType, hcapturedAt]
  exact (portableProvenance p).make_self

/-- The provenance of a payload, whatever the order of its members. -/
theorem provenanceFromPayload_payload (hf : Rearranges f) (p : Provenance) :
    provenanceFromPayload lib (membersOf (f (.obj (provenancePayload p (evidenceList p))))) =
      .ok (portableProvenance p) := by
  let fields : List (String × Option JsonValue) :=
    [("source_type", some (.str p.sourceType.value)),
      ("captured_at", some (.str p.capturedAt.zulu)), ("source_id", some (orNull p.sourceId)),
      ("source_model", some (orNull p.sourceModel)), ("evidence", some (evidenceList p))]
  have hnodup : ((fields ++ []).map Prod.fst).Nodup := by
    have hkeys : ["source_type", "captured_at", "source_id", "source_model", "evidence"].Nodup := by
      decide
    exact hkeys
  obtain ⟨members, hobj, h⟩ := hf.views fields [] hnodup
  have hmembers : membersOf (f (.obj (provenancePayload p (evidenceList p)))) = members :=
    congrArg membersOf hobj
  have hnull : ∀ text : Option String, f (orNull text) = orNull text := by
    intro text
    cases text with
    | none => exact hf.null
    | some text => exact hf.str text
  have hevidence : f (evidenceList p) = .arr (p.evidence.map .str) := by
    unfold evidenceList
    rw [hf.arr, List.map_map]
    exact congrArg JsonValue.arr (List.map_congr_left fun text _ => hf.str text)
  rw [hmembers]
  -- Each of the five members is found by its name, wherever it stands now.
  refine provenanceFromPayload_of ?_ ?_ ?_ ?_ ?_
  · rw [h.held (rfl : (fields ++ []).lookup "source_type" = some (some _)), hf.str]
  · rw [h.held (rfl : (fields ++ []).lookup "captured_at" = some (some _)), hf.str]
  · rw [h.held (rfl : (fields ++ []).lookup "source_id" = some (some _)), hnull]
  · rw [h.held (rfl : (fields ++ []).lookup "source_model" = some (some _)), hnull]
  · rw [h.held (rfl : (fields ++ []).lookup "evidence" = some (some _)), hevidence]

/-! ### Records -/

/-- The id reads back. -/
def ReadsId (R : Type) [Python R] (u : UUID) : Prop := Python.parseUuid R u.str = some u

/-- The time reads back. -/
def ReadsTime (R : Type) [Python R] (d : DateTime) : Prop :=
  Python.fromisoformat R d.isoformat = some d

structure MemoryReads (m : Memory R) : Prop where
  id : ReadsId R m.id
  createdAt : ReadsTime R m.createdAt
  updatedAt : ReadsTime R m.updatedAt
  occurredAt : ∀ d, m.occurredAt = some d → ReadsTime R d

structure VersionReads (v : MemoryVersion R) : Prop where
  memoryId : ReadsId R v.memoryId
  occurredAt : ∀ d, v.occurredAt = some d → ReadsTime R d
  changedAt : ReadsTime R v.changedAt

structure RelationReads (R : Type) [Python R] (r : Relation) : Prop where
  sourceId : ReadsId R r.sourceId
  targetId : ReadsId R r.targetId
  createdAt : ReadsTime R r.createdAt

theorem parseTime_fits {time : Option DateTime}
    (h : ∀ d, time = some d → ReadsTime R d) :
    parseTime R ((time.map fun d => (fits_zulu d (Nat.zero_le 1)).text).map Text.val) =
      .ok time := by
  rw [Option.map_map]
  exact parseTime_zulu h

/-- A version reads back, whatever the order of its fields, but for what a package leaves out. -/
theorem versionFromPayload_ofVersion (hf : Rearranges f) {v : MemoryVersion R} (h : VersionFits v)
    (hreads : VersionReads v) :
    versionFromPayload lib ((HistoryRecord.ofVersion v h).rearrange f) =
      .ok (portableVersion v) := by
  have hid := uuidField_str hreads.memoryId
  have htype := enumOf_value (MemoryType.ofValue_value v.memoryType)
  have hstate := enumOf_value (MemoryState.ofValue_value v.state)
  have hoccurred := parseTime_fits hreads.occurredAt
  have hprovenance : provenanceFromPayload lib (membersOf (f (.obj
      (provenancePayload v.provenance (evidenceList v.provenance))))) =
        .ok (portableProvenance v.provenance) := provenanceFromPayload_payload hf v.provenance
  have hchanged := requiredTime_zulu hreads.changedAt
  have hspace := map_val_fitted h.space
  unfold versionFromPayload
  refine except_bind_ok.mpr ⟨_, hid, except_bind_ok.mpr ⟨_, htype, except_bind_ok.mpr ⟨_, hstate,
    except_bind_ok.mpr ⟨_, hoccurred, except_bind_ok.mpr ⟨_, hprovenance,
      except_bind_ok.mpr ⟨_, hchanged, ?_⟩⟩⟩⟩⟩⟩
  exact congrArg (fun space => Except.ok { portableVersion v with space := space }) hspace

/-- A relation passes the checks that it was made by. -/
theorem Relation.make_self (r : Relation) : Relation.make r.toRelationFields = .ok r :=
  construct_ok.mpr ⟨r.toRelationFields, r.checked, r.checked, rfl⟩

/-- A relation reads back. -/
theorem relationFromPayload_ofRelation {r : Relation} (h : FitsText 1 256 r.ownerId)
    (hreads : RelationReads R r) :
    relationFromPayload R (RelationRecord.ofRelation r h) = .ok r := by
  have hsource := uuidField_str hreads.sourceId
  have htarget := uuidField_str hreads.targetId
  have htype := enumOf_value (RelationType.ofValue_value r.relationType)
  have hcreated := requiredTime_zulu hreads.createdAt
  unfold relationFromPayload
  exact except_bind_ok.mpr ⟨_, hsource, except_bind_ok.mpr ⟨_, htarget, except_bind_ok.mpr
    ⟨_, htype, except_bind_ok.mpr ⟨_, hcreated, Relation.make_self r⟩⟩⟩⟩

theorem optional_pmap {α β : Type} {P : α → Prop} {g : ∀ a, P a → β} {check : β → Except PyError α}
    {x : Option α} (h : ∀ a ∈ x, P a) (hcheck : ∀ a ha, check (g a ha) = .ok a) :
    Mcp.optional check (x.pmap g h) = .ok x := by
  cases x with
  | none => rfl
  | some a => exact congrArg (Except.map some) (hcheck a (h a rfl))

/-- A check that undoes the encoding of each item undoes that of the list. -/
theorem mapM_pmap {α β γ : Type} {P : α → Prop} {g : ∀ a, P a → β} {check : β → Except PyError γ}
    {k : α → γ} {xs : List α} (h : ∀ a ∈ xs, P a)
    (hcheck : ∀ a ∈ xs, ∀ ha, check (g a ha) = .ok (k a)) :
    (xs.pmap g h).mapM check = .ok (xs.map k) := by
  induction xs with
  | nil => rfl
  | cons x xs ih =>
    obtain ⟨hfirst, hrest⟩ := List.forall_mem_cons.mp hcheck
    rw [List.pmap_cons, List.mapM_cons, hfirst, except_ok_bind, ih _ hrest]
    rfl

theorem mapM_map_pmap {α β γ : Type} {P : α → Prop} {encode : α → β}
    {check : β → Except PyError γ} {g : ∀ a, P a → γ} {xs : List α} (h : ∀ a ∈ xs, P a)
    (hcheck : ∀ a ∈ xs, ∀ ha, check (encode a) = .ok (g a ha)) :
    (xs.map encode).mapM check = .ok (xs.pmap g h) := by
  induction xs with
  | nil => rfl
  | cons x xs ih =>
    obtain ⟨hfirst, hrest⟩ := List.forall_mem_cons.mp hcheck
    rw [List.pmap_cons, List.map_cons, List.mapM_cons, hfirst, except_ok_bind, ih _ hrest]
    rfl

section

variable {includeEmbeddings : Bool} {record : MemoryRecordDto R}

/-- The origin of a record in a document is dumped as it was exported. -/
theorem provenanceDump_ofDto (h : Fits record) :
    provenanceDump ((ExportMemoryRecord.ofDto includeEmbeddings record h).rearrange f) =
      provenancePayload record.memory.provenance (evidenceList record.memory.provenance) := by
  have hsourceType :=
    value_wireSourceType (Mcp.wireSourceType_ofValue_isSome record.memory.provenance.sourceType)
  have hsourceId := map_val_fitted h.memory.sourceId
  have hsourceModel := map_val_fitted h.memory.sourceModel
  have hevidence := map_evidence h.memory.evidence
  unfold provenanceDump ExportMemoryRecord.rearrange ExportMemoryRecord.ofDto wireProvenance
    provenancePayload evidenceList
  simp only [hsourceType, hsourceId, hsourceModel, hevidence]
  rfl

/-- A memory reads back from a document, but for what a package leaves out. -/
theorem memoryFromPayload_ofDto (h : Fits record) (hreads : MemoryReads record.memory) :
    memoryFromPayload lib ((ExportMemoryRecord.ofDto includeEmbeddings record h).rearrange f) =
      .ok (portableMemory record.memory) := by
  have hembedding : Mcp.optional profileFromPayload
      ((ExportMemoryRecord.ofDto includeEmbeddings record h).rearrange f).embeddingProfile =
        .ok record.memory.embedding := by
    show Mcp.optional profileFromPayload (record.memory.embedding.pmap (fun d hd =>
      EmbeddingProfileRecord.ofDescriptor d (h.memory.profileId d hd) (h.memory.profileVersion d hd)
        (h.memory.dimension d hd)) fun _ hd => hd) = _
    refine optional_pmap _ fun d _ => ?_
    exact EmbeddingDescriptor.make_self d
  have hid := uuidField_str hreads.id
  have htype : enumOf MemoryType.ofValue
      ((ExportMemoryRecord.ofDto includeEmbeddings record h).rearrange f).type.value =
        .ok record.memory.memoryType := by
    refine enumOf_value ?_
    rw [← MemoryType.ofValue_value record.memory.memoryType]
    exact congrArg MemoryType.ofValue
      (value_wireType ((Mcp.wireType_ofValue_isSome _).mpr h.memory.type))
  have hstate : enumOf MemoryState.ofValue
      ((ExportMemoryRecord.ofDto includeEmbeddings record h).rearrange f).state.value =
        .ok record.memory.state := by
    refine enumOf_value ?_
    rw [← MemoryState.ofValue_value record.memory.state]
    exact congrArg MemoryState.ofValue (value_wireState (isSome_wireState h.memory.state))
  have hcreated := requiredTime_zulu hreads.createdAt
  have hupdated := requiredTime_zulu hreads.updatedAt
  have hoccurred := parseTime_fits hreads.occurredAt
  have hprovenance : provenanceFromPayload lib (provenanceDump
      ((ExportMemoryRecord.ofDto includeEmbeddings record h).rearrange f)) =
        .ok (portableProvenance record.memory.provenance) := by
    rw [provenanceDump_ofDto]
    exact provenanceFromPayload_payload rearranges_id record.memory.provenance
  have hspace := map_val_fitted h.memory.space
  have hkey := map_val_fitted h.memory.idempotencyKey
  unfold memoryFromPayload
  -- In the order of the source: the descriptor comes before the fields of the memory.
  refine except_bind_ok.mpr ⟨_, hembedding, except_bind_ok.mpr ⟨_, hid, except_bind_ok.mpr
    ⟨_, htype, except_bind_ok.mpr ⟨_, hstate, except_bind_ok.mpr ⟨_, hcreated, except_bind_ok.mpr
      ⟨_, hupdated, except_bind_ok.mpr ⟨_, hoccurred, except_bind_ok.mpr
        ⟨_, hprovenance, ?_⟩⟩⟩⟩⟩⟩⟩⟩
  refine Eq.trans ?_ (portableMemory record.memory).make_self
  exact congrArg₂ (fun space key => Memory.make
    { (portableMemory record.memory).toMemoryFields with space, idempotencyKey := key }) hspace hkey

structure RecordReads (record : MemoryRecordDto R) : Prop where
  memory : MemoryReads record.memory
  history : ∀ v ∈ record.history, VersionReads v
  relations : ∀ r ∈ record.relations, RelationReads R r

/-- What is imported of the record that the models made, in any order of its members. -/
theorem importRecord_ofDto (hf : Rearranges f) (h : Fits record) (hreads : RecordReads record) :
    importRecord lib ((ExportMemoryRecord.ofDto includeEmbeddings record h).rearrange f) =
      .ok (portable includeEmbeddings record) := by
  -- the parts are read back one after the other
  have hmemory : memoryFromPayload lib
      ((ExportMemoryRecord.ofDto includeEmbeddings record h).rearrange f) =
        .ok (portableMemory record.memory) := memoryFromPayload_ofDto h hreads.memory
  have hhistory : ((record.history.pmap HistoryRecord.ofVersion h.history).map
      (HistoryRecord.rearrange f)).mapM (versionFromPayload lib) =
        .ok (record.history.map portableVersion) := by
    rw [List.map_pmap]
    exact mapM_pmap _ fun v hv ha => versionFromPayload_ofVersion hf ha (hreads.history v hv)
  have hrelations : (record.relations.pmap RelationRecord.ofRelation h.relations).mapM
      (relationFromPayload R) = .ok record.relations := by
    refine (mapM_pmap _ fun r hr ha => ?_).trans (congrArg Except.ok (List.map_id _))
    exact relationFromPayload_ofRelation ha (hreads.relations r hr)
  have hfingerprint : (record.writeFingerprint.pmap
      (fun digest hd => (⟨digest, hd⟩ : Ranged isHexDigest)) h.writeFingerprint).map
        Subtype.val = record.writeFingerprint :=
    (map_pmap_eq (k := fun digest => digest) _ fun _ _ => rfl).trans Option.map_id'
  unfold importRecord
  refine except_bind_ok.mpr ⟨_, hmemory, except_bind_ok.mpr ⟨_, hhistory, except_bind_ok.mpr
    ⟨_, hrelations, ?_⟩⟩⟩
  exact congrArg (fun digest => Except.ok { portable includeEmbeddings record with
    writeFingerprint := digest }) hfingerprint

end

/-! ## Texts of packages -/

theorem fieldsHaveLiterals_provenance (p : WireProvenance) :
    FieldsHaveLiterals (provenanceFields p) :=
  ⟨literals_some trivial, literals_some trivial, literals_map fun _ _ => trivial,
    literals_map fun _ _ => trivial, literals_map fun _ _ => trivial, trivial⟩

theorem fieldsHaveLiterals_profile (p : EmbeddingProfileRecord) : FieldsHaveLiterals p.fields :=
  ⟨literals_some trivial, literals_some trivial, literals_some trivial, literals_some trivial,
    trivial⟩

/-- Where its numbers print as literals, a version does. -/
theorem fieldsHaveLiterals_history {v : HistoryRecord R}
    (hnumbers : ∀ x ∈ v.numbers, PrintsFloat lib x)
    (hprovenance : MembersHaveLiterals v.provenance) :
    FieldsHaveLiterals v.fields :=
  ⟨literals_some trivial, literals_some trivial, literals_some trivial, literals_some trivial,
    literals_some trivial, literals_some (hnumbers _ (by simp [HistoryRecord.numbers])).literal,
    literals_some (hnumbers _ (by simp [HistoryRecord.numbers])).literal,
    literals_map fun _ _ => trivial, literals_map fun _ _ => trivial, literals_some hprovenance,
    literals_some trivial, literals_some trivial, trivial⟩

theorem fieldsHaveLiterals_relation (r : RelationRecord) : FieldsHaveLiterals r.fields :=
  ⟨literals_some trivial, literals_some trivial, literals_some trivial, literals_some trivial,
    literals_some trivial, trivial⟩

/-- All floats of a record are written as floats. -/
theorem ExportMemoryRecord.hasLiterals_json {record : ExportMemoryRecord R}
    (hnumbers : ∀ x ∈ record.numbers, PrintsFloat lib x)
    (hprovenance : ∀ v ∈ record.history, MembersHaveLiterals v.provenance) :
    HasLiterals record.json := by
  -- the numbers of the record are those of its history and of its vector
  have hhistory : HasLiterals (.arr (record.history.map fun v => .obj (present v.fields))) :=
    hasLiterals_arr fun v hv => membersHaveLiterals_present (fieldsHaveLiterals_history
      (fun x hx => hnumbers x (List.mem_append_left _
        (List.mem_append_right _ (List.mem_flatMap.mpr ⟨v, hv, hx⟩)))) (hprovenance v hv))
  have hvalues : ∀ xs ∈ record.embeddingValues, HasLiterals (.arr (xs.map floatJson)) :=
    fun xs hxs => hasLiterals_arr fun x hx =>
      (hnumbers x (List.mem_append_right _ (by rw [hxs]; exact hx))).literal
  -- field by field, in the order of the record
  have hfields : FieldsHaveLiterals (record.fields present) :=
    ⟨literals_some trivial, literals_some trivial, literals_some trivial, literals_some trivial,
      literals_map fun _ _ => trivial, literals_some (hnumbers _ (by simp [numbers])).literal,
      literals_some (hnumbers _ (by simp [numbers])).literal, literals_some trivial,
      literals_some trivial, literals_some trivial, literals_some trivial,
      literals_map fun _ _ => trivial,
      literals_some (membersHaveLiterals_present (fieldsHaveLiterals_provenance _)),
      literals_some (hasLiterals_arr fun _ _ => trivial), literals_map fun _ _ => trivial,
      literals_map fun p _ => membersHaveLiterals_present (fieldsHaveLiterals_profile p),
      literals_some hhistory,
      literals_some (hasLiterals_arr fun r _ =>
        membersHaveLiterals_present (fieldsHaveLiterals_relation r)),
      literals_map fun _ _ => trivial, literals_map hvalues, trivial⟩
  exact membersHaveLiterals_present hfields

theorem membersHaveLiterals_provenancePayload (p : Provenance) :
    MembersHaveLiterals (provenancePayload p (evidenceList p)) :=
  ⟨trivial, trivial, Mcp.hasLiterals_orNull _, Mcp.hasLiterals_orNull _,
    hasLiterals_arr fun _ _ => trivial, trivial⟩

section

variable {includeEmbeddings : Bool} {record : MemoryRecordDto R}

/-- The numbers that a package holds of a record. -/
def packedNumbers (includeEmbeddings : Bool) (record : MemoryRecordDto R) : List R :=
  [record.memory.importance, record.memory.confidence] ++
    record.history.flatMap (fun v => [v.importance, v.confidence]) ++
      (if includeEmbeddings then record.embedding else none).getD []

/-- The numbers of a record in a document are those that are packed. -/
theorem numbers_ofDto (h : Fits record) :
    (ExportMemoryRecord.ofDto includeEmbeddings record h).numbers =
      packedNumbers includeEmbeddings record := by
  have hhistory : (record.history.pmap HistoryRecord.ofVersion h.history).flatMap
      HistoryRecord.numbers = record.history.flatMap fun v => [v.importance, v.confidence] := by
    have hmap : record.history.pmap (fun v hv => (HistoryRecord.ofVersion v hv).numbers) h.history =
        record.history.map fun v => [v.importance, v.confidence] :=
      List.pmap_eq_map (f := fun v : MemoryVersion R => [v.importance, v.confidence]) _
    rw [List.flatMap_def, List.flatMap_def, List.map_pmap, hmap]
  unfold ExportMemoryRecord.numbers packedNumbers ExportMemoryRecord.ofDto
  rw [hhistory]

/-- Where the packed numbers print as literals, the record does. -/
theorem hasLiterals_ofDto (h : Fits record)
    (hnumbers : ∀ x ∈ packedNumbers includeEmbeddings record, PrintsFloat lib x) :
    HasLiterals (ExportMemoryRecord.ofDto includeEmbeddings record h).json := by
  rw [← numbers_ofDto h] at hnumbers
  refine ExportMemoryRecord.hasLiterals_json hnumbers fun v hv => ?_
  obtain ⟨v', hv', rfl⟩ := List.mem_pmap.mp hv
  exact membersHaveLiterals_provenancePayload v'.provenance

/-- The payload shows the values of the embedding, if they are asked for and there. -/
theorem lacksValues_payload (h : Fits record) (hvalues : record.embedding.isSome = true) :
    lacksValues (exportRecordPayload true record) = false := by
  obtain ⟨xs, hxs⟩ := Option.isSome_iff_exists.mp hvalues
  have hviews : Views id ((ExportMemoryRecord.ofDto true record h).fields nulled)
      (exportRecordPayload true record) := views_payload h
  have hlookup : ((ExportMemoryRecord.ofDto true record h).fields nulled).lookup
      "embedding_values" = some (some (.arr (xs.map floatJson))) := by
    rw [fields_ofDto]
    show some (record.embedding.map fun xs => JsonValue.arr (xs.map floatJson)) = _
    rw [hxs]
    rfl
  unfold lacksValues
  rw [hviews.held hlookup]
  rfl

end

/-! ## The package -/

/-- A record that a package takes and gives back. -/
structure Packable (lib : PackageReader R) (includeEmbeddings : Bool)
    (record : MemoryRecordDto R) : Prop where
  fits : Fits record
  reads : RecordReads record
  numbers : ∀ x ∈ packedNumbers includeEmbeddings record, PrintsFloat lib x
  values : includeEmbeddings = true → record.embedding.isSome = true

section

variable {includeEmbeddings : Bool} {records : List (MemoryRecordDto R)} {now : DateTime}

/-- Records with ids of their own keep them apart in a document. -/
theorem nodup_ofDto (hfits : ∀ r ∈ records, Fits r)
    (hids : (records.map fun r => r.memory.id).Nodup) :
    ((records.pmap (fun r h => ExportMemoryRecord.ofDto includeEmbeddings r h) hfits).map
      fun record => record.id.val).Nodup := by
  have htexts := hids.map UUID.str_injective
  rw [List.map_map] at htexts
  rw [List.map_pmap]
  exact (List.pmap_eq_map (f := fun r : MemoryRecordDto R => r.memory.id.str) hfits).symm ▸ htexts

/-- The document of a package. -/
theorem exists_document (includeEmbeddings : Bool) (hnow : now.offset = some 0)
    (hfits : ∀ r ∈ records, Fits r) (hids : (records.map fun r => r.memory.id).Nodup) :
    ∃ document : ExportDocument R, document.exportedAt.val = now.zulu ∧
      document.includesEmbeddings = includeEmbeddings ∧ document.memories =
        records.pmap (fun r h => ExportMemoryRecord.ofDto includeEmbeddings r h) hfits :=
  ⟨{ exportedAt := ⟨now.zulu, now, hnow, rfl⟩
     includesEmbeddings := includeEmbeddings
     memories := records.pmap (fun r h => ExportMemoryRecord.ofDto includeEmbeddings r h) hfits
     unique_ids := nodup_ofDto hfits hids }, rfl, rfl, rfl⟩

theorem ExportDocument.rearrange_id (document : ExportDocument R) :
    document.rearrange id = document := by
  have hmemories : document.memories.map (ExportMemoryRecord.rearrange id) = document.memories := by
    rw [List.map_congr_left fun r _ => ExportMemoryRecord.rearrange_id r, List.map_id']
  obtain ⟨exportedAt, includesEmbeddings, memories, unique_ids⟩ := document
  unfold rearrange
  simp only [hmemories]

/-- A document passes the check that it was made by. -/
theorem ExportDocument.make_self (document : ExportDocument R) :
    ExportDocument.make document.exportedAt document.includesEmbeddings document.memories =
      .ok document := dif_pos document.unique_ids

/-- What is written of payloads that are valid. -/
theorem writeExport_ok {document : ExportDocument R} {payloads : List (List (String × JsonValue))}
    (hexported : document.exportedAt.val = now.zulu)
    (hmemories : payloads.mapM (fun record => ExportMemoryRecord.modelValidate lib (.obj record)) =
      .ok document.memories)
    (hvalues : (document.includesEmbeddings && payloads.any lacksValues) = false)
    (hnumbers : ∀ record ∈ document.memories, ∀ x ∈ record.numbers, PrintsFloat lib x) :
    writeExport lib now payloads document.includesEmbeddings =
      .ok (document, indentedRaw.dumps document.json ++ "\n") := by
  have hraise : raiseIf (document.includesEmbeddings && payloads.any lacksValues)
      (.valueError "embedding values are missing from the export response") =
        (.ok () : Except PyError Unit) := raiseIf_except_ok.mpr hvalues
  have hfield : exportedAtField R (.str now.zulu) = .ok document.exportedAt := by
    rw [← hexported]
    exact (if_pos (length_utcText document.exportedAt)).trans (validTimestamp_val _)
  have hvalid := ExportDocument.modelValidate_json rearranges_id hnumbers
  rw [ExportDocument.rearrange_id] at hvalid
  have hmake : makeExport lib now payloads document.includesEmbeddings = .ok document.json := by
    unfold makeExport
    rw [hraise, except_ok_bind, hmemories, except_ok_bind, hfield, except_ok_bind,
      ExportDocument.make_self, except_ok_bind]
    rfl
  unfold writeExport
  rw [hmake, except_ok_bind]
  exact except_bind_ok.mpr ⟨document, hvalid, rfl⟩

/-- What is written is read, with everything in key order. -/
theorem loadExport_dumps {document : ExportDocument R} (hliterals : HasLiterals document.json)
    (hnumbers : ∀ record ∈ document.memories, ∀ x ∈ record.numbers, PrintsFloat lib x) :
    loadExport lib (indentedRaw.dumps document.json ++ "\n") = .ok (document.rearrange sorted) := by
  have hblank : ∀ c ∈ "\n".toList, JsonValue.isBlank c = true := by
    intro c hc
    have hlist : "\n".toList = ['\n'] := rfl
    rw [hlist] at hc
    rw [List.mem_singleton.mp hc]
    rfl
  unfold loadExport
  rw [indentedRaw.loads_dumps_append hliterals hblank]
  dsimp only
  rw [ExportDocument.modelValidate_json rearranges_sorted hnumbers]

/-- Where vectors are exported, packable records have theirs. -/
theorem payloads_lack_no_values (h : ∀ r ∈ records, Packable lib includeEmbeddings r) :
    (includeEmbeddings &&
      (records.map (exportRecordPayload includeEmbeddings)).any lacksValues) = false := by
  cases includeEmbeddings with
  | false => rfl
  | true =>
    rw [Bool.true_and, List.any_map, List.any_eq_false]
    intro r hr
    rw [Function.comp_apply, lacksValues_payload (h r hr).fits ((h r hr).values rfl)]
    exact Bool.false_ne_true

/-- A package brings back what was exported, but for what it has no place for. -/
theorem package_round_trip (hnow : now.offset = some 0)
    (hids : (records.map fun r => r.memory.id).Nodup)
    (h : ∀ r ∈ records, Packable lib includeEmbeddings r) :
    ∃ document text loaded,
      writeExport lib now (records.map (exportRecordPayload includeEmbeddings)) includeEmbeddings =
        .ok (document, text) ∧
      loadExport lib text = .ok loaded ∧
      loaded.exportedAt.val = now.zulu ∧ loaded.includesEmbeddings = includeEmbeddings ∧
      loaded.memories.mapM (importRecord lib) = .ok (records.map (portable includeEmbeddings)) := by
  have hfits : ∀ r ∈ records, Fits r := fun r hr => (h r hr).fits
  -- Payload, document and text are all read as this document.
  obtain ⟨document, hexported, hincludes, hmemories⟩ :=
    exists_document includeEmbeddings hnow hfits hids
  have hvalid : (records.map (exportRecordPayload includeEmbeddings)).mapM
      (fun record => ExportMemoryRecord.modelValidate lib (.obj record)) =
        .ok document.memories := by
    rw [hmemories]
    refine mapM_map_pmap _ fun r hr hr' => modelValidate_payload hr' ?_
    rw [numbers_ofDto]
    exact (h r hr).numbers
  have hvalues : (document.includesEmbeddings &&
      (records.map (exportRecordPayload includeEmbeddings)).any lacksValues) = false := by
    rw [hincludes]
    exact payloads_lack_no_values h
  have hnumbers : ∀ record ∈ document.memories, ∀ x ∈ record.numbers, PrintsFloat lib x := by
    intro record hrecord
    rw [hmemories] at hrecord
    obtain ⟨r, hr, rfl⟩ := List.mem_pmap.mp hrecord
    rw [numbers_ofDto]
    exact (h r hr).numbers
  have hrecords : HasLiterals (.arr (document.memories.map ExportMemoryRecord.json)) := by
    refine hasLiterals_arr fun record hrecord => ?_
    rw [hmemories] at hrecord
    obtain ⟨r, hr, rfl⟩ := List.mem_pmap.mp hrecord
    exact hasLiterals_ofDto (hfits r hr) (h r hr).numbers
  have hliterals : HasLiterals document.json := ⟨trivial, trivial, trivial, hrecords, trivial⟩
  have hwrite := writeExport_ok hexported hvalid hvalues hnumbers
  rw [hincludes] at hwrite
  refine ⟨document, _, document.rearrange sorted, hwrite, loadExport_dumps hliterals hnumbers,
    hexported, hincludes, ?_⟩
  -- What was printed in key order is imported like the records of the document.
  show (document.memories.map (ExportMemoryRecord.rearrange sorted)).mapM (importRecord lib) = _
  rw [hmemories, List.map_pmap]
  exact mapM_pmap _ fun r hr hr' => importRecord_ofDto rearranges_sorted hr' (h r hr).reads

end

/-! ## A note in a package -/

/-- Decimals without a sign, and nothing that has to be converted. -/
def noteReader : PackageReader ℚ where
  floatOf
    | .float literal => match literal.toList.splitOnP (· == '.') with
      | [whole, places] => some ((Nat.ofDigitChars 10 whole 0 : ℚ) +
          Nat.ofDigitChars 10 places 0 / 10 ^ places.length)
      | _ => none
    | .int n => some n
    | _ => none
  intOf
    | .int n => some n
    | _ => none
  boolOf
    | .bool b => some b
    | _ => none
  strOf
    | .null => "None"
    | .bool b => if b then "True" else "False"
    | .int n => toString n
    | _ => ""
  intOf_int _ := rfl
  boolOf_bool _ := rfl

/-- The note is about another one. -/
def noteRelation : Relation where
  sourceId := ⟨7⟩
  targetId := ⟨9⟩
  relationType := .supports
  ownerId := "alice"
  createdAt := day2026 2
  checked := by decide

/-- The captured note in a state of v0. -/
def activeNote : Memory ℚ where
  toMemoryFields := { capturedNote.toMemoryFields with state := .active }
  checked := by decide +kernel

/-- The note with its vector, its history and its relation. -/
def noteRecord : MemoryRecordDto ℚ where
  memory := activeNote
  history := [activeNote.snapshot "memory captured"]
  relations := [noteRelation]
  embedding := some [1 / 2]

theorem printsFloat_half : PrintsFloat noteReader (1 / 2) where
  literal := Mcp.printsUnits_rat _ (by decide +kernel)
  reads := by decide +kernel

theorem printsFloat_one : PrintsFloat noteReader 1 where
  literal := Mcp.printsUnits_rat _ (by decide +kernel)
  reads := by decide +kernel

/-- Times in UTC are read back. -/
theorem readsTime_utc {d : DateTime} (h : d.offset = some 0) : ReadsTime ℚ d := readIso_isoformat h

theorem noteRecord_fits : Fits noteRecord where
  memory :=
    -- the texts of the note are within their limits
    { ownerId := ⟨by decide, by decide⟩
      content := by decide
      type := by decide
      state := by decide
      space := by
        rintro t ⟨⟩
        exact ⟨by decide, by decide⟩
      sourceId := by
        rintro t ⟨⟩
      sourceModel := by
        rintro t ⟨⟩
      evidence := by
        intro t ht
        cases ht
      evidenceText := ⟨by decide, by decide⟩
      idempotencyKey := by
        rintro t ⟨⟩
        exact ⟨by decide, by decide⟩
      profileId := by
        rintro d ⟨⟩
        exact ⟨by decide, by decide⟩
      profileVersion := by
        rintro d ⟨⟩
        exact ⟨by decide, by decide⟩
      dimension := by
        rintro d ⟨⟩
        decide }
  -- one snapshot and one relation
  history := by
    intro v hv
    obtain rfl := List.mem_singleton.mp hv
    refine ⟨by decide, ⟨by decide, by decide⟩, by decide +kernel, by decide +kernel, ?_,
      ⟨by decide, by decide⟩⟩
    rintro t ⟨⟩
    exact ⟨by decide, by decide⟩
  relations := by
    intro r hr
    obtain rfl := List.mem_singleton.mp hr
    exact ⟨by decide, by decide⟩
  writeFingerprint := by
    rintro digest ⟨⟩

theorem noteRecord_reads : RecordReads noteRecord where
  memory :=
    -- its ids and times are read back
    { id := by
        unfold ReadsId
        decide +kernel
      createdAt := readsTime_utc rfl
      updatedAt := readsTime_utc rfl
      occurredAt := by
        rintro d ⟨⟩
        exact readsTime_utc rfl }
  history := by
    intro v hv
    obtain rfl := List.mem_singleton.mp hv
    refine ⟨?_, ?_, readsTime_utc rfl⟩
    · unfold ReadsId
      decide +kernel
    · rintro d ⟨⟩
      exact readsTime_utc rfl
  relations := by
    intro r hr
    obtain rfl := List.mem_singleton.mp hr
    refine ⟨?_, ?_, readsTime_utc rfl⟩
    · unfold ReadsId
      decide +kernel
    · unfold ReadsId
      decide +kernel

theorem noteRecord_packable : Packable noteReader true noteRecord where
  fits := noteRecord_fits
  reads := noteRecord_reads
  numbers := by
    intro x hx
    have hcases : x = 1 / 2 ∨ x = 1 ∨ x = 1 / 2 ∨ x = 1 ∨ x = 1 / 2 := by
      simpa [packedNumbers, noteRecord, activeNote, capturedNote, Memory.snapshot] using hx
    rcases hcases with rfl | rfl | rfl | rfl | rfl
    · exact printsFloat_half
    · exact printsFloat_one
    · exact printsFloat_half
    · exact printsFloat_one
    · exact printsFloat_half
  values _ := rfl

/-- A note with everything that a package can carry comes back. -/
theorem package_round_trip_note :
    ∃ document text loaded,
      writeExport noteReader (day2026 3) ([noteRecord].map (exportRecordPayload true)) true =
        .ok (document, text) ∧
      loadExport noteReader text = .ok loaded ∧
      loaded.exportedAt.val = (day2026 3).zulu ∧ loaded.includesEmbeddings = true ∧
      loaded.memories.mapM (importRecord noteReader) = .ok ([noteRecord].map (portable true)) :=
  package_round_trip rfl (List.nodup_singleton _)
    (List.forall_mem_singleton.mpr noteRecord_packable)

end OpenMemory.Server
