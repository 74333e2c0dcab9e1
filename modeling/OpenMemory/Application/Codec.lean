import OpenMemory.Application.Reference
import OpenMemory.Domain.Serialization

/-!
# The codec round trip

`memory_from_dict` tests some fields for presence and some for truth, and runs every constructor
again. Neither loses anything: the constructors have excluded the empty texts
(`Provenance.opaqueIds_ne_empty`), an ISO text is not empty, and what has passed its checks passes
them again (`make_self`). So decoding what was encoded gives an equal memory.
-/

namespace OpenMemory

open Lib

/-! ## Values read back -/

theorem MemoryType.ofValue_value (t : MemoryType) : ofValue t.value = some t := by
  cases t <;> rfl

theorem MemoryState.ofValue_value (s : MemoryState) : ofValue s.value = some s := by
  cases s <;> rfl

theorem SourceType.ofValue_value (t : SourceType) : ofValue t.value = some t := by
  cases t <;> rfl

theorem ConsentMode.ofValue_value (m : ConsentMode) : ofValue m.value = some m := by
  cases m <;> rfl

theorem ConsentReason.ofValue_value (r : ConsentReason) : ofValue r.value = some r := by
  cases r <;> rfl

/-- The text of a time is not empty, so it is truthy. -/
theorem DateTime.isoformat_ne_empty (d : DateTime) : d.isoformat ≠ "" := by
  intro h
  have hchars : d.isoChars = [] := by
    rw [DateTime.isoformat, String.ofList_eq_empty_iff] at h
    exact h
  simp [DateTime.isoChars] at hchars

section RoundTrip

variable {R : Type} [Python R] [Conversions R] {members : List (String × Loaded R)} {key : String}

/-- A text is read as it is. -/
theorem itemText_str {s : String} (h : Loaded.get members key = some (.str s)) :
    itemText members key = .ok s := by
  unfold itemText itemOf
  rw [h]
  rfl

/-- A text that parses is read as what it parses to. -/
theorem itemParsed_str {α : Type} {parse : String → Option α} {s : String} {a : α}
    (h : Loaded.get members key = some (.str s)) (hparse : parse s = some a) :
    itemParsed parse members key = .ok a := by
  unfold itemParsed
  rw [itemText_str h]
  show DecodeError.parsed (parse s) = _
  rw [hparse]
  rfl

theorem itemInt_int {n : Int} (h : Loaded.get members key = some (.int n)) :
    itemInt members key = .ok n := by
  unfold itemInt itemOf
  rw [h]
  rfl

/-- A finite number is read as the float of it. -/
theorem itemFloat_finite {x : R} (h : Loaded.get members key = some (.float (.finite x))) :
    itemFloat members key = .ok (.finite (Conversions.float x)) := by
  unfold itemFloat itemOf
  rw [h]
  rfl

/-- A text that may be missing reads back. -/
theorem textUnlessNone_encodeOpt {value : Option String}
    (h : Loaded.get members key = some (encodeOpt value)) :
    textUnlessNone members key = value := by
  unfold textUnlessNone
  rw [h]
  cases value <;> rfl

/-- Testing a text for truth is testing it for presence, as long as it is not empty. -/
theorem textIfTruthy_encodeOpt {value : Option String} (hne : value ≠ some "")
    (h : Loaded.get members key = some (encodeOpt value)) : textIfTruthy members key = value := by
  unfold textIfTruthy
  rw [h]
  cases value with
  | none => rfl
  | some s =>
    have hs : s ≠ "" := fun heq => hne (congrArg some heq)
    show (if decide (s ≠ "") = true then some s else none) = some s
    rw [if_pos (decide_eq_true hs)]

/-! ## The parts -/

/-- An id that passes is not empty, so it is truthy. -/
theorem checkOpaqueId_ne_empty {value : Option String} {fieldName : String}
    {u : Unit} (h : checkOpaqueId value fieldName = .ok u) : value ≠ some "" := by
  rintro rfl
  simp only [checkOpaqueId, except_bind_ok, raiseIf_except_ok] at h
  obtain ⟨_, h, -⟩ := h
  have : someAnd isBlank (some "") = true := by decide
  rw [this] at h
  cases h

/-- An origin passes the checks that it was made by. -/
theorem Provenance.make_self (p : Provenance) : make p.toProvenanceFields = .ok p :=
  construct_ok.mpr ⟨p.toProvenanceFields, p.checked, p.checked, rfl⟩

theorem CaptureConsent.make_self (c : CaptureConsent) : make c.toConsentFields = .ok c :=
  construct_ok.mpr ⟨c.toConsentFields, c.checked, c.checked, rfl⟩

theorem EmbeddingDescriptor.make_self (d : EmbeddingDescriptor) :
    make d.toDescriptorFields = .ok d :=
  construct_ok.mpr ⟨d.toDescriptorFields, d.checked, d.checked, rfl⟩

/-- The opaque ids of an origin are not empty texts. -/
theorem Provenance.opaqueIds_ne_empty (p : Provenance) :
    p.sourceClient ≠ some "" ∧ p.sourceConnectionId ≠ some "" ∧ p.conversationId ≠ some "" ∧
      p.messageId ≠ some "" := by
  have h := p.checked
  simp only [ProvenanceFields.postInit, except_bind_ok] at h
  obtain ⟨_, -, _, -, _, -, _, -, _, h₁, _, h₂, _, h₃, _, h₄, -⟩ := h
  exact ⟨checkOpaqueId_ne_empty h₁, checkOpaqueId_ne_empty h₂, checkOpaqueId_ne_empty h₃,
    checkOpaqueId_ne_empty h₄⟩

/-- Evidence reads back. -/
theorem decodeEvidence_arr {evidence : List String}
    (h : Loaded.get members "evidence" = some (.arr (evidence.map .str))) :
    decodeEvidence members = .ok evidence := by
  unfold decodeEvidence
  rw [h]
  show Except.ok ((evidence.map .str).map Loaded.text) = _
  rw [List.map_map]
  exact congrArg Except.ok (List.map_id _)

/-- An origin reads back. -/
theorem decodeProvenance_encode {p : Provenance}
    (hiso : Python.fromisoformat R p.capturedAt.isoformat = some p.capturedAt)
    (h : encodeProvenance p = .obj members) : decodeProvenance members = .ok p := by
  obtain rfl := Loaded.obj.inj h
  obtain ⟨hclient, hconnection, hconversation, hmessage⟩ := p.opaqueIds_ne_empty
  unfold decodeProvenance
  rw [itemParsed_str rfl (SourceType.ofValue_value _), itemParsed_str rfl hiso,
    textUnlessNone_encodeOpt rfl, textUnlessNone_encodeOpt rfl,
    textIfTruthy_encodeOpt hclient rfl, textIfTruthy_encodeOpt hconnection rfl,
    textIfTruthy_encodeOpt hconversation rfl, textIfTruthy_encodeOpt hmessage rfl,
    decodeEvidence_arr rfl]
  simp only [except_ok_bind]
  exact congrArg raised p.make_self

/-- So does a consent. -/
theorem decodeConsent_encode {payload : List (String × Loaded R)} {consent : Option CaptureConsent}
    (hiso : ∀ c ∈ consent, Python.fromisoformat R c.grantedAt.isoformat = some c.grantedAt)
    (h : Loaded.get payload "capture_consent" = some (encodeConsent consent)) :
    decodeConsent payload = .ok consent := by
  unfold decodeConsent
  rw [h]
  cases consent with
  | none => rfl
  | some c =>
    show some <$> decodeCaptureConsent _ = _
    unfold decodeCaptureConsent
    rw [itemParsed_str rfl (ConsentMode.ofValue_value _), itemText_str rfl,
      itemParsed_str rfl (ConsentReason.ofValue_value _), itemText_str rfl,
      itemParsed_str rfl (hiso c rfl)]
    simp only [except_ok_bind]
    exact congrArg (some <$> raised ·) c.make_self

/-- So does a descriptor. -/
theorem decodeEmbedding_encode {payload : List (String × Loaded R)}
    {embedding : Option EmbeddingDescriptor}
    (h : Loaded.get payload "embedding" = some (encodeEmbedding embedding)) :
    decodeEmbedding payload = .ok embedding := by
  unfold decodeEmbedding
  rw [h]
  cases embedding with
  | none => rfl
  | some d =>
    show some <$> decodeDescriptor _ = _
    unfold decodeDescriptor
    rw [itemText_str rfl, itemText_str rfl, itemInt_int rfl, itemText_str rfl]
    simp only [except_ok_bind]
    exact congrArg (some <$> raised ·) d.make_self

/-- So does the time that a memory is about. -/
theorem decodeOccurredAt_encode {payload : List (String × Loaded R)} {occurredAt : Option DateTime}
    (hiso : ∀ d ∈ occurredAt, Python.fromisoformat R d.isoformat = some d)
    (h : Loaded.get payload "occurred_at" = some (encodeDatetime occurredAt)) :
    decodeOccurredAt payload = .ok occurredAt := by
  unfold decodeOccurredAt
  rw [h]
  cases occurredAt with
  | none => rfl
  | some d =>
    show (if decide (d.isoformat ≠ "") = true then
      some <$> DecodeError.parsed (Python.fromisoformat R d.isoformat) else pure none) = _
    rw [if_pos (decide_eq_true d.isoformat_ne_empty), hiso d rfl]
    rfl

/-! ## The memory -/

/-- The timestamps of a memory. -/
def Memory.timestamps (m : Memory R) : List DateTime :=
  [m.createdAt, m.updatedAt, m.provenance.capturedAt] ++ m.occurredAt.toList ++
    m.captureConsent.toList.map fun c => c.grantedAt

omit [Conversions R] in
theorem mem_timestamps_of_occurredAt {m : Memory R} {d : DateTime} (h : d ∈ m.occurredAt) :
    d ∈ m.timestamps :=
  List.mem_append_left _ (List.mem_append_right _ (Option.mem_toList.mpr h))

omit [Conversions R] in
theorem mem_timestamps_of_captureConsent {m : Memory R} {c : CaptureConsent}
    (h : c ∈ m.captureConsent) : c.grantedAt ∈ m.timestamps :=
  List.mem_append_right _ (List.mem_map.mpr ⟨c, Option.mem_toList.mpr h, rfl⟩)

/-- The arguments of the constructor: those of the memory, the numbers as floats. -/
theorem decodeFields_memoryToDict (m : Memory R) (hid : Python.parseUuid R m.id.str = some m.id)
    (hiso : ∀ d ∈ m.timestamps, Python.fromisoformat R d.isoformat = some d) :
    decodeFields (memoryToDict m) = .ok
      { id := m.id, ownerId := m.ownerId, content := m.content, memoryType := m.memoryType
        importance := .finite (Conversions.float m.importance)
        confidence := .finite (Conversions.float m.confidence)
        state := m.state, version := m.version, createdAt := m.createdAt
        updatedAt := m.updatedAt, occurredAt := m.occurredAt, space := m.space
        provenance := m.provenance, embedding := m.embedding
        idempotencyKey := m.idempotencyKey, tenantId := m.tenantId
        captureConsent := m.captureConsent } := by
  have hmapping : itemMapping (memoryToDict m) "provenance" = .ok _ := rfl
  have hprovenance : decodeProvenance _ = .ok m.provenance :=
    decodeProvenance_encode (hiso _ (by simp [Memory.timestamps])) rfl
  have hoccurred : decodeOccurredAt (memoryToDict m) = .ok m.occurredAt :=
    decodeOccurredAt_encode (fun d hd => hiso d (mem_timestamps_of_occurredAt hd)) rfl
  have hconsent : decodeConsent (memoryToDict m) = .ok m.captureConsent :=
    decodeConsent_encode (fun c hc => hiso _ (mem_timestamps_of_captureConsent hc)) rfl
  have hcreated := hiso m.createdAt (by simp [Memory.timestamps])
  have hupdated := hiso m.updatedAt (by simp [Memory.timestamps])
  unfold decodeFields
  rw [hmapping, decodeEmbedding_encode rfl, itemParsed_str rfl hid, itemText_str rfl,
    itemText_str rfl, itemParsed_str rfl (MemoryType.ofValue_value _), itemFloat_finite rfl,
    itemFloat_finite rfl, itemParsed_str rfl (MemoryState.ofValue_value _), itemInt_int rfl,
    itemParsed_str rfl hcreated, itemParsed_str rfl hupdated, hoccurred, hconsent]
  simp only [except_ok_bind]
  rw [hprovenance, textUnlessNone_encodeOpt rfl, textUnlessNone_encodeOpt rfl,
    textUnlessNone_encodeOpt rfl]
  rfl

omit [Conversions R] in
/-- What equals a number between 0 and 1 is between 0 and 1. -/
theorem Python.inUnit_of_numEq {x y : R} (h : Python.numEq x y = true)
    (hy : Python.inUnit y = true) : Python.inUnit x = true := by
  simp only [Python.numEq, Python.inUnit, Bool.and_eq_true] at h hy ⊢
  exact ⟨Python.le_trans _ _ _ hy.1 h.2, Python.le_trans _ _ _ h.1 hy.2⟩

omit [Conversions R] in
theorem validateUnitInterval_ok {x : R} (h : Python.inUnit x = true) (fieldName : String) :
    validateUnitInterval x fieldName = .ok x :=
  except_bind_ok.mpr ⟨(), raiseIf_except_ok.mpr (by simpa using h), rfl⟩

/-- The float of a number between 0 and 1 passes. -/
theorem unitNumber_float {x : R} (h : Python.inUnit x = true) (fieldName : String) :
    unitNumber (.finite (Conversions.float x)) fieldName = .ok (Conversions.float x) :=
  validateUnitInterval_ok (Python.inUnit_of_numEq (Conversions.float_numEq x h) h) fieldName

/-- The constructor accepts a memory with its numbers as floats. -/
theorem makeLoaded_floats (m : Memory R) :
    ∃ m', makeLoaded
        { id := m.id, ownerId := m.ownerId, content := m.content, memoryType := m.memoryType
          importance := .finite (Conversions.float m.importance)
          confidence := .finite (Conversions.float m.confidence)
          state := m.state, version := m.version, createdAt := m.createdAt
          updatedAt := m.updatedAt, occurredAt := m.occurredAt, space := m.space
          provenance := m.provenance, embedding := m.embedding
          idempotencyKey := m.idempotencyKey, tenantId := m.tenantId
          captureConsent := m.captureConsent } = .ok m' ∧
      m'.toMemoryFields = { m.toMemoryFields with
        importance := Conversions.float m.importance
        confidence := Conversions.float m.confidence } := by
  have hunit := m.inUnit
  have hi := Python.inUnit_of_numEq (Conversions.float_numEq _ hunit.1) hunit.1
  have hc := Python.inUnit_of_numEq (Conversions.float_numEq _ hunit.2) hunit.2
  have hcontent := m.collapse_content
  have h := m.checked
  simp only [MemoryFields.postInit, except_bind_ok, except_pure_ok] at h
  obtain ⟨_, h₁, _, h₂, _, h₃, _, h₄, _, -, _, -, _, h₇, _, h₈, _, h₉, _, h₁₀, _, h₁₁, _, h₁₂, _,
    h₁₃, -⟩ := h
  let floats : MemoryFields R := { m.toMemoryFields with
    importance := Conversions.float m.importance, confidence := Conversions.float m.confidence }
  have hfloats : floats.postInit = .ok floats := by
    simp only [MemoryFields.postInit, except_bind_ok, except_pure_ok]
    refine ⟨_, h₁, _, h₂, _, h₃, _, h₄, _, validateUnitInterval_ok hi _, _,
      validateUnitInterval_ok hc _, _, h₇, _, h₈, _, h₉, _, h₁₀, _, h₁₁, _, h₁₂, _, h₁₃, ?_⟩
    rw [hcontent]
  refine ⟨⟨floats, hfloats⟩, ?_, rfl⟩
  unfold makeLoaded
  simp only [except_bind_ok]
  exact ⟨_, h₁, _, h₂, _, h₃, _, h₄, _, unitNumber_float hunit.1 _, _, unitNumber_float hunit.2 _,
    construct_ok.mpr ⟨floats, hfloats, hfloats, rfl⟩⟩

/-- Decoding what was encoded gives an equal memory. -/
theorem memoryFromDict_memoryToDict (m : Memory R)
    (hid : Python.parseUuid R m.id.str = some m.id)
    (hiso : ∀ d ∈ m.timestamps, Python.fromisoformat R d.isoformat = some d) :
    ∃ m', memoryFromDict (memoryToDict m) = .ok m' ∧ m'.pyEq m = true := by
  obtain ⟨m', hmake, hfields⟩ := makeLoaded_floats m
  refine ⟨m', ?_, ?_⟩
  · have hschema : schemaSupported (memoryToDict m) = true := rfl
    unfold memoryFromDict
    rw [if_pos hschema, decodeFields_memoryToDict m hid hiso]
    simp only [except_ok_bind]
    rw [hmake]
    rfl
  · have hunit := m.inUnit
    unfold Memory.pyEq
    simp [hfields, Conversions.float_numEq _ hunit.1, Conversions.float_numEq _ hunit.2,
      Provenance.pyEq, CaptureConsent.pyEq_self]

end RoundTrip

/-! ## A note -/

instance : Conversions ℚ where
  float x := x
  trunc x := if 0 ≤ x then x.floor else x.ceil
  parseFloat text := text.toInt?.map fun n => .finite n
  parseInt text := text.toInt?
  reprFloat
    | .finite x => fixedDecimal 6 x
    | .infinity negative => if negative then "-inf" else "inf"
    | .nan => "nan"
  reprStr text := "'" ++ text ++ "'"
  float_numEq x _ := Python.numEq_self x

/-- A captured note with everything that can be encoded. -/
def capturedNote : Memory ℚ where
  id := ⟨7⟩
  ownerId := "alice"
  content := "tea at five"
  memoryType := .fact
  importance := 1 / 2
  confidence := 1
  state := .confirmed
  version := 2
  createdAt := day2026 1
  updatedAt := day2026 2
  occurredAt := some (day2026 0)
  space := some "work"
  provenance := sentByClient
  embedding := some hashDescriptor
  idempotencyKey := some "note-1"
  tenantId := some "acme"
  captureConsent := some asked
  checked := by decide +kernel

/-- A captured note comes back equal. -/
theorem memoryFromDict_memoryToDict_capturedNote :
    ∃ m', memoryFromDict (memoryToDict capturedNote) = .ok m' ∧ m'.pyEq capturedNote = true := by
  refine memoryFromDict_memoryToDict capturedNote (by decide +kernel) fun d hd => ?_
  have hutc : ∀ d ∈ capturedNote.timestamps, d.offset = some 0 := by decide
  exact readIso_isoformat (hutc d hd)

end OpenMemory
