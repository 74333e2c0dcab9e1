import OpenMemory.Mcp.Adapter
import OpenMemory.Store.Migration

/-!
# What v0 can say about a memory

`V0Representable` is the exact condition under which the record of a stored memory passes
the response schema (`validate_memoryDict_iff`). It is narrower than what the store may hold:
the M1 states and the type `mental_note` have no v0 literal, and the domain allows longer
contents, spaces, origins and evidence.

The v0 state `active` is meant to stand for `confirmed` and `pinned` as well (`v0State`), but
the gateway passes states through unprojected. Conversely, whatever a v0 request carries is
representable (`enumOf_type_ok`, `enumOf_state_ok`, `provenance_ok`).
-/

namespace OpenMemory.Mcp

open Lib

variable {R : Type} [Python R]

/-- The origins that v0 can represent. -/
structure V0Origin (p : Provenance) : Prop where
  sourceId : ∀ t ∈ p.sourceId, (trimBoth isTrimmed t).length ≤ 256
  sourceModel : ∀ t ∈ p.sourceModel, (trimBoth isTrimmed t).length ≤ 128
  evidence : (trimBoth isTrimmed (joinSpace p.evidence)).length ≤ 2000

/-- The states that v0 has a literal for. -/
def v0States : List MemoryState := [.active, .superseded, .contradicted, .archived]

/-- What v0 can represent of a memory whose owner fits. -/
structure V0Representable (m : Memory R) : Prop where
  type : m.memoryType ≠ .mentalNote
  state : m.state ∈ v0States
  content : m.content.length ≤ maxContentLength
  space : ∀ t ∈ m.space, (trimBoth isTrimmed t).length ≤ 128
  origin : V0Origin m.provenance

instance (p : Provenance) : Decidable (V0Origin p) :=
  decidable_of_iff
    ((∀ t ∈ p.sourceId, (trimBoth isTrimmed t).length ≤ 256) ∧
      (∀ t ∈ p.sourceModel, (trimBoth isTrimmed t).length ≤ 128) ∧
      (trimBoth isTrimmed (joinSpace p.evidence)).length ≤ 2000)
    ⟨fun ⟨h₁, h₂, h₃⟩ => ⟨h₁, h₂, h₃⟩, fun ⟨h₁, h₂, h₃⟩ => ⟨h₁, h₂, h₃⟩⟩

instance (m : Memory R) : Decidable (V0Representable m) :=
  decidable_of_iff
    (m.memoryType ≠ .mentalNote ∧ m.state ∈ v0States ∧ m.content.length ≤ maxContentLength ∧
      (∀ t ∈ m.space, (trimBoth isTrimmed t).length ≤ 128) ∧ V0Origin m.provenance)
    ⟨fun ⟨h₁, h₂, h₃, h₄, h₅⟩ => ⟨h₁, h₂, h₃, h₄, h₅⟩,
      fun ⟨h₁, h₂, h₃, h₄, h₅⟩ => ⟨h₁, h₂, h₃, h₄, h₅⟩⟩

/-- The v0 state of a memory: `active` is an alias of the M1 states that recall reads. -/
def v0State : MemoryState → Option WireState
  | .active => some .active
  | .confirmed => some .active
  | .pinned => some .active
  | .superseded => some .superseded
  | .contradicted => some .contradicted
  | .archived => some .archived
  | .candidate => none
  | .stale => none

/-! ## Fields -/

/-- A valid text is the trimmed one. -/
theorem Text.modelValidate_ok {lo hi : Nat} {value : String} {t : Text lo hi}
    (h : Text.modelValidate lo hi value = .ok t) :
    t.val = trimBoth isTrimmed value ∧ (trimBoth isTrimmed value).length ≤ hi := by
  unfold Text.modelValidate at h
  by_cases hb : lo ≤ (trimBoth isTrimmed value).length ∧ (trimBoth isTrimmed value).length ≤ hi
  · rw [dif_pos hb] at h
    cases h
    exact ⟨rfl, hb.2⟩
  · rw [dif_neg hb] at h
    cases h

/-- A text is valid if its trimmed form is of the right length. -/
theorem Text.exists_modelValidate {lo hi : Nat} {value : String}
    (hlo : lo ≤ (trimBoth isTrimmed value).length) (hhi : (trimBoth isTrimmed value).length ≤ hi) :
    ∃ t, Text.modelValidate lo hi value = .ok t :=
  ⟨⟨_, trimBoth_trimBoth _ _, hlo, hhi⟩, dif_pos ⟨hlo, hhi⟩⟩

/-- A text that is not blank leaves something after trimming. -/
theorem one_le_length_of_not_blank {s : String} (h : isBlank s = false) :
    1 ≤ (trimBoth isTrimmed s).length := by
  rw [Nat.one_le_iff_ne_zero]
  intro hzero
  have hempty : trimBoth isTrimmed s = "" := by simpa using hzero
  rw [trimBoth_eq_empty_iff] at hempty
  have hblank : strip s = "" := by
    rw [strip, trimBoth_eq_empty_iff]
    intro c hc
    have htrim := hempty c hc
    simp only [isTrimmed, Bool.and_eq_true] at htrim
    exact htrim.1
  simp [isBlank, hblank] at h

theorem optional_ok {α β : Type} {check : α → Except PyError β} {value : Option α} {r : Option β}
    (h : optional check value = .ok r) {a : α} (ha : value = some a) : ∃ b, check a = .ok b := by
  subst ha
  cases hc : check a with
  | error e =>
    rw [optional, hc] at h
    cases h
  | ok b => exact ⟨b, rfl⟩

/-- A value that may be missing is valid if it is when it is there. -/
theorem exists_optional {α β : Type} {check : α → Except PyError β} {value : Option α}
    (h : ∀ a, value = some a → ∃ b, check a = .ok b) : ∃ r, optional check value = .ok r := by
  cases value with
  | none => exact ⟨none, rfl⟩
  | some a =>
    obtain ⟨b, hb⟩ := h a rfl
    exact ⟨some b, by rw [optional, hb]; rfl⟩

/-- A literal is one of the texts that it knows. -/
theorem literal_ok {α : Type} {ofValue : String → Option α} {text : String} {a : α} :
    literal ofValue text = .ok a ↔ ofValue text = some a := by
  unfold literal
  cases ofValue text <;> simp

theorem exists_ranged {α : Type} {p : α → Bool} {value : α} (h : p value = true) :
    ∃ r, Ranged.modelValidate p value = .ok r :=
  ⟨⟨value, h⟩, dif_pos h⟩

/-- v0 knows every type but the mental note. -/
theorem wireType_ofValue_isSome (t : MemoryType) :
    (WireType.ofValue t.value).isSome = true ↔ t ≠ .mentalNote := by
  cases t <;> decide

/-- And the states that were there before the inbox. -/
theorem wireState_ofValue (st : MemoryState) :
    WireState.ofValue st.value
      = if st ∈ v0States then v0State st else none := by
  cases st <;> decide

/-- And every type of source. -/
theorem wireSourceType_ofValue_isSome (t : SourceType) :
    (WireSourceType.ofValue t.value).isSome = true := by
  cases t <;> decide

/-- A time that the store prints is short and has nothing to trim. -/
theorem trimBoth_zulu (d : DateTime) : trimBoth isTrimmed d.zulu = d.zulu :=
  trimBoth_eq_self_of_forall fun c hc => by
    simp [isTrimmed, DateTime.not_isSpace_of_mem_zulu hc]

/-- The text of a time is valid. -/
theorem exists_text_zulu (d : DateTime) (lo : Nat) (hlo : lo ≤ 1) :
    ∃ t, Text.modelValidate lo 80 d.zulu = .ok t := by
  have hpos : 0 < d.zulu.length := by
    rw [Nat.pos_iff_ne_zero]
    intro hzero
    exact d.zulu_ne_empty (by simpa using hzero)
  have hle := d.length_zulu_le
  refine Text.exists_modelValidate ?_ ?_
  · rw [trimBoth_zulu]
    omega
  · rw [trimBoth_zulu]
    omega

/-- A time in UTC is a valid timestamp. -/
theorem exists_validTimestamp {d : DateTime} (hd : d.offset = some 0) :
    ∃ t, validTimestamp R d.zulu = .ok t := by
  unfold validTimestamp
  rw [fromZ_zulu, Python.fromisoformat_isoformat d hd]
  dsimp only
  rw [if_neg (by simp [hd])]
  have hutc := ensureAware_utc hd "captured_at"
  split
  · rename_i e he
    rw [hutc] at he
    cases he
  · exact ⟨_, rfl⟩

theorem trimBoth_str (u : UUID) : trimBoth isTrimmed u.str = u.str := by
  refine trimBoth_eq_self_of_forall fun c hc => ?_
  have hhex : ∀ n < 16, isTrimmed (hexDigit n) = false := by decide
  rcases UUID.mem_str hc with rfl | ⟨n, hn, rfl⟩
  · rfl
  · exact hhex n hn

/-! ## Records -/

/-- The fields of a validated record are those of the memory. -/
structure Represents (r : MemoryRecord R) (m : Memory R) : Prop where
  id : r.id.val = m.id.str
  content : r.content.val = m.content
  type : WireType.ofValue m.memoryType.value = some r.type
  state : WireState.ofValue m.state.value = some r.state

/-- Content is stored trimmed. -/
theorem trimBoth_content (m : Memory R) : trimBoth isTrimmed m.content = m.content := by
  rw [← m.collapse_content]
  exact trimBoth_collapse _

/-- What a validated record says about the memory. -/
theorem of_validate_memoryDict {m : Memory R} {r : MemoryRecord R}
    (h : MemoryRecord.modelValidate (memoryDict m) = .ok r) :
    V0Representable m ∧ Represents r m := by
  simp only [MemoryRecord.modelValidate, WireProvenance.modelValidate, except_bind_ok,
    except_pure_ok] at h
  obtain ⟨p, ⟨_, -, _, -, _, -, _, hsourceId, _, hsourceModel, _, hevidence, -⟩, _, hid, _, -, _,
    hcontent, _, htype, _, hspace, _, -, _, -, _, hstate, _, -, _, -, _, -, _, -, rfl⟩ := h
  obtain ⟨hidVal, -⟩ := Text.modelValidate_ok hid
  obtain ⟨hcontentVal, hcontentLen⟩ := Text.modelValidate_ok hcontent
  rw [literal_ok] at htype hstate
  have hlength : ∀ {lo hi : Nat} {value : Option String} {t : Option (Text lo hi)},
      optional (Text.modelValidate lo hi) value = .ok t →
      ∀ text, value = some text → (trimBoth isTrimmed text).length ≤ hi := by
    intro lo hi value t hopt text htext
    obtain ⟨_, hb⟩ := optional_ok hopt htext
    exact (Text.modelValidate_ok hb).2
  refine ⟨⟨?_, ?_, ?_, hlength hspace, hlength hsourceId, hlength hsourceModel, ?_⟩,
    hidVal.trans (trimBoth_str _), hcontentVal.trans (trimBoth_content m), htype, hstate⟩
  · rw [← wireType_ofValue_isSome]
    exact Option.isSome_iff_exists.mpr ⟨_, htype⟩
  · by_contra hout
    replace hstate : WireState.ofValue m.state.value = some _ := hstate
    rw [wireState_ofValue, if_neg hout] at hstate
    cases hstate
  · exact (trimBoth_content m) ▸ hcontentLen
  · by_cases hnil : m.provenance.evidence = []
    · rw [hnil]
      decide
    · exact hlength hevidence _ (if_neg hnil)

/-- An origin that v0 can represent is valid. -/
theorem exists_provenance {m : Memory R} (h : V0Origin m.provenance) :
    ∃ p, WireProvenance.modelValidate R (memoryDict m).provenance = .ok p := by
  obtain ⟨text, htext⟩ := exists_text_zulu m.provenance.capturedAt 1 le_rfl
  have hval : text.val = m.provenance.capturedAt.zulu :=
    (Text.modelValidate_ok htext).1.trans (trimBoth_zulu _)
  obtain ⟨capturedAt, hcaptured⟩ := exists_validTimestamp (R := R) m.provenance.capturedAt_utc
  obtain ⟨sourceType, hsource⟩ :=
    Option.isSome_iff_exists.mp (wireSourceType_ofValue_isSome m.provenance.sourceType)
  obtain ⟨sourceId, hsourceId⟩ := exists_optional fun t ht =>
    Text.exists_modelValidate (Nat.zero_le _) (h.sourceId t ht)
  obtain ⟨sourceModel, hsourceModel⟩ := exists_optional fun t ht =>
    Text.exists_modelValidate (Nat.zero_le _) (h.sourceModel t ht)
  obtain ⟨evidence, hevidence⟩ : ∃ e, optional (Text.modelValidate 0 2000)
      (memoryDict m).provenance.evidence = .ok e := by
    refine exists_optional fun t ht => Text.exists_modelValidate (Nat.zero_le _) ?_
    unfold memoryDict at ht
    dsimp only at ht
    by_cases hnil : m.provenance.evidence = []
    · rw [if_pos hnil] at ht
      cases ht
    · rw [if_neg hnil] at ht
      cases ht
      exact h.evidence
  simp only [WireProvenance.modelValidate, except_bind_ok, except_pure_ok]
  exact ⟨_, text, htext, capturedAt, hval ▸ hcaptured, sourceType, literal_ok.mpr hsource,
    sourceId, hsourceId, sourceModel, hsourceModel, evidence, hevidence, rfl⟩

/-- A memory of an owner that fits is accepted by the response schema exactly when v0 can
represent it. -/
theorem validate_memoryDict_iff {m : Memory R}
    (howner : (trimBoth isTrimmed m.ownerId).length ≤ 128) :
    (∃ r, MemoryRecord.modelValidate (memoryDict m) = .ok r) ↔ V0Representable m := by
  constructor
  · rintro ⟨r, hr⟩
    exact (of_validate_memoryDict hr).1
  · intro h
    obtain ⟨hnotOwner, hnotContent⟩ := m.not_blank
    obtain ⟨himportance, hconfidence⟩ := m.inUnit
    obtain ⟨p, hp⟩ := exists_provenance h.origin
    have hidLen := m.id.length_str
    obtain ⟨id, hid⟩ : ∃ t, Text.modelValidate 1 128 m.id.str = .ok t :=
      Text.exists_modelValidate (by rw [trimBoth_str]; omega) (by rw [trimBoth_str]; omega)
    obtain ⟨ownerId, hownerId⟩ :=
      Text.exists_modelValidate (one_le_length_of_not_blank hnotOwner) howner
    obtain ⟨content, hcontent⟩ : ∃ t, Text.modelValidate 1 maxContentLength m.content = .ok t :=
      Text.exists_modelValidate (one_le_length_of_not_blank hnotContent)
        (by rw [trimBoth_content]; exact h.content)
    obtain ⟨type, htype⟩ :=
      Option.isSome_iff_exists.mp ((wireType_ofValue_isSome m.memoryType).mpr h.type)
    obtain ⟨space, hspace⟩ := exists_optional fun t ht =>
      Text.exists_modelValidate (Nat.zero_le _) (h.space t ht)
    obtain ⟨importance, himp⟩ := exists_ranged himportance
    obtain ⟨confidence, hconf⟩ := exists_ranged hconfidence
    obtain ⟨state, hstate⟩ : ∃ st, WireState.ofValue m.state.value = some st := by
      rw [wireState_ofValue, if_pos h.state]
      have hmem := h.state
      revert hmem
      cases m.state <;> simp [v0State, v0States]
    obtain ⟨version, hversion⟩ : ∃ v : LowerInt 1, Ranged.modelValidate _ m.version = .ok v :=
      exists_ranged (by simpa using m.one_le_version)
    obtain ⟨createdAt, hcreated⟩ := exists_text_zulu m.createdAt 1 le_rfl
    obtain ⟨updatedAt, hupdated⟩ := exists_text_zulu m.updatedAt 1 le_rfl
    obtain ⟨occurredAt, hoccurred⟩ : ∃ t, optional (Text.modelValidate 0 80)
        (m.occurredAt.map DateTime.zulu) = .ok t := by
      refine exists_optional fun t ht => ?_
      obtain ⟨d, -, rfl⟩ := Option.map_eq_some_iff.mp ht
      exact exists_text_zulu d 0 (Nat.zero_le _)
    simp only [MemoryRecord.modelValidate, except_bind_ok, except_pure_ok]
    exact ⟨_, p, hp, id, hid, ownerId, hownerId, content, hcontent, type, literal_ok.mpr htype,
      space, hspace, importance, himp, confidence, hconf, state, literal_ok.mpr hstate, version,
      hversion, createdAt, hcreated, updatedAt, hupdated, occurredAt, hoccurred, rfl⟩

/-! ## Requests -/

theorem exists_enumOf_type (t : WireType) :
    ∃ type, enumOf MemoryType.ofValue t.value = .ok type := by
  cases t <;> exact ⟨_, rfl⟩

/-- A wire type makes no mental note. -/
theorem enumOf_type_ok {t : WireType} {type : MemoryType}
    (h : enumOf MemoryType.ofValue t.value = .ok type) : type ≠ .mentalNote := by
  cases t <;> cases h <;> nofun

theorem exists_enumOf_state (st : WireState) :
    ∃ state, enumOf MemoryState.ofValue st.value = .ok state := by
  cases st <;> exact ⟨_, rfl⟩

/-- A wire state makes a state that v0 knows. -/
theorem enumOf_state_ok {st : WireState} {state : MemoryState}
    (h : enumOf MemoryState.ofValue st.value = .ok state) : state ∈ v0States := by
  cases st <;> cases h <;> decide

/-- The origin of a request is one that v0 can represent. -/
theorem provenance_ok {wire : WireProvenance} {p : Provenance}
    (h : provenance R wire = .ok p) : V0Origin p := by
  simp only [provenance, Provenance.make, except_bind_ok, construct_ok] at h
  obtain ⟨_, -, _, -, f, -, hf, rfl⟩ := h
  simp only [ProvenanceFields.postInit, except_bind_ok, except_pure_ok] at hf
  obtain ⟨_, -, _, -, _, -, _, -, _, -, _, -, _, -, _, -, _, -, rfl⟩ := hf
  refine ⟨?_, ?_, ?_⟩
  · intro t ht
    obtain ⟨text, -, rfl⟩ := Option.map_eq_some_iff.mp ht
    rw [text.trimmed]
    exact text.bounded.2
  · intro t ht
    obtain ⟨text, -, rfl⟩ := Option.map_eq_some_iff.mp ht
    rw [text.trimmed]
    exact text.bounded.2
  · dsimp only
    cases wire.evidence with
    | none => decide
    | some text =>
      show (trimBoth isTrimmed
        (joinSpace (if text.val = "" then [] else [text.val]))).length ≤ 2000
      by_cases hempty : text.val = ""
      · rw [if_pos hempty]
        decide
      · rw [if_neg hempty]
        show (trimBoth isTrimmed text.val).length ≤ 2000
        rw [text.trimmed]
        exact text.bounded.2

end OpenMemory.Mcp
