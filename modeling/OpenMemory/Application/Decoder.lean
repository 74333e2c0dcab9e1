import OpenMemory.Application.Codec

/-!
# What the decoder lets through

The handler of `memory_from_dict` catches `KeyError`, `TypeError` and `ValueError`, and the
constructors raise `ValidationError`. What remains is `OverflowError`: `int` of an infinity,
`float` of an integer that is too large, and the conversion of a timestamp to UTC.

A step lemma (`failsBy_…`) says of each conversion and constructor when it raises it;
`takes_decodeFields` puts the conversions in their order, and `decoder_contained_iff` is the
result.
-/

namespace OpenMemory

open Lib

/-! ## Exceptions that escape -/

/-- The instant is not in the years 1–9999. -/
def DateTime.LeavesUtc (d : DateTime) : Prop :=
  ∃ off, d.offset = some off ∧ ¬(0 ≤ d.wall - off ∧ d.wall - off < maxWall)

namespace Loaded

variable {R : Type}

/-- An integer that no float can hold. -/
def TooLarge : Loaded R → Prop
  | .int n => floatLimit ≤ n.natAbs
  | _ => False

def Infinite : Loaded R → Prop
  | .float (.infinity _) => True
  | _ => False

end Loaded

/-- An exception of a constructor that the handler lets through, other than a `ValidationError`. -/
def PyError.Escapes (e : PyError) : Prop := (DecodeError.raised e).Escapes

/-- A validation error is one of those that the decoder answers for. -/
theorem not_escapes_validation (message : String) : ¬(PyError.validation message).Escapes :=
  fun h => h.2 message rfl

/-- `OverflowError` is not. -/
theorem escapes_overflowError : PyError.overflowError.Escapes :=
  ⟨rfl, fun _ h => by cases h⟩

/-- What the decoder catches does not escape. -/
theorem not_escapes_of_caught {e : DecodeError} (h : e.caught = true) : ¬e.Escapes := fun he => by
  rw [he.1] at h
  cases h

/-- A check with a validation error lets nothing escape. -/
theorem failsBy_raiseIf (c : Bool) (message : String) :
    FailsBy PyError.Escapes (raiseIf c (.validation message) : Except PyError Unit) ↔ False := by
  unfold raiseIf
  cases c with
  | false => exact failsBy_pure ()
  | true => exact failsBy_error.trans (iff_false_intro (not_escapes_validation message))

/-- Only the conversion to UTC can leave the range. -/
theorem failsBy_ensureAware (d : DateTime) (fieldName : String) :
    FailsBy PyError.Escapes (ensureAware d fieldName) ↔ d.LeavesUtc := by
  unfold ensureAware DateTime.LeavesUtc
  cases d.offset with
  | none =>
    refine failsBy_error.trans (iff_of_false (not_escapes_validation _) ?_)
    rintro ⟨off, h, -⟩
    cases h
  | some off =>
    simp only [Option.some.injEq, exists_eq_left']
    by_cases h : 0 ≤ d.wall - off ∧ d.wall - off < maxWall
    · rw [dif_pos h]
      exact iff_of_false (not_failsBy_ok _) (not_not_intro h)
    · rw [dif_neg h]
      exact failsBy_error.trans (iff_of_true escapes_overflowError h)

theorem failsBy_validateOwnerId (value : String) :
    FailsBy PyError.Escapes (validateOwnerId value) ↔ False := by
  simp [validateOwnerId, failsBy_bind, failsBy_map, failsBy_raiseIf]

theorem failsBy_validateSpace (value : Option String) :
    FailsBy PyError.Escapes (validateSpace value) ↔ False := by
  cases value <;> simp [validateSpace, failsBy_map, failsBy_raiseIf, failsBy_pure]

theorem failsBy_validateIdempotencyKey (value : Option String) :
    FailsBy PyError.Escapes (validateIdempotencyKey value) ↔ False := by
  cases value <;> simp [validateIdempotencyKey, failsBy_map, failsBy_raiseIf, failsBy_pure]

theorem failsBy_checkOpaqueId (value : Option String) (fieldName : String) :
    FailsBy PyError.Escapes (checkOpaqueId value fieldName) ↔ False := by
  simp [checkOpaqueId, failsBy_bind, failsBy_raiseIf]

/-- A check of an optional value lets out what the check of the value does. -/
theorem failsBy_optCheck {α β : Type} (check : α → Except PyError β) (value : Option α) :
    FailsBy PyError.Escapes (optCheck check value)
      ↔ ∃ a ∈ value, FailsBy PyError.Escapes (check a) := by
  cases value with
  | none => simp [optCheck, failsBy_pure]
  | some a => simp [optCheck, failsBy_map]

/-! ### The constructors -/

/-- The checks on a descriptor let nothing escape. -/
theorem failsBy_descriptor (f : DescriptorFields) :
    FailsBy PyError.Escapes (EmbeddingDescriptor.make f) ↔ False := by
  unfold EmbeddingDescriptor.make
  simp [failsBy_construct, DescriptorFields.postInit, failsBy_bind, failsBy_map, failsBy_raiseIf]

/-- `captured_at` is converted before anything else is checked. -/
theorem failsBy_provenance (f : ProvenanceFields) :
    FailsBy PyError.Escapes (Provenance.make f) ↔ f.capturedAt.LeavesUtc := by
  unfold Provenance.make
  simp [failsBy_construct, ProvenanceFields.postInit, failsBy_bind, failsBy_map, failsBy_raiseIf,
    failsBy_ensureAware, failsBy_checkOpaqueId]

/-- A text of a consent that passes. -/
def ConsentText (value : String) : Prop := isBlank value = false ∧ value.length ≤ maxOpaqueIdLength

/-- `granted_at` is converted last. -/
theorem failsBy_consent (f : ConsentFields) :
    FailsBy PyError.Escapes (CaptureConsent.make f) ↔
      ConsentText f.consentId ∧ ConsentText f.policyVersion ∧ f.grantedAt.LeavesUtc := by
  unfold CaptureConsent.make ConsentText
  simp [failsBy_construct, ConsentFields.postInit, checkConsentText, failsBy_bind, failsBy_map,
    failsBy_raiseIf, failsBy_ensureAware, raiseIf_except_ok, and_assoc]

section Memories

variable {R : Type} [Python R]

theorem failsBy_validateUnitInterval (value : R) (fieldName : String) :
    FailsBy PyError.Escapes (validateUnitInterval value fieldName) ↔ False := by
  simp [validateUnitInterval, failsBy_map, failsBy_raiseIf]

/-- Nor do those on a number between 0 and 1. -/
theorem failsBy_unitNumber (value : Number R) (fieldName : String) :
    FailsBy PyError.Escapes (unitNumber value fieldName) ↔ False := by
  cases value with
  | finite x => exact failsBy_validateUnitInterval x fieldName
  | infinity negative =>
    exact failsBy_error.trans (iff_false_intro (not_escapes_validation _))
  | nan => exact failsBy_error.trans (iff_false_intro (not_escapes_validation _))

/-- A timestamp of the memory is not in the years 1–9999, and everything that the constructor
checks before it passes. -/
structure ConstructorOverflows (f : MemoryFields (Number R)) : Prop where
  owner : ∃ owner, validateOwnerId f.ownerId = .ok owner
  tenant : optCheck validateOwnerId f.tenantId = .ok ()
  content : isBlank f.content = false ∧ (collapse f.content).length ≤ maxContentLength
  importance : ∃ x, unitNumber f.importance "importance" = .ok x
  confidence : ∃ x, unitNumber f.confidence "confidence" = .ok x
  version : 1 ≤ f.version
  timestamp : f.createdAt.LeavesUtc ∨
    ∃ created, ensureAware f.createdAt "created_at" = .ok created ∧
      (f.updatedAt.LeavesUtc ∨ ∃ updated, ensureAware f.updatedAt "updated_at" = .ok updated ∧
        created.wall ≤ updated.wall ∧ ∃ occurred ∈ f.occurredAt, occurred.LeavesUtc)

/-- A number that passes is finite and between 0 and 1. -/
theorem unitNumber_ok {value : Number R} {fieldName fieldName' : String} {x : R}
    (h : unitNumber value fieldName = .ok x) : validateUnitInterval x fieldName' = .ok x := by
  cases value with
  | finite y =>
    obtain ⟨_, hunit, h⟩ := except_bind_ok.mp h
    obtain rfl := except_pure_ok.mp h
    exact validateUnitInterval_ok (by simpa using raiseIf_except_ok.mp hunit) _
  | infinity negative => cases h
  | nan => cases h

/-- The constructor lets an exception escape exactly if one of its numbers overflows. -/
theorem failsBy_makeLoaded (f : MemoryFields (Number R)) :
    FailsBy PyError.Escapes (makeLoaded f) ↔ ConstructorOverflows f := by
  simp only [makeLoaded, Memory.make, failsBy_bind, failsBy_construct, MemoryFields.postInit,
    failsBy_validateOwnerId, failsBy_optCheck, failsBy_raiseIf, failsBy_unitNumber,
    failsBy_validateUnitInterval, failsBy_ensureAware, failsBy_validateSpace,
    failsBy_validateIdempotencyKey, failsBy_pure, raiseIf_except_ok, and_false, exists_false,
    false_or, or_false, decide_eq_false_iff_not, not_lt, exists_const]
  constructor
  · rintro ⟨owner, howner, ⟨⟩, htenant, hblank, hlength, i, hi, c, hc, _, -, _, -, -, -, _, -, _,
      -, hversion, htimestamp⟩
    exact ⟨⟨owner, howner⟩, htenant, ⟨hblank, hlength⟩, ⟨i, hi⟩, ⟨c, hc⟩, hversion, htimestamp⟩
  · intro h
    obtain ⟨owner, howner⟩ := h.owner
    obtain ⟨i, hi⟩ := h.importance
    obtain ⟨c, hc⟩ := h.confidence
    -- the constructor repeats the checks up to the numbers
    exact ⟨owner, howner, (), h.tenant, h.content.1, h.content.2, i, hi, c, hc, owner, howner, (),
      h.tenant, h.content.1, h.content.2, i, unitNumber_ok hi, c, unitNumber_ok hc, h.version,
      h.timestamp⟩

end Memories

/-! ### The conversions -/

section Conversions

variable {R : Type} [Python R] [Conversions R]

/-- An exception of the domain escapes from the decoder as itself. -/
theorem failsBy_raised {α : Type} {x : Except PyError α} :
    FailsBy DecodeError.Escapes (raised x) ↔ FailsBy PyError.Escapes x := by
  cases x with
  | ok a => exact iff_of_false (not_failsBy_ok _) (not_failsBy_ok _)
  | error e =>
    show FailsBy _ (Except.error (DecodeError.raised e)) ↔ _
    rw [failsBy_error, failsBy_error]
    rfl

theorem failsBy_caught {α : Type} {e : DecodeError} (h : e.caught = true) :
    FailsBy DecodeError.Escapes (.error e : Except DecodeError α) ↔ False :=
  failsBy_error.trans (iff_false_intro (not_escapes_of_caught h))

theorem failsBy_parsed {α : Type} (value : Option α) :
    FailsBy DecodeError.Escapes (DecodeError.parsed value) ↔ False := by
  cases value with
  | none => exact failsBy_caught rfl
  | some a => exact failsBy_pure a

/-- `float` overflows exactly for an integer that is too large. -/
theorem failsBy_toFloat (value : Loaded R) :
    FailsBy DecodeError.Escapes value.toFloat ↔ value.TooLarge := by
  cases value with
  | null | arr | obj => exact failsBy_caught rfl
  | bool b => exact failsBy_pure _
  | int n =>
    show FailsBy _ (if Loaded.floatLimit ≤ n.natAbs then _ else _) ↔ Loaded.floatLimit ≤ n.natAbs
    by_cases h : Loaded.floatLimit ≤ n.natAbs
    · rw [if_pos h]
      exact failsBy_error.trans (iff_of_true escapes_overflowError h)
    · rw [if_neg h]
      exact iff_of_false (not_failsBy_ok _) h
  | float x => cases x <;> exact failsBy_pure _
  | str s => exact failsBy_parsed _

/-- `int` overflows exactly for an infinity. -/
theorem failsBy_toInt (value : Loaded R) :
    FailsBy DecodeError.Escapes value.toInt ↔ value.Infinite := by
  cases value with
  | null | arr | obj => exact failsBy_caught rfl
  | bool b => exact failsBy_pure _
  | int n => exact failsBy_pure _
  | float x =>
    cases x with
    | finite x => exact failsBy_pure _
    | infinity negative => exact failsBy_error.trans (iff_of_true escapes_overflowError trivial)
    | nan => exact failsBy_caught rfl
  | str s => exact failsBy_parsed _

variable (members : List (String × Loaded R)) (key : String)

omit [Python R] [Conversions R] in
/-- An item is read exactly if it is there. -/
theorem itemOf_ok {value : Loaded R} :
    itemOf members key = .ok value ↔ Loaded.get members key = some value := by
  unfold itemOf
  cases Loaded.get members key <;> simp

omit [Python R] [Conversions R] in
/-- A missing item is caught. -/
theorem failsBy_itemOf : FailsBy DecodeError.Escapes (itemOf members key) ↔ False := by
  unfold itemOf
  split
  · exact failsBy_caught rfl
  · exact failsBy_pure _

theorem failsBy_itemText : FailsBy DecodeError.Escapes (itemText members key) ↔ False := by
  simp [itemText, failsBy_map, failsBy_itemOf]

/-- A text that does not parse is caught. -/
theorem failsBy_itemParsed {α : Type} (parse : String → Option α) :
    FailsBy DecodeError.Escapes (itemParsed parse members key) ↔ False := by
  unfold itemParsed
  simp only [failsBy_bind, failsBy_itemText, failsBy_parsed, and_false, exists_false, or_false]

omit [Python R] [Conversions R] in
theorem failsBy_itemMapping : FailsBy DecodeError.Escapes (itemMapping members key) ↔ False := by
  unfold itemMapping
  rw [failsBy_bind, failsBy_itemOf, false_or]
  refine iff_false_intro fun ⟨value, _, h⟩ => ?_
  cases value with
  | obj members => exact (failsBy_pure _).mp h
  | null | bool | int | float | str | arr => exact (failsBy_caught rfl).mp h

/-- A number field overflows exactly for an integer that is too large. -/
theorem failsBy_itemFloat : FailsBy DecodeError.Escapes (itemFloat members key) ↔
    ∃ value, Loaded.get members key = some value ∧ value.TooLarge := by
  unfold itemFloat
  simp only [failsBy_bind, failsBy_itemOf, false_or, itemOf_ok, failsBy_toFloat]

/-- An integer field overflows exactly for an infinity. -/
theorem failsBy_itemInt : FailsBy DecodeError.Escapes (itemInt members key) ↔
    ∃ value, Loaded.get members key = some value ∧ value.Infinite := by
  unfold itemInt
  simp only [failsBy_bind, failsBy_itemOf, false_or, itemOf_ok, failsBy_toInt]

theorem failsBy_decodeEvidence : FailsBy DecodeError.Escapes (decodeEvidence members) ↔ False := by
  unfold decodeEvidence
  split
  · exact failsBy_pure _
  · rename_i value _
    cases value with
    | arr | str | obj => exact failsBy_pure _
    | null | bool | int | float => exact failsBy_caught rfl

theorem failsBy_decodeOccurredAt :
    FailsBy DecodeError.Escapes (decodeOccurredAt members) ↔ False := by
  unfold decodeOccurredAt
  split
  · exact failsBy_pure _
  · split
    · rw [failsBy_map, failsBy_parsed]
    · exact failsBy_pure _

/-- The dimension of the descriptor is infinite, and the texts before it are there. -/
def EmbeddingOverflows (payload : List (String × Loaded R)) : Prop :=
  ∃ members, Loaded.get payload "embedding" = some (.obj members) ∧
    (∃ s, itemText members "profile_id" = .ok s) ∧
    (∃ s, itemText members "profile_version" = .ok s) ∧
    ∃ value, Loaded.get members "dimension" = some value ∧ value.Infinite

/-- Decoding the embedding overflows as its fields do. -/
theorem failsBy_decodeEmbedding (payload : List (String × Loaded R)) :
    FailsBy DecodeError.Escapes (decodeEmbedding payload) ↔ EmbeddingOverflows payload := by
  unfold decodeEmbedding EmbeddingOverflows
  split
  · rename_i members h
    rw [failsBy_map]
    simp only [decodeDescriptor, failsBy_bind, failsBy_itemText, failsBy_itemInt, failsBy_raised,
      failsBy_descriptor, false_or, or_false, and_false, exists_false]
    constructor
    · rintro ⟨i, hi, v, hv, hinfinite⟩
      exact ⟨members, h, ⟨i, hi⟩, ⟨v, hv⟩, hinfinite⟩
    · rintro ⟨_, heq, ⟨i, hi⟩, ⟨v, hv⟩, hinfinite⟩
      cases h.symm.trans heq
      exact ⟨i, hi, v, hv, hinfinite⟩
  · rename_i hnot
    refine (failsBy_pure _).trans (iff_of_false not_false ?_)
    rintro ⟨members, h, -⟩
    exact hnot members h

/-- `captured_at` is not in the years 1–9999, and the values before it can be converted. -/
def ProvenanceOverflows (members : List (String × Loaded R)) : Prop :=
  (∃ t, itemParsed SourceType.ofValue members "source_type" = .ok t) ∧
    (∃ l, decodeEvidence members = .ok l) ∧
    ∃ d, itemParsed (Python.fromisoformat R) members "captured_at" = .ok d ∧ d.LeavesUtc

/-- So does decoding the origin. -/
theorem failsBy_decodeProvenance :
    FailsBy DecodeError.Escapes (decodeProvenance members) ↔ ProvenanceOverflows members := by
  unfold ProvenanceOverflows
  simp only [decodeProvenance, failsBy_bind, failsBy_itemParsed, failsBy_decodeEvidence,
    failsBy_raised, failsBy_provenance, false_or]
  constructor
  · rintro ⟨t, ht, d, hd, l, hl, hleaves⟩
    exact ⟨⟨t, ht⟩, ⟨l, hl⟩, d, hd, hleaves⟩
  · rintro ⟨⟨t, ht⟩, ⟨l, hl⟩, d, hd, hleaves⟩
    exact ⟨t, ht, d, hd, l, hl, hleaves⟩

/-- `granted_at` is not in the years 1–9999, and everything before it passes. -/
def ConsentOverflows (payload : List (String × Loaded R)) : Prop :=
  ∃ members, Loaded.get payload "capture_consent" = some (.obj members) ∧
    (∃ m, itemParsed ConsentMode.ofValue members "mode" = .ok m) ∧
    (∃ r, itemParsed ConsentReason.ofValue members "reason_code" = .ok r) ∧
    (∃ s, itemText members "consent_id" = .ok s ∧ ConsentText s) ∧
    (∃ s, itemText members "policy_version" = .ok s ∧ ConsentText s) ∧
    ∃ d, itemParsed (Python.fromisoformat R) members "granted_at" = .ok d ∧ d.LeavesUtc

/-- And decoding the consent. -/
theorem failsBy_decodeConsent (payload : List (String × Loaded R)) :
    FailsBy DecodeError.Escapes (decodeConsent payload) ↔ ConsentOverflows payload := by
  unfold decodeConsent ConsentOverflows
  split
  · rename_i members h
    rw [failsBy_map]
    simp only [decodeCaptureConsent, failsBy_bind, failsBy_itemText, failsBy_itemParsed,
      failsBy_raised, failsBy_consent, false_or]
    constructor
    · rintro ⟨m, hm, i, hi, r, hr, v, hv, d, hd, hid, hversion, hleaves⟩
      exact ⟨members, h, ⟨m, hm⟩, ⟨r, hr⟩, ⟨i, hi, hid⟩, ⟨v, hv, hversion⟩, d, hd, hleaves⟩
    · rintro ⟨_, heq, ⟨m, hm⟩, ⟨r, hr⟩, ⟨i, hi, hid⟩, ⟨v, hv, hversion⟩, d, hd, hleaves⟩
      cases h.symm.trans heq
      exact ⟨m, hm, i, hi, r, hr, v, hv, d, hd, hid, hversion, hleaves⟩
  · rename_i hnot
    refine (failsBy_pure _).trans (iff_of_false not_false ?_)
    rintro ⟨members, h, -⟩
    exact hnot members h

/-! ### The decoder -/

/-- The members of the provenance. -/
def provenanceMembers (payload : List (String × Loaded R)) : List (String × Loaded R) :=
  match Loaded.get payload "provenance" with
  | some (.obj members) => members
  | _ => []

omit [Python R] [Conversions R] in
theorem provenanceMembers_eq {payload members : List (String × Loaded R)}
    (h : itemMapping payload "provenance" = .ok members) : provenanceMembers payload = members := by
  obtain ⟨value, hvalue, h⟩ := except_bind_ok.mp h
  unfold provenanceMembers
  rw [(itemOf_ok _ _).mp hvalue]
  cases value with
  | obj members' =>
    obtain rfl := except_pure_ok.mp h
    rfl
  | null | bool | int | float | str | arr => cases h

/-- The conversions of the decoder, in their order, and when each leaves its range. -/
def conversions (payload : List (String × Loaded R)) : List Check :=
  [.of (itemMapping payload "provenance") False,
    .of (decodeEmbedding payload) (EmbeddingOverflows payload),
    .of (itemParsed (Python.parseUuid R) payload "id") False,
    .of (itemText payload "owner_id") False,
    .of (itemText payload "content") False,
    .of (itemParsed MemoryType.ofValue payload "type") False,
    .of (itemFloat payload "importance")
      (∃ value, Loaded.get payload "importance" = some value ∧ value.TooLarge),
    .of (itemFloat payload "confidence")
      (∃ value, Loaded.get payload "confidence" = some value ∧ value.TooLarge),
    .of (itemParsed MemoryState.ofValue payload "state") False,
    .of (itemInt payload "version")
      (∃ value, Loaded.get payload "version" = some value ∧ value.Infinite),
    .of (itemParsed (Python.fromisoformat R) payload "created_at") False,
    .of (itemParsed (Python.fromisoformat R) payload "updated_at") False,
    .of (decodeOccurredAt payload) False,
    .of (decodeProvenance (provenanceMembers payload))
      (ProvenanceOverflows (provenanceMembers payload)),
    .of (decodeConsent payload) (ConsentOverflows payload)]

/-- Fields are decoded in order, so the first conversion that fails decides. -/
theorem takes_decodeFields (payload : List (String × Loaded R)) :
    Takes DecodeError.Escapes (decodeFields payload) (conversions payload) := by
  refine .step (failsBy_itemMapping _ _) fun members hmembers => ?_
  rw [provenanceMembers_eq hmembers]
  refine .step (failsBy_decodeEmbedding _) fun _ _ => ?_
  refine .step (failsBy_itemParsed _ _ _) fun _ _ => ?_
  refine .step (failsBy_itemText _ _) fun _ _ => ?_
  refine .step (failsBy_itemText _ _) fun _ _ => ?_
  refine .step (failsBy_itemParsed _ _ _) fun _ _ => ?_
  refine .step (failsBy_itemFloat _ _) fun _ _ => ?_
  refine .step (failsBy_itemFloat _ _) fun _ _ => ?_
  refine .step (failsBy_itemParsed _ _ _) fun _ _ => ?_
  refine .step (failsBy_itemInt _ _) fun _ _ => ?_
  refine .step (failsBy_itemParsed _ _ _) fun _ _ => ?_
  refine .step (failsBy_itemParsed _ _ _) fun _ _ => ?_
  refine .step (failsBy_decodeOccurredAt _) fun _ _ => ?_
  refine .step (failsBy_decodeProvenance _) fun _ _ => ?_
  exact .step (failsBy_decodeConsent _) fun _ _ => .done _

/-- Of the steps of the decoder, the first that does not pass leaves the range of its result. -/
def Overflows (payload : List (String × Loaded R)) : Prop :=
  schemaSupported payload = true ∧ (FirstFails (conversions payload) ∨
    ∃ fields, decodeFields payload = .ok fields ∧ ConstructorOverflows fields)

/-- What gets out of the `try` block is not caught. -/
theorem handled_error {α : Type} {x : Except DecodeError α} {e : DecodeError}
    (h : handled x = .error e) : e.caught = false := by
  cases x with
  | ok a => cases h
  | error e' =>
    simp only [handled] at h
    split at h
    · cases h
      rfl
    · rename_i hnot
      cases h
      simpa using hnot

/-- The `except` clause lets through what escapes. -/
theorem failsBy_handled {α : Type} {x : Except DecodeError α} :
    FailsBy DecodeError.Escapes (handled x) ↔ FailsBy DecodeError.Escapes x := by
  cases x with
  | ok a => rfl
  | error e =>
    simp only [handled]
    split
    · rename_i h
      rw [failsBy_error]
      exact iff_of_false (not_escapes_validation _) (failsBy_caught h).mp
    · rfl

/-- The decoder raises a `ValidationError` and nothing else just when no step of it that is
reached leaves the range of its result. -/
theorem decoder_contained_iff (payload : List (String × Loaded R)) :
    (∀ e, memoryFromDict payload = .error e →
        ∃ message, e = .raised (.validation message)) ↔ ¬Overflows payload := by
  unfold memoryFromDict Overflows
  by_cases hschema : schemaSupported payload = true
  · have hsteps : FailsBy DecodeError.Escapes (handled do
          let fields ← decodeFields payload
          raised (makeLoaded fields)) ↔
        FirstFails (conversions payload) ∨
          ∃ fields, decodeFields payload = .ok fields ∧ ConstructorOverflows fields := by
      simp only [failsBy_handled, failsBy_bind, (takes_decodeFields payload).bad_iff,
        failsBy_raised, failsBy_makeLoaded]
    rw [if_pos hschema, and_iff_right hschema, ← hsteps]
    constructor
    · rintro h ⟨e, he, hescapes⟩
      obtain ⟨message, rfl⟩ := h e he
      exact hescapes.2 message rfl
    · intro h e he
      by_contra hnot
      exact h ⟨e, he, handled_error he, fun message heq => hnot ⟨message, heq⟩⟩
  · rw [if_neg hschema]
    refine iff_of_true (fun e he => ?_) fun h => hschema h.1
    cases he
    exact ⟨_, rfl⟩

end Conversions

/-! ## A version that is no number -/

/-- The encoded note with another value of a field. -/
def noteWith (key : String) (value : Loaded ℚ) : List (String × Loaded ℚ) :=
  (memoryToDict capturedNote).map fun e => if e.1 = key then (key, value) else e

/-- `json.loads` reads `Infinity`, and integers of any length. -/
theorem decoder_overflows :
    memoryFromDict (noteWith "version" (.float (.infinity false))) = .error .overflowError ∧
      memoryFromDict (noteWith "importance" (.int (10 ^ 400))) = .error .overflowError := by
  constructor <;> decide +kernel

end OpenMemory
