import OpenMemory.Domain.Memory
import OpenMemory.Lib.Checks

/-!
# What the constructors ask for (`domain/types.py`, `domain/memory.py`)

Whatever the validators and the `__post_init__` of the value objects refuse, they refuse with a
`ValidationError`, as long as the timestamps exist in UTC. `demands_…` gives the condition under
which each of them succeeds: `ProvenanceFields.Meets` for an origin, `MemoryFields.Meets` for a
memory. A stored memory meets it, so a new version does if the changed fields do.
-/

namespace OpenMemory

open Lib

/-- A `ValidationError`. -/
def PyError.Invalid (e : PyError) : Prop := ∃ message, e = .validation message

theorem invalid_validation (message : String) : (PyError.validation message).Invalid :=
  ⟨message, rfl⟩

/-- It is the only exception of the domain that is one. -/
theorem not_invalid_omp {cls : ErrorClass} (h : cls ≠ .validationError) (message : String) :
    ¬(PyError.omp cls message).Invalid := by
  rintro ⟨message', heq⟩
  cases heq
  exact h rfl

/-! ## Validators -/

/-- A check demands that its condition is false. -/
theorem demands_raiseIf (c : Bool) (message : String) :
    Demands PyError.Invalid (raiseIf c (.validation message) : Except PyError Unit)
      (c = false) := by
  cases c with
  | false => exact ⟨fun _ => ⟨(), rfl⟩, fun h => absurd rfl h⟩
  | true => exact ⟨nofun, fun _ => failsBy_error.mpr (invalid_validation message)⟩

theorem not_failsBy_raiseIf_omp {cls : ErrorClass} (h : cls ≠ .validationError) {c : Bool}
    {message : String} :
    ¬FailsBy PyError.Invalid (raiseIf c (.omp cls message) : Except PyError Unit) := by
  cases c with
  | false => exact not_failsBy_ok ()
  | true => exact fun hfails => not_invalid_omp h message (failsBy_error.mp hfails)

theorem not_failsBy_run_raiseIf {σ : Type} {cls : ErrorClass} (h : cls ≠ .validationError)
    {c : Bool} {message : String} {s : σ} :
    ¬FailsBy PyError.Invalid ((raiseIf c (.omp cls message) : Txn σ PyError Unit).run s) := by
  cases c with
  | false => exact not_failsBy_ok _
  | true => exact fun hfails => not_invalid_omp h message (failsBy_error.mp hfails)

/-- A text that `strip` leaves something of, and not more than `hi` characters. -/
structure NamedWithin (hi : Nat) (value : String) : Prop where
  not_blank : isBlank value = false
  short : (strip value).length ≤ hi

/-- `validate_owner_id` demands a name of at most the maximal length. -/
theorem demands_validateOwnerId (value : String) :
    Demands PyError.Invalid (validateOwnerId value) (NamedWithin maxOwnerIdLength value) := by
  refine ((demands_raiseIf _ _).bind fun _ _ => (demands_raiseIf _ _).bind fun _ _ =>
    .of_ok rfl).congr ?_
  rw [and_true, decide_eq_false_iff_not, not_lt]
  exact ⟨fun ⟨h₁, h₂⟩ => ⟨h₁, h₂⟩, fun ⟨h₁, h₂⟩ => ⟨h₁, h₂⟩⟩

/-- A nullable field. -/
theorem demands_optCheck {α β : Type} {check : α → Except PyError β} {p : α → Prop}
    {value : Option α} (h : ∀ a, value = some a → Demands PyError.Invalid (check a) (p a)) :
    Demands PyError.Invalid (optCheck check value) (∀ a ∈ value, p a) := by
  cases value with
  | none => exact (Demands.of_ok rfl).congr ⟨fun _ _ ha => (by cases ha), fun _ => trivial⟩
  | some a =>
    refine ((h a rfl).bind fun _ _ => .of_ok rfl).congr ?_
    simp

/-- The check of `validate_space` and `validate_idempotency_key`. -/
theorem demands_named (hi : Nat) (value message : String) :
    Demands PyError.Invalid
      (do
        raiseIf (isBlank value || decide (hi < (strip value).length)) (.validation message)
        pure (some (strip value)) : Except PyError (Option String))
      (NamedWithin hi value) := by
  refine ((demands_raiseIf _ _).bind fun _ _ => .of_ok rfl).congr ?_
  rw [and_true, Bool.or_eq_false_iff, decide_eq_false_iff_not, not_lt]
  exact ⟨fun ⟨h₁, h₂⟩ => ⟨h₁, h₂⟩, fun ⟨h₁, h₂⟩ => ⟨h₁, h₂⟩⟩

/-- `validate_space` demands it of a space that is given. -/
theorem demands_validateSpace (value : Option String) :
    Demands PyError.Invalid (validateSpace value)
      (∀ text ∈ value, NamedWithin maxSpaceLength text) := by
  cases value with
  | none => exact (Demands.of_ok rfl).congr ⟨fun _ _ ha => (by cases ha), fun _ => trivial⟩
  | some text => exact (demands_named _ _ _).congr (by simp)

/-- `validate_idempotency_key` demands it of a key that is given. -/
theorem demands_validateIdempotencyKey (value : Option String) :
    Demands PyError.Invalid (validateIdempotencyKey value)
      (∀ text ∈ value, NamedWithin maxIdempotencyKeyLength text) := by
  cases value with
  | none => exact (Demands.of_ok rfl).congr ⟨fun _ _ ha => (by cases ha), fun _ => trivial⟩
  | some text => exact (demands_named _ _ _).congr (by simp)

/-- `validate_unit_interval` demands a number of the unit interval. -/
theorem demands_validateUnitInterval {R : Type} [Python R] (value : R) (fieldName : String) :
    Demands PyError.Invalid (validateUnitInterval value fieldName)
      (Python.inUnit value = true) := by
  refine ((demands_raiseIf _ _).bind fun _ _ => .of_ok rfl).congr ?_
  simp

/-! ## Origins -/

theorem someAnd_eq_false_iff {α : Type} {bad : α → Bool} {value : Option α} :
    someAnd bad value = false ↔ ∀ a ∈ value, bad a = false := by
  cases value <;> simp [someAnd]

/-- An opaque identifier that passes. -/
def OpaqueId (value : String) : Prop := isBlank value = false ∧ value.length ≤ maxOpaqueIdLength

/-- A reference to a source has to be an opaque id. -/
theorem demands_checkOpaqueId (value : Option String) (fieldName : String) :
    Demands PyError.Invalid (checkOpaqueId value fieldName) (∀ text ∈ value, OpaqueId text) := by
  refine ((demands_raiseIf _ _).bind fun _ _ => demands_raiseIf _ _).congr ?_
  simp only [someAnd_eq_false_iff, decide_eq_false_iff_not, not_lt]
  exact ⟨fun ⟨h₁, h₂⟩ text ht => ⟨h₁ text ht, h₂ text ht⟩,
    fun h => ⟨fun text ht => (h text ht).1, fun text ht => (h text ht).2⟩⟩

/-- What `Provenance.__post_init__` asks for, beside a time of capture that exists in UTC. -/
structure ProvenanceFields.Meets (f : ProvenanceFields) : Prop where
  sourceId : ∀ text ∈ f.sourceId, isBlank text = false
  sourceModel : ∀ text ∈ f.sourceModel, isBlank text = false
  evidence : ∀ item ∈ f.evidence, isBlank item = false ∧ item.length ≤ maxEvidenceItemLength
  sourceClient : ∀ text ∈ f.sourceClient, OpaqueId text
  sourceConnectionId : ∀ text ∈ f.sourceConnectionId, OpaqueId text
  conversationId : ∀ text ∈ f.conversationId, OpaqueId text
  messageId : ∀ text ∈ f.messageId, OpaqueId text

/-- A provenance demands what its fields are checked for. -/
theorem demands_provenance {f : ProvenanceFields} {utc : DateTime}
    (hat : ensureAware f.capturedAt "captured_at" = .ok utc) :
    Demands PyError.Invalid (Provenance.make f) f.Meets := by
  unfold Provenance.make
  refine Demands.construct ?_
  unfold ProvenanceFields.postInit
  refine ((Demands.of_ok hat).bind fun _ _ =>
    (demands_raiseIf _ _).bind fun _ _ => (demands_raiseIf _ _).bind fun _ _ =>
    (demands_raiseIf _ _).bind fun _ _ => (demands_checkOpaqueId _ _).bind fun _ _ =>
    (demands_checkOpaqueId _ _).bind fun _ _ => (demands_checkOpaqueId _ _).bind fun _ _ =>
    (demands_checkOpaqueId _ _).bind fun _ _ => (demands_raiseIf _ _).bind fun _ _ =>
    .of_ok rfl).congr ?_
  simp only [someAnd_eq_false_iff, List.any_eq_false, decide_eq_true_eq, not_lt,
    Bool.not_eq_true, true_and, and_true]
  constructor
  · rintro ⟨hid, hmodel, hblank, hclient, hconnection, hconversation, hmessage, hlong⟩
    exact ⟨hid, hmodel, fun item hitem => ⟨hblank item hitem, hlong item hitem⟩, hclient,
      hconnection, hconversation, hmessage⟩
  · rintro ⟨hid, hmodel, hevidence, hclient, hconnection, hconversation, hmessage⟩
    exact ⟨hid, hmodel, fun item hitem => (hevidence item hitem).1, hclient, hconnection,
      hconversation, hmessage, fun item hitem => (hevidence item hitem).2⟩

/-! ## Memories -/

variable {R : Type} [Python R]

/-- A content that is not blank and, its words joined by single spaces, not too long. -/
structure ContentFits (text : String) : Prop where
  not_blank : isBlank text = false
  short : (collapse text).length ≤ maxContentLength

/-- What `Memory.__post_init__` asks for, the times apart. -/
structure MemoryFields.Meets (f : MemoryFields R) : Prop where
  owner : NamedWithin maxOwnerIdLength f.ownerId
  tenant : ∀ text ∈ f.tenantId, NamedWithin maxOwnerIdLength text
  content : ContentFits f.content
  importance : Python.inUnit f.importance = true
  confidence : Python.inUnit f.confidence = true
  version : 1 ≤ f.version
  space : ∀ text ∈ f.space, NamedWithin maxSpaceLength text
  key : ∀ text ∈ f.idempotencyKey, NamedWithin maxIdempotencyKeyLength text

/-- The times exist in UTC, and the last change did not come before the creation. -/
structure MemoryFields.Timed (f : MemoryFields R) : Prop where
  stamps : ∃ created updated, ensureAware f.createdAt "created_at" = .ok created ∧
    ensureAware f.updatedAt "updated_at" = .ok updated ∧ created.wall ≤ updated.wall
  occurred : ∀ at_ ∈ f.occurredAt, ∃ utc, ensureAware at_ "occurred_at" = .ok utc

/-- `__post_init__` of a memory demands what the fields are to meet. -/
theorem MemoryFields.demands_postInit {f : MemoryFields R} (h : f.Timed) :
    Demands PyError.Invalid f.postInit f.Meets := by
  obtain ⟨created, updated, hcreated, hupdated, hle⟩ := h.stamps
  have horder : raiseIf (decide (updated.wall < created.wall))
      (.validation "updated_at cannot precede created_at") = (.ok () : Except PyError Unit) :=
    raiseIf_except_ok.mpr (decide_eq_false (not_lt.mpr hle))
  have hoccurred : Demands PyError.Invalid
      (optCheck (fun at_ => ensureAware at_ "occurred_at") f.occurredAt)
      (∀ at_ ∈ f.occurredAt, True) := by
    refine demands_optCheck fun at_ hat => ?_
    obtain ⟨utc, hutc⟩ := h.occurred at_ hat
    exact .of_ok hutc
  unfold postInit
  refine ((demands_validateOwnerId _).bind fun _ _ =>
    (demands_optCheck fun text _ => demands_validateOwnerId text).bind fun _ _ =>
    (demands_raiseIf _ _).bind fun _ _ => (demands_raiseIf _ _).bind fun _ _ =>
    (demands_validateUnitInterval _ _).bind fun _ _ =>
    (demands_validateUnitInterval _ _).bind fun _ _ => (demands_raiseIf _ _).bind fun _ _ =>
    (Demands.of_ok hcreated).bind fun created' hcreated' =>
    (Demands.of_ok hupdated).bind fun updated' hupdated' =>
    Demands.bind (p := True) ?_ fun _ _ => hoccurred.bind fun _ _ =>
    (demands_validateSpace _).bind fun _ _ => (demands_validateIdempotencyKey _).bind fun _ _ =>
    .of_ok rfl).congr ?_
  · obtain rfl := Except.ok.inj (hcreated.symm.trans hcreated')
    obtain rfl := Except.ok.inj (hupdated.symm.trans hupdated')
    exact .of_ok horder
  · simp only [decide_eq_false_iff_not, not_lt, true_and, and_true, implies_true]
    constructor
    · rintro ⟨howner, htenant, hblank, hlong, himportance, hconfidence, hversion, hspace, hkey⟩
      exact ⟨howner, htenant, ⟨hblank, hlong⟩, himportance, hconfidence, hversion, hspace, hkey⟩
    · rintro ⟨howner, htenant, ⟨hblank, hlong⟩, himportance, hconfidence, hversion, hspace, hkey⟩
      exact ⟨howner, htenant, hblank, hlong, himportance, hconfidence, hversion, hspace, hkey⟩

namespace Memory

/-- So does making a memory of them. -/
theorem demands_make {f : MemoryFields R} (h : f.Timed) :
    Demands PyError.Invalid (make f) f.Meets :=
  (MemoryFields.demands_postInit h).construct

/-- The times of a stored memory. -/
theorem timed (m : Memory R) : m.Timed := by
  have h := m.checked
  simp only [MemoryFields.postInit, except_bind_ok, raiseIf_except_ok] at h
  obtain ⟨_, -, _, -, _, -, _, -, _, -, _, -, _, -, created, hcreated, updated, hupdated, _, hle, _,
    hoccurred, -⟩ := h
  refine ⟨⟨created, updated, hcreated, hupdated, by simpa using hle⟩, fun at_ hat => ?_⟩
  rw [Option.mem_def.mp hat] at hoccurred
  obtain ⟨utc, hutc, -⟩ := except_bind_ok.mp hoccurred
  exact ⟨utc, hutc⟩

/-- Every memory meets the demands of its class. -/
theorem meets (m : Memory R) : m.Meets :=
  (MemoryFields.demands_postInit m.timed).ok_iff.mp ⟨_, m.checked⟩

/-- A refused transition is not a `ValidationError`. -/
theorem not_failsBy_assertTransition (m : Memory R) (target : MemoryState) (related : Option UUID) :
    ¬FailsBy PyError.Invalid (m.assertTransition target related) := by
  unfold assertTransition
  split
  · exact not_failsBy_ok _
  · intro h
    obtain h | ⟨_, -, h⟩ := failsBy_bind.mp h
    · exact not_failsBy_raiseIf_omp (by decide) h
    · exact not_failsBy_raiseIf_omp (by decide) h

/-- What the arguments of `evolve` have to meet; the fields that they leave alone do. -/
structure EvolveArgs.Meets (a : EvolveArgs R) : Prop where
  changeReason : isBlank a.changeReason = false
  content : ∀ text ∈ a.content, ContentFits text
  importance : ∀ x ∈ a.importance, Python.inUnit x = true
  confidence : ∀ x ∈ a.confidence, Python.inUnit x = true
  space : ∀ space ∈ a.space, ∀ text ∈ space, NamedWithin maxSpaceLength text

/-- The clock reads on from the creation of the memory. -/
def ReadAfter (m : Memory R) (t : DateTime) : Prop :=
  ∀ created, ensureAware m.createdAt "created_at" = .ok created → created.wall ≤ t.wall

/-- A field that a patch may replace. -/
theorem getD_iff {α : Type} {p : α → Prop} {current : α} (hcurrent : p current)
    (patch : Option α) : p (patch.getD current) ↔ ∀ a ∈ patch, p a := by
  cases patch with
  | none => exact iff_of_true hcurrent nofun
  | some a => simp

/-- The fields of the new version, before their checks. -/
def evolved (m : Memory R) (a : EvolveArgs R) (updatedAt : DateTime) : MemoryFields R :=
  { m.toMemoryFields with
    content := a.content.getD m.content, memoryType := a.memoryType.getD m.memoryType,
    importance := a.importance.getD m.importance, confidence := a.confidence.getD m.confidence,
    state := a.state.getD m.state, occurredAt := a.occurredAt.getD m.occurredAt,
    space := a.space.getD m.space, provenance := a.provenance.getD m.provenance,
    embedding := a.embedding.getD m.embedding, version := m.version + 1, updatedAt := updatedAt }

/-- For the next version only the arguments have to meet them. -/
theorem evolved_meets_iff (m : Memory R) (a : EvolveArgs R) (updatedAt : DateTime)
    (hreason : isBlank a.changeReason = false) : (m.evolved a updatedAt).Meets ↔ a.Meets := by
  have hold := m.meets
  have hcontent := getD_iff (p := ContentFits) hold.content a.content
  have himportance := getD_iff (p := fun x => Python.inUnit x = true) hold.importance a.importance
  have hconfidence := getD_iff (p := fun x => Python.inUnit x = true) hold.confidence a.confidence
  have hspace := getD_iff (p := fun space : Option String =>
    ∀ text ∈ space, NamedWithin maxSpaceLength text) hold.space a.space
  constructor
  · intro hnew
    exact ⟨hreason, hcontent.mp hnew.content, himportance.mp hnew.importance,
      hconfidence.mp hnew.confidence, hspace.mp hnew.space⟩
  · intro h
    constructor
    case owner => exact hold.owner
    case tenant => exact hold.tenant
    case content => exact hcontent.mpr h.content
    case importance => exact himportance.mpr h.importance
    case confidence => exact hconfidence.mpr h.confidence
    case version => exact hold.version.trans (Int.le_add_one le_rfl)
    case space => exact hspace.mpr h.space
    case key => exact hold.key

/-- Where the lifecycle allows it, a memory evolves exactly with arguments that meet the checks. -/
theorem demands_evolve {m : Memory R} {a : EvolveArgs R} {t : DateTime}
    (hmove : m.assertTransition (a.state.getD m.state) a.relatedMemoryId = .ok ())
    (hnow : ensureAware a.now "now" = .ok t) (hafter : m.ReadAfter t)
    (hoccurred : ∀ at_ ∈ (a.occurredAt.getD m.occurredAt),
      ∃ utc, ensureAware at_ "occurred_at" = .ok utc) :
    Demands PyError.Invalid (m.evolve a) a.Meets := by
  obtain ⟨created, -, hcreated, -, -⟩ := m.timed.stamps
  have htimed : (m.evolved a t).Timed :=
    ⟨⟨created, t, hcreated, ensureAware_idem hnow, hafter created hcreated⟩, hoccurred⟩
  have hmake : ∀ at_, ensureAware a.now "now" = .ok at_ →
      Demands PyError.Invalid (make (m.evolved a at_)) (m.evolved a t).Meets := by
    intro at_ hat
    obtain rfl := Except.ok.inj (hnow.symm.trans hat)
    exact demands_make htimed
  refine Demands.congr (Demands.bind (Demands.of_ok hmove) fun _ _ =>
    Demands.bind (demands_raiseIf _ _) fun _ _ => Demands.bind (Demands.of_ok hnow) hmake) ?_
  constructor
  · rintro ⟨-, hreason, -, hnew⟩
    exact (m.evolved_meets_iff a t hreason).mp hnew
  · intro h
    exact ⟨trivial, h.changeReason, trivial, (m.evolved_meets_iff a t h.changeReason).mpr h⟩

end Memory

end OpenMemory
