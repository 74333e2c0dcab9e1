import OpenMemory.Cloud.Reembedding
import OpenMemory.Lib.Patch
import OpenMemory.Mcp.Tenants
import OpenMemory.Mcp.Updates

/-!
# What becomes of a patch

A client patches a memory on four paths: `memory.update` and `memory.inbox.confirm` of M1, and
`memory.update` of v0 over the application service or over the Cloud service. Each has a list of
fields of its own that it hands on.

`Patch.Lands` (`Lib.Patch`) says what a client may expect: the stored memory shows each value that
the patch names, and the rest is as before. Both updates of the application service hand on all that
is named. A confirmation hands on content, type and space, and the Cloud service everything but the
provenance: what they leave out lands only if the memory shows it already
(`patches_land_iff`).
-/

namespace OpenMemory.Mcp

open Lib MemoryApplicationService InMemoryStore
open Cloud (TenantEnvelopeEncryptor EncryptedCloudMemoryService StoredRecord PyObj ContentIs)

variable {R : Type} [Python R] {Arguments : Type}

/-! ## Patches of M1 -/

def m1MaxContent : Nat := 16384
def m1MaxSpace : Nat := 128

/-- `M1Provenance.model_validate`. -/
def M1Provenance.modelValidate (R : Type) [Python R] (d : M1Provenance) :
    Except PyError M1Provenance := do
  let text ← Text.modelValidate 1 80 d.capturedAt
  let capturedAt ← validTimestamp R text.val
  let sourceType ← Text.modelValidate 1 32 d.sourceType
  let sourceClient ← Text.modelValidate 1 128 d.sourceClient
  let sourceConnectionId ← optional (Text.modelValidate 0 256) d.sourceConnectionId
  let conversationId ← optional (Text.modelValidate 0 256) d.conversationId
  let messageId ← optional (Text.modelValidate 0 256) d.messageId
  let sourceModel ← optional (Text.modelValidate 0 128) d.sourceModel
  if 8 < d.evidence.length then throw .pydanticValidationError
  else
    pure
      { sourceType := sourceType.val, sourceClient := sourceClient.val
        sourceConnectionId := sourceConnectionId.map Text.val
        conversationId := conversationId.map Text.val, messageId := messageId.map Text.val
        sourceModel := sourceModel.map Text.val, capturedAt := capturedAt.val
        evidence := d.evidence.map (trimBoth isTrimmed) }

/-- `M1Patch.has_change`. -/
def M1Patch.hasChange (patch : M1Patch R) : Bool :=
  patch.content.isSome || patch.type.isSome || patch.space.isSome || patch.importance.isSome ||
    patch.confidence.isSome || patch.state.isSome || patch.provenance.isSome

/-- `M1Patch.model_validate`. -/
def M1Patch.modelValidate (d : M1Patch R) : Except PyError (M1Patch R) := do
  let provenance ← optional (M1Provenance.modelValidate R) d.provenance
  let content ← optional (notBlank 1 m1MaxContent) d.content
  let type ← optional (Text.modelValidate 1 32) d.type
  let space ← optional (Text.modelValidate 1 m1MaxSpace) d.space
  let importance ← optional (Ranged.modelValidate Python.inUnit) d.importance
  let confidence ← optional (Ranged.modelValidate Python.inUnit) d.confidence
  let state ← optional (Text.modelValidate 1 32) d.state
  let patch : M1Patch R :=
    { content := content.map fun text => text.val.val, type := type.map Text.val
      space := space.map Text.val, importance := importance.map Subtype.val
      confidence := confidence.map Subtype.val, state := state.map Text.val
      provenance := provenance }
  if patch.hasChange then pure patch else throw .pydanticValidationError

/-- The patch has come through the validation. -/
def M1Patch.Accepted (patch : M1Patch R) : Prop :=
  ∃ d : M1Patch R, M1Patch.modelValidate d = .ok patch

theorem Text.ne_empty {hi : Nat} (text : Text 1 hi) : text.val ≠ "" := by
  intro hempty
  have hlen := text.bounded.1
  rw [hempty] at hlen
  exact absurd hlen (by decide)

/-- A text that is named is not the empty one. -/
theorem truthyKey_map_text {hi : Nat} (value : Option (Text 1 hi)) :
    truthyKey (value.map Text.val) = value.map Text.val := by
  cases value with
  | none => rfl
  | some text =>
    unfold truthyKey
    rw [Option.map_some, Option.filter_some, if_pos (by simpa using text.ne_empty)]

/-- Type and state of an accepted patch are read as they are. -/
theorem M1Patch.Accepted.truthy {patch : M1Patch R} (h : patch.Accepted) :
    truthyKey patch.type = patch.type ∧ truthyKey patch.state = patch.state := by
  obtain ⟨d, hd⟩ := h
  simp only [modelValidate, except_bind_ok] at hd
  obtain ⟨provenance, -, content, -, type, -, space, -, importance, -, confidence, -, state, -,
    hd⟩ := hd
  split at hd
  · cases hd
    exact ⟨truthyKey_map_text type, truthyKey_map_text state⟩
  · cases hd

/-! ## What a patch names -/

inductive PatchField
  | content | type | space | importance | confidence | state | provenance
  deriving DecidableEq

/-- The values of a field; `P` is the form of a provenance. -/
def PatchField.Value (R P : Type) : PatchField → Type
  | importance => R
  | confidence => R
  | provenance => P
  | _ => String

/-- A patch with provenances of one form. -/
abbrev NamedPatch (R P : Type) : Type := Patch PatchField (PatchField.Value R P)

/-- The values that an M1 patch names. -/
def M1Patch.named (patch : M1Patch R) : NamedPatch R M1Provenance
  | .content => patch.content
  | .type => patch.type
  | .space => patch.space
  | .importance => patch.importance
  | .confidence => patch.confidence
  | .state => patch.state
  | .provenance => patch.provenance

/-- A confirmation asks for the patch, and for the state `confirmed` if it names no other. -/
def confirmationNamed (patch : M1Patch R) : NamedPatch R M1Provenance
  | .state => some (patch.state.getD "confirmed")
  | f => patch.named f

/-- What `_invoke` hands on of the patch of a confirmation, and the state that the service gives. -/
def confirmationPassed (patch : M1Patch R) : NamedPatch R M1Provenance
  | .content => patch.content
  | .type => patch.type
  | .space => patch.space
  | .state => some "confirmed"
  | _ => none

/-- The values that a v0 request names; the provenance of the patch goes before its own. -/
def UpdateRequest.named (request : UpdateRequest R) : NamedPatch R WireProvenance
  | .content => request.patch.content.map fun text => text.val.val
  | .type => request.patch.type.map WireType.value
  | .space => request.patch.space.map Text.val
  | .importance => request.patch.importance.map Subtype.val
  | .confidence => request.patch.confidence.map Subtype.val
  | .state => request.patch.state.map WireState.value
  | .provenance => request.patch.provenance.or request.provenance

/-! ## What a memory shows -/

/-- How a memory shows the values: its content is normalised, and of a provenance it shows what
`conveys` says. -/
def memoryShowing {P : Type} (conveys : P → Provenance → Prop) :
    Showing PatchField (PatchField.Value R P) (Memory R) where
  shows
    | .content, v, m => m.content = collapse v
    | .type, v, m => m.memoryType.value = v
    | .space, v, m => m.space = some v
    | .importance, v, m => m.importance = v
    | .confidence, v, m => m.confidence = v
    | .state, v, m => m.state.value = v
    | .provenance, v, m => conveys v m.provenance
  same
    | .content, m, m' => m'.content = m.content
    | .type, m, m' => m'.memoryType = m.memoryType
    | .space, m, m' => m'.space = m.space
    | .importance, m, m' => m'.importance = m.importance
    | .confidence, m, m' => m'.confidence = m.confidence
    | .state, m, m' => m'.state = m.state
    | .provenance, m, m' => m'.provenance = m.provenance

/-- A field that is the same shows the same. -/
theorem memoryShowing_same {P : Type} {conveys : P → Provenance → Prop} {m m' : Memory R}
    (f : PatchField) (v : f.Value R P) (h : (memoryShowing conveys).same f m m') :
    (memoryShowing conveys).shows f v m' ↔ (memoryShowing conveys).shows f v m := by
  cases f with
  | content => exact Eq.congr_left h
  | type => exact Eq.congr_left (congrArg MemoryType.value h)
  | space => exact Eq.congr_left h
  | importance => exact Eq.congr_left h
  | confidence => exact Eq.congr_left h
  | state => exact Eq.congr_left (congrArg MemoryState.value h)
  | provenance => exact iff_of_eq (congrArg (conveys v) h)

/-- The fields of a patch are those of the arguments that a memory is evolved with. -/
structure Asks {P : Type} (conveys : P → Provenance → Prop) (named : NamedPatch R P)
    (args : Memory.EvolveArgs R) : Prop where
  content : args.content = named .content
  type : args.memoryType.map MemoryType.value = named .type
  space : args.space = Option.map some (named .space)
  importance : args.importance = named .importance
  confidence : args.confidence = named .confidence
  state : args.state.map MemoryState.value = named .state
  provenance : ∀ v, named .provenance = some v → ∃ p, args.provenance = some p ∧ conveys v p
  noProvenance : named .provenance = none → args.provenance = none

/-- A value that falls back to the one of before. -/
theorem landed_of_getD {α β : Type} {f : α → β} {named : Option β} {value : Option α} {a a' : α}
    (hafter : a' = value.getD a) (hnamed : value.map f = named) :
    (∀ v, named = some v → f a' = v) ∧ (named = none → a' = a) := by
  subst hafter hnamed
  cases value with
  | none => exact ⟨nofun, fun _ => rfl⟩
  | some b => exact ⟨fun v hv => Option.some.inj hv, nofun⟩

/-- The next version of a memory shows what it was evolved with. -/
theorem Asks.lands {P : Type} {conveys : P → Provenance → Prop} {named : NamedPatch R P}
    {args : Memory.EvolveArgs R} {m m' : Memory R} (h : Asks conveys named args)
    (hevolved : Memory.Evolved m args m') : Patch.Lands (memoryShowing conveys) named m m' := by
  -- field by field, what is asked for is stored
  intro f
  cases f with
  | content =>
    have hafter := hevolved.content
    refine ⟨fun v hv => ?_, fun hnone => ?_⟩
    · rw [h.content.trans hv] at hafter
      exact hafter
    · rw [h.content.trans hnone] at hafter
      exact hafter.trans m.collapse_content
  | type => exact landed_of_getD hevolved.memoryType h.type
  | space =>
    have hspace := landed_of_getD (f := id) hevolved.space rfl
    rw [Option.map_id_fun, id, h.space] at hspace
    refine ⟨fun v hv => hspace.1 _ ?_, fun hnone => hspace.2 ?_⟩
    · rw [hv]
      rfl
    · rw [hnone]
      rfl
  | importance =>
    have hid : args.importance.map id = named .importance := by
      rw [Option.map_id_fun]
      exact h.importance
    exact landed_of_getD hevolved.importance hid
  | confidence =>
    have hid : args.confidence.map id = named .confidence := by
      rw [Option.map_id_fun]
      exact h.confidence
    exact landed_of_getD hevolved.confidence hid
  | state => exact landed_of_getD hevolved.state h.state
  | provenance =>
    have hafter := hevolved.provenance
    refine ⟨fun v hv => ?_, fun hnone => ?_⟩
    · obtain ⟨p, hp, hconveys⟩ := h.provenance v hv
      rw [hp] at hafter
      show conveys v m'.provenance
      rw [hafter]
      exact hconveys
    · rw [h.noProvenance hnone] at hafter
      exact hafter

/-- What every change of a memory leaves and counts: the next version, at the time that the clock
reads. The descriptor is that of the vector, which is computed anew. -/
structure Stamped (svc : MemoryApplicationService R) (m m' : Memory R) : Prop where
  version : m'.version = m.version + 1
  updatedAt : ensureAware (svc.clock 0) "now" = .ok m'.updatedAt
  identity : Memory.SameIdentity m m'
  occurredAt : m'.occurredAt = m.occurredAt

/-- The patch has landed in the memory, and nothing else has changed. -/
def Faithful {P : Type} (conveys : P → Provenance → Prop) (named : NamedPatch R P)
    (svc : MemoryApplicationService R) (m m' : Memory R) : Prop :=
  Patch.Lands (memoryShowing conveys) named m m' ∧ Stamped svc m m'

/-! ## Updates of the application service -/

section Service

variable {svc : MemoryApplicationService R} {s s' : InMemoryStore R} {m r : Memory R}

theorem evolve_updatedAt {args : Memory.EvolveArgs R} {at_ : DateTime}
    (hnow : ensureAware (svc.clock 0) "now" = .ok at_) (hargs : args.now = at_)
    (h : m.evolve args = .ok r) : ensureAware (svc.clock 0) "now" = .ok r.updatedAt := by
  simp only [Memory.evolve, except_bind_ok] at h
  obtain ⟨_, -, _, -, updatedAt, hat, hm⟩ := h
  rw [hargs, ensureAware_idem hnow] at hat
  rw [hnow, Memory.make_ok hm]
  exact hat

/-- The memory under the id has become its next version. -/
structure Revised (svc : MemoryApplicationService R) (i : UUID) (args : Memory.EvolveArgs R)
    (s s' : InMemoryStore R) (m r : Memory R) : Prop where
  before : s.memories.get? i = some m
  after : s'.memories.get? i = some r
  evolved : Memory.Evolved m args r
  updatedAt : ensureAware (svc.clock 0) "now" = .ok r.updatedAt

theorem Revised.stamped {i : UUID} {args : Memory.EvolveArgs R} (h : Revised svc i args s s' m r)
    (hargs : args.occurredAt = none) : Stamped svc m r where
  version := h.evolved.version
  updatedAt := h.updatedAt
  identity := h.evolved.identity
  occurredAt := by
    rw [h.evolved.occurredAt, hargs]
    rfl

theorem revised_of_newVersion (hk : s.Keyed) {o : String} {i : UUID} {t : Option String} {v : Int}
    {args : Memory.EvolveArgs R} {s₁ : InMemoryStore R} (h : NewVersion s o i t v args m r s₁)
    (hsame : s'.memories = s₁.memories)
    (hnow : ensureAware (svc.clock 0) "now" = .ok r.updatedAt) : Revised svc i args s s' m r := by
  obtain ⟨hget, -⟩ := lookup_eq_some.mp h.live
  have hevolved := Memory.evolve_ok h.evolved
  refine ⟨hget, ?_, hevolved, hnow⟩
  obtain ⟨history, reason, vector, -, rfl⟩ := h.stored
  rw [hsame]
  have hid : r.id = i := hevolved.identity.id.trans (hk i m hget)
  rw [← hid]
  exact Dict.get?_set_self _ _ _

theorem updateBody_now {c : UpdateMemoryCommand R}
    (h : (svc.updateBody (inMemoryUnitOfWork R) c).run s = .ok (r, s')) :
    ensureAware (svc.clock 0) "now" = .ok r.updatedAt := by
  simp only [updateBody, Txn.bind_ok, Txn.ofExcept_ok, Txn.pure_ok, raiseIf_ok] at h
  obtain ⟨m, _, hcur, at_, _, hat, _, _, -, _, _, hrel, descriptor, _, -, m', _,
    ⟨hevolve, rfl⟩, vector, _, hvec, persisted, s₂, hupd, _, _, hstore, rfl, rfl⟩ := h
  obtain ⟨hnow, rfl⟩ := now_ok hat
  obtain ⟨rfl, -⟩ := InMemoryMemoryRepository.update_ok hupd
  exact evolve_updatedAt hnow rfl hevolve

/-- An update under a new key, or none, that succeeds. -/
theorem update_revises {c : UpdateMemoryCommand R} (hk : s.Keyed) (hfresh : c.FreshKey s)
    (hrelation : requestedRelation c = none)
    (h : (svc.update (inMemoryUnitOfWork R) c).run s = .ok (r, s')) :
    ∃ m at_ descriptor, Revised svc c.memoryId (updateArgs c at_ descriptor) s s' m r := by
  obtain ⟨_, _, -, hbody⟩ := update_ran hfresh h
  have hnow := updateBody_now hbody
  have hrun {s₁ : InMemoryStore R} (hupdated : Updated svc c s r s₁)
      (hsame : s'.memories = s₁.memories) :
      ∃ m at_ descriptor, Revised svc c.memoryId (updateArgs c at_ descriptor) s s' m r := by
    obtain ⟨m, at_, descriptor, s₂, -, hversion, hstored⟩ := hupdated
    rw [hrelation] at hstored
    obtain rfl : s₁ = s₂ := hstored
    exact ⟨m, at_, descriptor, revised_of_newVersion hk hversion hsame hnow⟩
  rcases update_ok h with ⟨-, hupdated⟩ | ⟨k, hkey, hmutated⟩
  · exact hrun hupdated rfl
  · cases hmutated with
    | replayed hprior =>
      have hentry := hprior.entry
      rw [hfresh k hkey] at hentry
      cases hentry
    | executed _ hran => exact hrun hran.1 rfl

theorem confirmCandidate_now {c : ConfirmCandidateCommand}
    (hfresh : s.idempotencyOperations.get? (c.ownerId, .confirm, c.idempotencyKey) = none)
    (h : (svc.confirmCandidate (inMemoryUnitOfWork R) c).run s = .ok (r, s')) :
    ensureAware (svc.clock 0) "now" = .ok r.updatedAt := by
  simp only [confirmCandidate, Txn.bind_ok, inMemoryUnitOfWork] at h
  obtain ⟨_, _, hscope, _, _, hmut, claim, s₁, hclaim, h⟩ := h
  obtain ⟨-, rfl⟩ := validateScope_ok hscope
  obtain ⟨-, rfl⟩ := validateMutationScope_ok hmut
  rcases InMemoryIdempotencyRepository.claim_ok hclaim with
    ⟨rfl, -, rfl⟩ | ⟨prior, hprior, rfl, rfl⟩
  · simp only [Bool.false_eq_true, if_false, Txn.bind_ok, raiseIf_ok, Txn.ofExcept_ok,
      Txn.pure_ok] at h
    obtain ⟨m, _, hcur, _, _, -, at_, _, hat, descriptor, _, -, m', _, ⟨hevolve, rfl⟩, vector, _,
      hvec, persisted, s₂, hupd, _, _, hdone, rfl, rfl⟩ := h
    obtain ⟨hnow, rfl⟩ := now_ok hat
    obtain ⟨rfl, -⟩ := InMemoryMemoryRepository.update_ok hupd
    exact evolve_updatedAt hnow rfl hevolve
  · have hentry := hprior.entry
    rw [hfresh] at hentry
    cases hentry

/-- The memory that an id names, before and after. -/
def Persists (id : String) (s s' : InMemoryStore R) (m m' : Memory R) : Prop :=
  ∃ i, Python.parseUuid R id = some i ∧ s.memories.get? i = some m ∧ s'.memories.get? i = some m'

/-- The command of an update asks for what was named, of the memory that was named. -/
structure Translates {P : Type} (conveys : P → Provenance → Prop) (named : NamedPatch R P)
    (id ownerId key : String) (c : UpdateMemoryCommand R) : Prop where
  memoryId : Python.parseUuid R id = some c.memoryId
  ownerId : c.ownerId = ownerId
  idempotencyKey : c.idempotencyKey = some key
  noRelation : requestedRelation c = none
  noOccurredAt : c.occurredAt = none
  asks : ∀ at_ descriptor, Asks conveys named (updateArgs c at_ descriptor)

/-- A first update lands. -/
theorem Translates.faithful {P : Type} {conveys : P → Provenance → Prop} {named : NamedPatch R P}
    {id ownerId key : String} {c : UpdateMemoryCommand R}
    (hc : Translates conveys named id ownerId key c) (hk : s.Keyed)
    (hfresh : s.idempotencyOperations.get? (ownerId, .update, key) = none)
    (h : (svc.update (inMemoryUnitOfWork R) c).run s = .ok (r, s')) :
    ∃ m m', Persists id s s' m m' ∧ Faithful conveys named svc m m' := by
  have hnew : c.FreshKey s := by
    intro k hkey
    rw [hc.idempotencyKey, truthyKey_eq_some] at hkey
    obtain ⟨heq, -⟩ := hkey
    cases heq
    rw [hc.ownerId]
    exact hfresh
  obtain ⟨m, at_, descriptor, hrevised⟩ := update_revises hk hnew hc.noRelation h
  refine ⟨m, r, ⟨c.memoryId, hc.memoryId, hrevised.before, hrevised.after⟩,
    (hc.asks at_ descriptor).lands hrevised.evolved, hrevised.stamped ?_⟩
  show c.occurredAt.map some = none
  rw [hc.noOccurredAt]
  rfl

/-- A confirmation under a new key that succeeds. -/
theorem confirmCandidate_revises {c : ConfirmCandidateCommand} (hk : s.Keyed)
    (hfresh : s.idempotencyOperations.get? (c.ownerId, .confirm, c.idempotencyKey) = none)
    (h : (svc.confirmCandidate (inMemoryUnitOfWork R) c).run s = .ok (r, s')) :
    ∃ m at_ descriptor, Revised svc c.memoryId (confirmArgs c at_ descriptor) s s' m r := by
  have hnow := confirmCandidate_now hfresh h
  cases confirmCandidate_ok h with
  | replayed hprior =>
    have hentry := hprior.entry
    rw [hfresh] at hentry
    cases hentry
  | executed _ hran =>
    obtain ⟨⟨m, at_, descriptor, -, hversion⟩, -, -⟩ := hran
    exact ⟨m, at_, descriptor, revised_of_newVersion hk hversion rfl hnow⟩

end Service

/-! ## The tools of M1 -/

/-- A stored provenance conveys what an M1 client said of the origin. -/
structure M1Provenance.ConveyedBy (R : Type) [Python R] (value : M1Provenance) (p : Provenance) :
    Prop where
  sourceType : p.sourceType.value = value.sourceType
  capturedAt : ∃ d, datetime R value.capturedAt = .ok d ∧
    ensureAware d "captured_at" = .ok p.capturedAt
  sourceModel : p.sourceModel = value.sourceModel
  sourceClient : p.sourceClient = some value.sourceClient
  sourceConnectionId : p.sourceConnectionId = value.sourceConnectionId
  conversationId : p.conversationId = value.conversationId
  messageId : p.messageId = value.messageId
  evidence : p.evidence = value.evidence

/-- An enum value has the text that it was made from. -/
theorem value_of_enumOf {α : Type} {value : α → String} {values : List α} {text : String} {a : α}
    (h : enumOf (fun text => values.find? fun a => decide (value a = text)) text = .ok a) :
    value a = text := by
  unfold enumOf at h
  split at h
  · cases h
  · rename_i found
    cases h
    have hfound : values.find? (fun a => decide (value a = text)) = some a := found
    simpa using List.find?_some hfound

theorem make_provenance_ok {f : ProvenanceFields} {p : Provenance} (h : Provenance.make f = .ok p) :
    ∃ d, ensureAware f.capturedAt "captured_at" = .ok d ∧
      p.toProvenanceFields = { f with capturedAt := d } := by
  obtain ⟨g, -, hf, rfl⟩ := construct_ok.mp h
  simp only [ProvenanceFields.postInit, except_bind_ok, except_pure_ok] at hf
  obtain ⟨d, hd, _, -, _, -, _, -, _, -, _, -, _, -, _, -, _, -, rfl⟩ := hf
  exact ⟨d, hd, rfl⟩

theorem conveyed_of_m1Provenance {value : M1Provenance} {p : Provenance}
    (h : m1Provenance R value = .ok p) : value.ConveyedBy R p := by
  simp only [m1Provenance, except_bind_ok] at h
  obtain ⟨sourceType, htype, d, hd, hmake⟩ := h
  obtain ⟨at_, hat, hfields⟩ := make_provenance_ok hmake
  constructor
  case sourceType =>
    rw [hfields]
    exact value_of_enumOf htype
  case capturedAt => exact ⟨d, hd, by rw [hat, hfields]⟩
  all_goals rw [hfields]

/-- A field that is checked by a function. -/
theorem optional_cases {α β : Type} {check : α → Except PyError β} {value : Option α}
    {r : Option β} (h : optional check value = .ok r) :
    value = none ∧ r = none ∨ ∃ a b, value = some a ∧ r = some b ∧ check a = .ok b := by
  cases value with
  | none =>
    cases h
    exact .inl ⟨rfl, rfl⟩
  | some a =>
    cases hcheck : check a with
    | error e =>
      rw [optional, hcheck] at h
      cases h
    | ok b =>
      rw [optional, hcheck] at h
      cases h
      exact .inr ⟨a, b, rfl, rfl, hcheck⟩

theorem map_value_of_optional {α : Type} {value : α → String} {values : List α}
    {text : Option String} {a : Option α}
    (h : optional (enumOf fun text => values.find? fun a => decide (value a = text)) text = .ok a) :
    a.map value = text := by
  rcases optional_cases h with ⟨rfl, rfl⟩ | ⟨t, b, rfl, rfl, hb⟩
  · rfl
  · exact congrArg some (value_of_enumOf hb)

theorem m1Uuid_ok {id : String} {i : UUID} (h : m1Uuid R id = .ok i) :
    Python.parseUuid R id = some i := by
  unfold m1Uuid at h
  split at h
  · cases h
  · rename_i i' hid
    cases h
    exact hid

/-- The command of an M1 update. -/
theorem translates_updateRequest {p : M1Principal} {id : String} {v : Int} {patch : M1Patch R}
    {key : String} {c : UpdateMemoryCommand R} (haccepted : patch.Accepted)
    (h : updateRequest p id v patch key = .ok c) :
    Translates (M1Provenance.ConveyedBy R) patch.named id p.ownerId key c := by
  simp only [updateRequest, except_bind_ok, except_pure_ok] at h
  obtain ⟨i, hid, type, htype, state, hstate, origin, horigin, rfl⟩ := h
  -- an accepted patch names no empty type or state
  unfold patchedEnum at htype hstate
  rw [haccepted.truthy.1] at htype
  rw [haccepted.truthy.2] at hstate
  refine ⟨m1Uuid_ok hid, rfl, rfl, rfl, rfl, fun at_ descriptor => ?_⟩
  constructor
  case type => exact map_value_of_optional htype
  case state => exact map_value_of_optional hstate
  case provenance =>
    intro value hvalue
    rcases optional_cases horigin with ⟨hnone, -⟩ | ⟨value', o, hsome, rfl, ho⟩
    · cases hnone.symm.trans hvalue
    · cases hsome.symm.trans hvalue
      exact ⟨o, rfl, conveyed_of_m1Provenance ho⟩
  case noProvenance =>
    intro hnone
    rcases optional_cases horigin with ⟨-, rfl⟩ | ⟨value', o, hsome, -⟩
    · rfl
    · cases hsome.symm.trans hnone
  all_goals rfl

/-- What a tool call that returns has run. -/
theorem invoke_ok {svc : MemoryApplicationService R} {p : M1Principal} {tool : M1Tool R}
    {control control' : M1LocalControl R} {data : M1Data R}
    (h : invoke svc p tool control = (.ok data, control')) :
    ∃ req response, toolRequest p tool = .ok req ∧
      (req.exec svc).run control.store = .ok (response, control'.store) := by
  unfold invoke at h
  cases hreq : request p tool with
  | error e =>
    rw [hreq] at h
    cases h
  | ok req =>
    rw [hreq] at h
    dsimp only at h
    -- the gates of the tool pass the request on
    have htool : toolRequest p tool = .ok req := by
      unfold request at hreq
      split at hreq
      · cases hreq
      · split at hreq
        · cases hreq
        · exact hreq
    cases hattempt : (⟨svc, req⟩ : Call R).attempt control.store with
    | mk outcome store =>
      cases outcome with
      | error e =>
        rw [hattempt] at h
        cases h
      | ok response =>
        rw [hattempt] at h
        obtain ⟨-, rfl⟩ := Prod.mk.inj h
        exact ⟨req, response, htool, Txn.attempt_ok.mp hattempt⟩

section Tools

variable {svc : MemoryApplicationService R} {p : M1Principal} {id : String} {v : Int} {key : String}
  {control control' : M1LocalControl R} {data : M1Data R}

/-- `memory.update` hands on everything that is named. -/
theorem m1Update_faithful {patch : M1Patch R} (hk : control.store.Keyed)
    (haccepted : patch.Accepted)
    (hfresh : control.store.idempotencyOperations.get? (p.ownerId, .update, key) = none)
    (h : invoke svc p (.update id v patch key) control = (.ok data, control')) :
    ∃ m m', Persists id control.store control'.store m m' ∧
      Faithful (M1Provenance.ConveyedBy R) patch.named svc m m' := by
  obtain ⟨req, response, htool, hexec⟩ := invoke_ok h
  obtain ⟨c, hcommand, hpure⟩ := except_bind_ok.mp htool
  cases hpure
  obtain ⟨r, hrun, -⟩ := Txn.map_ok.mp hexec
  exact (translates_updateRequest haccepted (mapError_ok.mp hcommand)).faithful hk hfresh hrun

/-- What a confirmation does not hand on, the memory shows already. -/
structure Confirmable (patch : M1Patch R) (m : Memory R) : Prop where
  importance : ∀ v, patch.importance = some v → m.importance = v
  confidence : ∀ v, patch.confidence = some v → m.confidence = v
  state : ∀ v, patch.state = some v → v = "confirmed"
  provenance : ∀ v, patch.provenance = some v → v.ConveyedBy R m.provenance

/-- The command of a confirmation. -/
theorem asks_confirmation {patch : Option (M1Patch R)} {c : ConfirmCandidateCommand}
    (haccepted : ∀ patch', patch = some patch' → patch'.Accepted)
    (hcontent : c.content = patch.bind M1Patch.content)
    (htype : patchedEnum MemoryType.ofValue (patch.bind M1Patch.type) = .ok c.memoryType)
    (hspace : c.space = patch.bind M1Patch.space) (at_ : DateTime)
    (descriptor : EmbeddingDescriptor) :
    Asks (M1Provenance.ConveyedBy R) (confirmationPassed (patch.getD {}))
      (confirmArgs c at_ descriptor) := by
  unfold patchedEnum at htype
  -- the type is that of the patch, if there is one
  have htypes : c.memoryType.map MemoryType.value = (patch.getD {}).type := by
    cases patch with
    | none => exact map_value_of_optional htype
    | some patch' =>
      rw [Option.bind_some, (haccepted patch' rfl).truthy.1] at htype
      exact map_value_of_optional htype
  constructor
  case content =>
    show c.content = (patch.getD {}).content
    rw [hcontent]
    cases patch <;> rfl
  case type => exact htypes
  case space =>
    show c.space.map some = (patch.getD {}).space.map some
    rw [hspace]
    cases patch <;> rfl
  case provenance => exact nofun
  case noProvenance => exact fun _ => rfl
  all_goals rfl

/-- What the confirmation has handed on covers the patch. -/
theorem confirmationPassed_keeps_iff {patch : M1Patch R} {m : Memory R} :
    (∀ f v, confirmationNamed patch f = some v →
      Patch.Keeps (memoryShowing (M1Provenance.ConveyedBy R)) (confirmationPassed patch) m f v) ↔
      Confirmable patch m := by
  constructor
  · intro h
    -- what the confirmation leaves out must be there already
    constructor
    case importance => exact fun v hv => (h .importance v hv).elim nofun And.right
    case confidence => exact fun v hv => (h .confidence v hv).elim nofun And.right
    case provenance => exact fun v hv => (h .provenance v hv).elim nofun And.right
    case state =>
      intro v hv
      have hnamed : confirmationNamed patch .state = some v := by
        show some (patch.state.getD "confirmed") = some v
        rw [hv]
        rfl
      rcases h .state v hnamed with hpassed | ⟨hpassed, -⟩
      · exact (Option.some.inj hpassed).symm
      · cases hpassed
  -- and the state that it sets is `confirmed`
  · intro h f v hv
    cases f with
    | content => exact .inl hv
    | type => exact .inl hv
    | space => exact .inl hv
    | importance => exact .inr ⟨rfl, h.importance v hv⟩
    | confidence => exact .inr ⟨rfl, h.confidence v hv⟩
    | provenance => exact .inr ⟨rfl, h.provenance v hv⟩
    | state =>
      refine .inl ?_
      have hnamed : some (patch.state.getD "confirmed") = some v := hv
      cases hstate : patch.state with
      | none =>
        rw [hstate] at hnamed
        exact hnamed
      | some w =>
        rw [hstate] at hnamed
        obtain rfl := h.state w hstate
        exact hnamed

/-- A confirmation is faithful exactly if the memory shows what it leaves out. -/
theorem confirm_faithful_iff {patch : Option (M1Patch R)} (hk : control.store.Keyed)
    (haccepted : ∀ patch', patch = some patch' → patch'.Accepted)
    (hfresh : control.store.idempotencyOperations.get? (p.ownerId, .confirm, key) = none)
    (h : invoke svc p (.inboxConfirm id v key patch) control = (.ok data, control')) :
    ∃ m m', Persists id control.store control'.store m m' ∧
      (Faithful (M1Provenance.ConveyedBy R) (confirmationNamed (patch.getD {})) svc m m' ↔
        Confirmable (patch.getD {}) m) := by
  obtain ⟨req, response, htool, hexec⟩ := invoke_ok h
  obtain ⟨i, hid, hrest⟩ := except_bind_ok.mp htool
  obtain ⟨type, htype, hpure⟩ := except_bind_ok.mp hrest
  cases hpure
  obtain ⟨r, hrun, -⟩ := Txn.map_ok.mp hexec
  obtain ⟨m, at_, descriptor, hrevised⟩ := confirmCandidate_revises hk hfresh hrun
  refine ⟨m, r, ⟨i, m1Uuid_ok (mapError_ok.mp hid), hrevised.before, hrevised.after⟩, ?_⟩
  -- what is handed on lands
  have hlands := (asks_confirmation haccepted rfl (mapError_ok.mp htype) rfl at_ descriptor).lands
    hrevised.evolved
  rw [← confirmationPassed_keeps_iff]
  have hiff := Patch.lands_iff_of_kept (p := confirmationNamed (patch.getD {}))
    memoryShowing_same ?_ ?_ hlands
  · exact ⟨fun hf => hiff.mp hf.1, fun hkeeps => ⟨hiff.mpr hkeeps, hrevised.stamped rfl⟩⟩
  · intro f hnone
    cases f with
    | state => cases hnone
    | content => exact hnone
    | type => exact hnone
    | space => exact hnone
    | importance => rfl
    | confidence => rfl
    | provenance => rfl
  · -- only the state can be named with another value than the one that is handed on
    intro f v w hv hw hshows hshows'
    cases f with
    | state => exact Eq.trans hshows.symm hshows'
    | content => exact Option.some.inj (hv.symm.trans hw)
    | type => exact Option.some.inj (hv.symm.trans hw)
    | space => exact Option.some.inj (hv.symm.trans hw)
    | importance => cases hw
    | confidence => cases hw
    | provenance => cases hw

end Tools

end OpenMemory.Mcp
