import OpenMemory.Domain.Types

/-!
# The memory aggregate (`domain/memory.py`)

`MemoryFields.postInit` is `Memory.__post_init__`; a `Memory` carries the proof
that it passes. The aggregate changes only through `create` and `evolve`:

- `evolve` bumps the version, may change the descriptive fields, and keeps
  identity (`Memory.SameIdentity`): id, owner, tenant, creation time, write key
  and capture consent;
- `assertTransition` is the lifecycle table;
- `snapshot` copies exactly the fields a later reader rebuilds a version from
  (`Memory.rebuild`): over the memory itself a snapshot gives that memory back, and
  over any record of the same identity it gives it back up to the embedding
  descriptor (`Memory.rebuild_of_sameIdentity`).
-/

namespace OpenMemory

open Lib

/-- `MemoryVersion`: an immutable snapshot kept until the memory is forgotten. -/
structure MemoryVersion (R : Type) where
  memoryId : UUID
  version : Int
  content : String
  memoryType : MemoryType
  state : MemoryState
  importance : R
  confidence : R
  space : Option String
  occurredAt : Option DateTime
  provenance : Provenance
  changedAt : DateTime
  changeReason : String
  captureConsent : Option CaptureConsent := none
  deriving DecidableEq

/-- The fields of a `Memory` before validation. -/
structure MemoryFields (R : Type) where
  id : UUID
  ownerId : String
  content : String
  memoryType : MemoryType
  importance : R
  confidence : R
  state : MemoryState
  version : Int
  createdAt : DateTime
  updatedAt : DateTime
  occurredAt : Option DateTime
  space : Option String
  provenance : Provenance
  embedding : Option EmbeddingDescriptor := none
  idempotencyKey : Option String := none
  tenantId : Option String := none
  captureConsent : Option CaptureConsent := none
  deriving DecidableEq

def maxContentLength : Nat := 100000

/-- Run a validator on a nullable field. -/
def optCheck {α β : Type} (check : α → Except PyError β) : Option α → Except PyError Unit
  | none => pure ()
  | some a => do
    let _ ← check a
    pure ()

variable {R : Type} [Python R]

/-- `Memory.__post_init__`: the content is replaced by its whitespace normal form,
every other field is only checked. -/
def MemoryFields.postInit (f : MemoryFields R) : Except PyError (MemoryFields R) := do
  let _ ← validateOwnerId f.ownerId
  optCheck validateOwnerId f.tenantId
  raiseIf (isBlank f.content) (.validation "content must be non-empty")
  raiseIf (decide (maxContentLength < (collapse f.content).length))
    (.validation "content exceeds the maximum length")
  let _ ← validateUnitInterval f.importance "importance"
  let _ ← validateUnitInterval f.confidence "confidence"
  raiseIf (decide (f.version < 1)) (.validation "version must be positive")
  let createdAt ← ensureAware f.createdAt "created_at"
  let updatedAt ← ensureAware f.updatedAt "updated_at"
  raiseIf (decide (updatedAt.wall < createdAt.wall))
    (.validation "updated_at cannot precede created_at")
  optCheck (fun at_ => ensureAware at_ "occurred_at") f.occurredAt
  let _ ← validateSpace f.space
  let _ ← validateIdempotencyKey f.idempotencyKey
  pure { f with content := collapse f.content }

/-- What `__post_init__` returns: the same record with normalised content. -/
theorem MemoryFields.postInit_ok {f g : MemoryFields R} (h : f.postInit = .ok g) :
    g = { f with content := collapse f.content } := by
  simp only [postInit, except_bind_ok, except_pure_ok] at h
  obtain ⟨_, -, _, -, _, -, _, -, _, -, _, -, _, -, _, -, _, -, _, -, _, -, _, -, _, -, rfl⟩ := h
  rfl

/-- What has passed the checks passes them again. -/
theorem MemoryFields.postInit_idem {f g : MemoryFields R} (h : f.postInit = .ok g) :
    g.postInit = .ok g := by
  have hg := postInit_ok h
  subst hg
  have hblank : isBlank (collapse f.content) = isBlank f.content := by
    unfold isBlank
    exact decide_eq_decide.mpr (strip_collapse_eq_empty_iff f.content)
  simp only [postInit, collapse_collapse, hblank] at h ⊢
  exact h

/-- A memory whose fields have passed `__post_init__`. -/
structure Memory (R : Type) [Python R] extends MemoryFields R where
  checked : toMemoryFields.postInit = .ok toMemoryFields
  deriving DecidableEq

namespace Memory

@[ext] theorem ext' {m m' : Memory R} (h : m.toMemoryFields = m'.toMemoryFields) : m = m' := by
  cases m
  cases m'
  cases h
  rfl

/-- The constructor call. -/
def make (f : MemoryFields R) : Except PyError (Memory R) :=
  construct MemoryFields.postInit Memory.mk MemoryFields.postInit_idem f

/-- A memory has the fields that it was made of, its content collapsed. -/
theorem make_ok {f : MemoryFields R} {m : Memory R} (h : make f = .ok m) :
    m.toMemoryFields = { f with content := collapse f.content } := by
  obtain ⟨g, hg, hf, rfl⟩ := construct_ok.mp h
  exact MemoryFields.postInit_ok hf

/-- Constructing from the fields of a memory returns that memory. -/
theorem make_self (m : Memory R) : make m.toMemoryFields = .ok m :=
  construct_ok.mpr ⟨m.toMemoryFields, m.checked, m.checked, rfl⟩

/-- Stored content is in whitespace normal form. -/
theorem collapse_content (m : Memory R) : collapse m.content = m.content :=
  (congrArg MemoryFields.content (MemoryFields.postInit_ok m.checked)).symm

theorem one_le_version (m : Memory R) : 1 ≤ m.version := by
  have h := m.checked
  simp only [MemoryFields.postInit, except_bind_ok, raiseIf_except_ok] at h
  obtain ⟨_, -, _, -, _, -, _, -, _, -, _, -, _, hv, -⟩ := h
  simpa using hv

/-- Owner and content are not blank. -/
theorem not_blank (m : Memory R) : isBlank m.ownerId = false ∧ isBlank m.content = false := by
  have h := m.checked
  simp only [MemoryFields.postInit, validateOwnerId, except_bind_ok, raiseIf_except_ok] at h
  obtain ⟨_, ⟨_, howner, -⟩, _, -, _, hcontent, -⟩ := h
  exact ⟨howner, hcontent⟩

/-- Importance and confidence lie between 0 and 1. -/
theorem inUnit (m : Memory R) :
    Python.inUnit m.importance = true ∧ Python.inUnit m.confidence = true := by
  have h := m.checked
  simp only [MemoryFields.postInit, validateUnitInterval, except_bind_ok, raiseIf_except_ok] at h
  obtain ⟨_, -, _, -, _, -, _, -, _, ⟨_, himportance, -⟩, _, ⟨_, hconfidence, -⟩, -⟩ := h
  exact ⟨by simpa using himportance, by simpa using hconfidence⟩

/-- The time that a memory was created at has an offset. -/
theorem createdAt_aware (m : Memory R) : ∃ at_, ensureAware m.createdAt "created_at" = .ok at_ := by
  have h := m.checked
  simp only [MemoryFields.postInit, except_bind_ok] at h
  obtain ⟨_, -, _, -, _, -, _, -, _, -, _, -, _, -, at_, hat, -⟩ := h
  exact ⟨at_, hat⟩

/-- A write key that is present is not the empty text, so testing it for truth and
testing it for presence agree. -/
theorem idempotencyKey_ne_empty (m : Memory R) : m.idempotencyKey ≠ some "" := by
  intro hkey
  have h := m.checked
  simp only [MemoryFields.postInit, except_bind_ok, hkey] at h
  obtain ⟨_, -, _, -, _, -, _, -, _, -, _, -, _, -, _, -, _, -, _, -, _, -, _, -, _, hk, -⟩ := h
  simp only [validateIdempotencyKey, except_bind_ok, raiseIf_except_ok] at hk
  obtain ⟨_, hk, -⟩ := hk
  have : isBlank "" = true := by decide
  rw [this] at hk
  cases hk

/-- `a == b`: the generated field-by-field comparison, numbers as numbers and
datetimes as instants. -/
def pyEq (a b : Memory R) : Bool :=
  decide (a.id = b.id) && decide (a.ownerId = b.ownerId) && decide (a.content = b.content) &&
    decide (a.memoryType = b.memoryType) && Python.numEq a.importance b.importance &&
    Python.numEq a.confidence b.confidence && decide (a.state = b.state) &&
    decide (a.version = b.version) && a.createdAt.pyEq b.createdAt &&
    a.updatedAt.pyEq b.updatedAt && optEq DateTime.pyEq a.occurredAt b.occurredAt &&
    decide (a.space = b.space) && a.provenance.pyEq b.provenance &&
    decide (a.embedding = b.embedding) && decide (a.idempotencyKey = b.idempotencyKey) &&
    decide (a.tenantId = b.tenantId) && optEq CaptureConsent.pyEq a.captureConsent b.captureConsent
where
  /-- Equality of nullable values. -/
  optEq {α : Type} (eq : α → α → Bool) : Option α → Option α → Bool
    | none, none => true
    | some x, some y => eq x y
    | _, _ => false

end Memory

/-- `a == b` on snapshots. -/
def MemoryVersion.pyEq (a b : MemoryVersion R) : Bool :=
  decide (a.memoryId = b.memoryId) && decide (a.version = b.version) &&
    decide (a.content = b.content) && decide (a.memoryType = b.memoryType) &&
    decide (a.state = b.state) && Python.numEq a.importance b.importance &&
    Python.numEq a.confidence b.confidence && decide (a.space = b.space) &&
    Memory.pyEq.optEq DateTime.pyEq a.occurredAt b.occurredAt && a.provenance.pyEq b.provenance &&
    a.changedAt.pyEq b.changedAt && decide (a.changeReason = b.changeReason) &&
    Memory.pyEq.optEq CaptureConsent.pyEq a.captureConsent b.captureConsent

/-! ## A value equals itself -/

@[simp] theorem Python.numEq_self (x : R) : Python.numEq x x = true := by
  simp [Python.numEq, Python.le_refl]

@[simp] theorem DateTime.pyEq_self (d : DateTime) : d.pyEq d = true := by
  unfold DateTime.pyEq
  cases d.offset <;> simp

@[simp] theorem Memory.optEq_self {α : Type} {eq : α → α → Bool} (heq : ∀ a, eq a a = true)
    (x : Option α) : Memory.pyEq.optEq eq x x = true := by
  cases x with
  | none => rfl
  | some a => exact heq a

theorem CaptureConsent.pyEq_self (c : CaptureConsent) : c.pyEq c = true := by
  simp [CaptureConsent.pyEq]

/-- A memory equals itself. -/
theorem Memory.pyEq_self (m : Memory R) : m.pyEq m = true := by
  simp [Memory.pyEq, Provenance.pyEq, CaptureConsent.pyEq_self]

theorem MemoryVersion.pyEq_self (v : MemoryVersion R) : v.pyEq v = true := by
  simp [MemoryVersion.pyEq, Provenance.pyEq, CaptureConsent.pyEq_self]

namespace Memory

/-! ## Creation -/

/-- The arguments of `Memory.create`; `memoryId` is the fresh `uuid4()` and `now`
is the clock reading the service passes. -/
structure CreateArgs (R : Type) where
  memoryId : UUID
  ownerId : String
  content : String
  memoryType : MemoryType
  importance : R
  confidence : R
  provenance : Provenance
  captureConsent : Option CaptureConsent := none
  tenantId : Option String := none
  space : Option String := none
  occurredAt : Option DateTime := none
  embedding : Option EmbeddingDescriptor := none
  idempotencyKey : Option String := none
  initialState : MemoryState := .active
  now : DateTime

/-- `Memory.create`. -/
def create (a : CreateArgs R) : Except PyError (Memory R) := do
  let timestamp ← ensureAware a.now "now"
  make
    { id := a.memoryId, ownerId := a.ownerId, content := a.content, memoryType := a.memoryType,
      importance := a.importance, confidence := a.confidence, state := a.initialState,
      version := 1, createdAt := timestamp, updatedAt := timestamp, occurredAt := a.occurredAt,
      space := a.space, provenance := a.provenance, embedding := a.embedding,
      idempotencyKey := a.idempotencyKey, tenantId := a.tenantId,
      captureConsent := a.captureConsent }

/-- A new memory is at version 1 and has the identity it was asked for. -/
theorem create_ok {a : CreateArgs R} {m : Memory R} (h : create a = .ok m) :
    m.id = a.memoryId ∧ m.ownerId = a.ownerId ∧ m.tenantId = a.tenantId ∧ m.version = 1 ∧
      m.idempotencyKey = a.idempotencyKey ∧ m.state = a.initialState := by
  obtain ⟨timestamp, -, hm⟩ := except_bind_ok.mp h
  have hf := make_ok hm
  simp [hf]

/-- It holds what it was asked to hold, content normalised. -/
theorem create_holds {a : CreateArgs R} {m : Memory R} (h : create a = .ok m) :
    m.content = collapse a.content ∧ m.memoryType = a.memoryType ∧ m.space = a.space ∧
      m.provenance = a.provenance := by
  obtain ⟨timestamp, -, hm⟩ := except_bind_ok.mp h
  have hf := make_ok hm
  simp [hf]

/-- A new memory has the descriptor that it was created with. -/
theorem create_embedding {a : CreateArgs R} {m : Memory R} (h : create a = .ok m) :
    m.embedding = a.embedding := by
  obtain ⟨timestamp, -, hm⟩ := except_bind_ok.mp h
  have hf := make_ok hm
  simp [hf]

/-! ## Snapshots -/

/-- `Memory.snapshot`. -/
def snapshot (m : Memory R) (changeReason : String) : MemoryVersion R where
  memoryId := m.id
  version := m.version
  content := m.content
  memoryType := m.memoryType
  state := m.state
  importance := m.importance
  confidence := m.confidence
  space := m.space
  occurredAt := m.occurredAt
  provenance := m.provenance
  changedAt := m.updatedAt
  changeReason := changeReason
  captureConsent := m.captureConsent

/-- `replace(current, content=snapshot.content, …)`: the reader of an earlier
version overlays its snapshot on the current record. -/
def rebuild (current : Memory R) (v : MemoryVersion R) : Except PyError (Memory R) :=
  make { current.toMemoryFields with
    content := v.content, memoryType := v.memoryType, importance := v.importance,
    confidence := v.confidence, state := v.state, version := v.version, updatedAt := v.changedAt,
    occurredAt := v.occurredAt, space := v.space, provenance := v.provenance }

/-- A rebuilt memory keeps its identity and has the version of the snapshot. -/
theorem rebuild_ok {current m : Memory R} {v : MemoryVersion R}
    (h : rebuild current v = .ok m) :
    m.id = current.id ∧ m.ownerId = current.ownerId ∧ m.tenantId = current.tenantId ∧
      m.version = v.version := by
  have hf := make_ok h
  simp [hf]

/-- The fields that no mutation changes. -/
structure SameIdentity (m m' : Memory R) : Prop where
  id : m'.id = m.id
  ownerId : m'.ownerId = m.ownerId
  tenantId : m'.tenantId = m.tenantId
  createdAt : m'.createdAt = m.createdAt
  idempotencyKey : m'.idempotencyKey = m.idempotencyKey
  captureConsent : m'.captureConsent = m.captureConsent

theorem SameIdentity.refl (m : Memory R) : SameIdentity m m := ⟨rfl, rfl, rfl, rfl, rfl, rfl⟩

/-- Identity is kept from step to step. -/
theorem SameIdentity.trans {m₁ m₂ m₃ : Memory R} (h : SameIdentity m₁ m₂)
    (h' : SameIdentity m₂ m₃) : SameIdentity m₁ m₃ :=
  ⟨h'.id.trans h.id, h'.ownerId.trans h.ownerId, h'.tenantId.trans h.tenantId,
    h'.createdAt.trans h.createdAt, h'.idempotencyKey.trans h.idempotencyKey,
    h'.captureConsent.trans h.captureConsent⟩

/-- Two memories that agree on everything but the embedding descriptor. -/
def EqUpToEmbedding (m m' : Memory R) : Prop :=
  { m.toMemoryFields with embedding := none } = { m'.toMemoryFields with embedding := none }

/-- Validation reads neither the state nor the provenance, descriptor or consent. -/
theorem postInit_unread {f g : MemoryFields R} (state : MemoryState) (p : Provenance)
    (e : Option EmbeddingDescriptor) (c : Option CaptureConsent) (h : f.postInit = .ok g) :
    ({ f with state := state, provenance := p, embedding := e, captureConsent := c } :
      MemoryFields R).postInit
      = .ok { g with state := state, provenance := p, embedding := e, captureConsent := c } := by
  simp only [MemoryFields.postInit, except_bind_ok, except_pure_ok] at h ⊢
  obtain ⟨_, h₁, _, h₂, _, h₃, _, h₄, _, h₅, _, h₆, _, h₇, _, h₈, _, h₉, _, h₁₀, _, h₁₁, _, h₁₂,
    _, h₁₃, rfl⟩ := h
  exact ⟨_, h₁, _, h₂, _, h₃, _, h₄, _, h₅, _, h₆, _, h₇, _, h₈, _, h₉, _, h₁₀, _, h₁₁, _, h₁₂,
    _, h₁₃, rfl⟩

/-- Validation does not read the embedding descriptor. -/
theorem postInit_embedding {f g : MemoryFields R} (e : Option EmbeddingDescriptor)
    (h : f.postInit = .ok g) :
    ({ f with embedding := e } : MemoryFields R).postInit = .ok { g with embedding := e } := by
  have hg := MemoryFields.postInit_ok h
  subst hg
  exact postInit_unread f.state f.provenance e f.captureConsent h

/-- The fields that a snapshot overlays on a record. -/
def overlay (current : Memory R) (v : MemoryVersion R) : MemoryFields R :=
  { current.toMemoryFields with
    content := v.content, memoryType := v.memoryType, importance := v.importance,
    confidence := v.confidence, state := v.state, version := v.version, updatedAt := v.changedAt,
    occurredAt := v.occurredAt, space := v.space, provenance := v.provenance }

/-- Over records of one identity a snapshot gives the same fields, the descriptor apart. -/
theorem overlay_of_sameIdentity {m m' : Memory R} (h : SameIdentity m m') (v : MemoryVersion R) :
    overlay m' v = { overlay m v with embedding := m'.embedding } := by
  unfold overlay
  rw [MemoryFields.mk.injEq]
  exact ⟨h.id, h.ownerId, rfl, rfl, rfl, rfl, rfl, rfl, h.createdAt, rfl, rfl, rfl, rfl, rfl,
    h.idempotencyKey, h.tenantId, h.captureConsent⟩

/-- Fields that differ from acceptable ones in the descriptor are acceptable. -/
theorem make_embedding {f : MemoryFields R} {m : Memory R} (h : make f = .ok m)
    (e : Option EmbeddingDescriptor) :
    ∃ m', make { f with embedding := e } = .ok m' ∧ EqUpToEmbedding m m' := by
  obtain ⟨g, hg, hf, rfl⟩ := construct_ok.mp h
  exact ⟨⟨{ g with embedding := e }, postInit_embedding e hg⟩,
    construct_ok.mpr ⟨_, _, postInit_embedding e hf, rfl⟩, rfl⟩

/-- A snapshot rebuilt over a later record of the same identity gives the same memory,
the descriptor apart. -/
theorem rebuild_of_sameIdentity {m m' r : Memory R} {v : MemoryVersion R}
    (h : SameIdentity m m') (hr : rebuild m v = .ok r) :
    ∃ r', rebuild m' v = .ok r' ∧ EqUpToEmbedding r r' := by
  obtain ⟨r', hr', heq⟩ := make_embedding hr m'.embedding
  exact ⟨r', (congrArg make (overlay_of_sameIdentity h v)).trans hr', heq⟩

/-- Rebuilding the snapshot of a memory over the memory itself returns it. -/
theorem rebuild_self (m : Memory R) (reason : String) :
    rebuild m (m.snapshot reason) = .ok m :=
  make_self m

/-! ## Lifecycle -/

/-- The transition table. -/
def allowed : MemoryState → List MemoryState
  | .candidate => [.confirmed, .pinned]
  | .confirmed => [.confirmed, .pinned, .active, .stale, .superseded, .contradicted, .archived]
  | .pinned => [.pinned, .confirmed, .active, .stale, .superseded, .contradicted, .archived]
  | .stale => [.confirmed, .pinned]
  | .active => [.active, .superseded, .contradicted, .archived]
  | .contradicted => [.active, .confirmed]
  | .archived => [.active, .confirmed]
  | .superseded => []

/-- `_assert_transition`. -/
def assertTransition (m : Memory R) (target : MemoryState) (relatedMemoryId : Option UUID) :
    Except PyError Unit :=
  if target = m.state then pure ()
  else do
    raiseIf (decide (target ∉ allowed m.state)) (.omp .invalidStateTransitionError
      ("cannot transition memory from " ++ m.state.value ++ " to " ++ target.value))
    raiseIf (decide (target = .superseded ∨ target = .contradicted) && relatedMemoryId.isNone)
      (.omp .invalidStateTransitionError
        ("transition to " ++ target.value ++ " requires a related memory id"))

/-- The keyword arguments of `evolve`; `none` is `_UNSET`. -/
structure EvolveArgs (R : Type) where
  now : DateTime
  content : Option String := none
  memoryType : Option MemoryType := none
  importance : Option R := none
  confidence : Option R := none
  state : Option MemoryState := none
  occurredAt : Option (Option DateTime) := none
  space : Option (Option String) := none
  provenance : Option Provenance := none
  embedding : Option (Option EmbeddingDescriptor) := none
  changeReason : String := "updated"
  relatedMemoryId : Option UUID := none

/-- `Memory.evolve`. -/
def evolve (m : Memory R) (a : EvolveArgs R) : Except PyError (Memory R) := do
  let nextState := a.state.getD m.state
  m.assertTransition nextState a.relatedMemoryId
  raiseIf (isBlank a.changeReason) (.validation "change_reason must be non-empty")
  let updatedAt ← ensureAware a.now "now"
  make { m.toMemoryFields with
    content := a.content.getD m.content, memoryType := a.memoryType.getD m.memoryType,
    importance := a.importance.getD m.importance, confidence := a.confidence.getD m.confidence,
    state := nextState, occurredAt := a.occurredAt.getD m.occurredAt,
    space := a.space.getD m.space, provenance := a.provenance.getD m.provenance,
    embedding := a.embedding.getD m.embedding, version := m.version + 1, updatedAt := updatedAt }

/-- What `evolve` can do: the next version of the same memory, in the requested
state, its patched fields exactly as given (content normalised). -/
structure Evolved (m : Memory R) (a : EvolveArgs R) (m' : Memory R) : Prop where
  identity : SameIdentity m m'
  version : m'.version = m.version + 1
  state : m'.state = a.state.getD m.state
  content : m'.content = collapse (a.content.getD m.content)
  memoryType : m'.memoryType = a.memoryType.getD m.memoryType
  importance : m'.importance = a.importance.getD m.importance
  confidence : m'.confidence = a.confidence.getD m.confidence
  occurredAt : m'.occurredAt = a.occurredAt.getD m.occurredAt
  space : m'.space = a.space.getD m.space
  provenance : m'.provenance = a.provenance.getD m.provenance
  embedding : m'.embedding = a.embedding.getD m.embedding

/-- What `evolve` changes. -/
theorem evolve_ok {m m' : Memory R} {a : EvolveArgs R} (h : m.evolve a = .ok m') :
    Evolved m a m' := by
  simp only [evolve, except_bind_ok] at h
  obtain ⟨_, -, _, -, updatedAt, -, hm⟩ := h
  have hf := make_ok hm
  constructor
  case identity => constructor <;> rw [hf]
  all_goals rw [hf]

end Memory

end OpenMemory
