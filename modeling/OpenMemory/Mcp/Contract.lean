import OpenMemory.Domain.Conditions
import OpenMemory.Mcp.Local

/-!
# What the domain asks of a request that the schemas accept

The schemas of v0 strip a text with pydantic's whitespace and then look at its length; the value
objects look at what Python's `strip` leaves, and at lengths of their own. Contents, numbers,
timestamps and lengths of names that the schemas let through, the domain takes. It does not take

- an owner, a space or a key of separators (`\x1c`–`\x1f`), which pydantic does not strip;
- an origin whose `source_id` or `source_model` is given and blank, the empty text included;
- evidence of separators, or of more than 512 characters, where the schema allows 2000.

`contract_honoured_iff`: a write under a new key creates a memory if none of this is the case, and
raises `ValidationError` otherwise; an update raises it in the same cases, once its id is read.
-/

namespace OpenMemory.Mcp

open Lib MemoryApplicationService
open MonadExcept (ofExcept)

variable {R : Type} [Python R]

/-! ## What a request has to be -/

/-- The domain takes the origin. -/
structure WireProvenance.Fits (p : WireProvenance) : Prop where
  sourceId : ∀ text ∈ p.sourceId, isBlank text.val = false
  sourceModel : ∀ text ∈ p.sourceModel, isBlank text.val = false
  evidence : ∀ text ∈ p.evidence, text.val ≠ "" →
    isBlank text.val = false ∧ text.val.length ≤ maxEvidenceItemLength

/-- The domain takes the write; the names are looked at when the key is new and a memory is made. -/
structure WriteRequest.Fits (request : WriteRequest R) (s : InMemoryStore R) : Prop where
  provenance : request.provenance.Fits
  owner : isBlank request.ownerId.val = false
  names : s.fingerprints.get? (request.ownerId.val, request.idempotencyKey.val) = none →
    (∀ text ∈ request.space, isBlank text.val = false) ∧
      isBlank request.idempotencyKey.val = false

/-- The state that an update of the memory leads to. -/
def UpdateRequest.target (request : UpdateRequest R) (m : Memory R) : MemoryState :=
  (request.patch.state.bind fun st => MemoryState.ofValue st.value).getD m.state

/-- The update comes to a new version of the memory `id`: the key is new, the owner has the memory
at the version expected, and the lifecycle lets it go where it should. -/
def UpdateRequest.Reaches (request : UpdateRequest R) (s : InMemoryStore R) (id : UUID) : Prop :=
  s.idempotencyOperations.get? (ledgerKey request) = none ∧
    ∃ m, s.lookup request.ownerId.val id none = some m ∧
      m.version = request.expectedVersion.val ∧
      m.assertTransition (request.target m) none = .ok ()

/-- The domain takes the update, as far as it comes; the key of an update is not checked. -/
def UpdateRequest.Fits (request : UpdateRequest R) (s : InMemoryStore R) : Prop :=
  ∀ id, Python.parseUuid R request.id.val = some id →
    (∀ p ∈ request.patch.provenance.or request.provenance, p.Fits) ∧
    isBlank request.ownerId.val = false ∧
    (request.Reaches s id → ∀ text ∈ request.patch.space, isBlank text.val = false)

/-- The store gives no reason of its own for a `ValidationError`: the memory was not created after
the reading of the clock, and a replay can read the version that it returns. -/
structure UpdateRequest.Unopposed (request : UpdateRequest R) (s : InMemoryStore R)
    (t : DateTime) : Prop where
  clock : ∀ id m, Python.parseUuid R request.id.val = some id →
    s.lookup request.ownerId.val id none = some m → m.ReadAfter t
  replay : s.idempotencyOperations.get? (ledgerKey request) ≠ none →
    ∀ id v, ¬FailsBy PyError.Invalid (s.versionAt request.ownerId.val id v none)

/-! ## Fields -/

/-- The domain allows names of 256 characters, the schemas of 128. -/
theorem Text.namedWithin_iff {lo : Nat} (text : Text lo 128) :
    NamedWithin 256 text.val ↔ isBlank text.val = false := by
  refine ⟨NamedWithin.not_blank, fun h => ⟨h, ?_⟩⟩
  calc (strip text.val).length ≤ text.val.length := length_trimBoth_le _ _
    _ ≤ 128 := text.bounded.2
    _ ≤ 256 := by decide

/-- A text that is known to name a member makes no demand. -/
theorem demands_enumOf {α : Type} {ofValue : String → Option α} {text : String}
    (h : ∃ a, enumOf ofValue text = .ok a) :
    Demands PyError.Invalid (enumOf ofValue text) True := by
  obtain ⟨a, ha⟩ := h
  exact .of_ok ha

/-- Every source type of the schema has one in the domain. -/
theorem exists_enumOf_source (t : WireSourceType) :
    ∃ type, enumOf SourceType.ofValue (if t.value = "other" then "unknown" else t.value)
      = .ok type := by
  cases t <;> exact ⟨_, rfl⟩

/-- The timestamp that the schema rewrote is read back as it is. -/
theorem datetime_capturedAt (p : WireProvenance) :
    ∃ d, datetime R p.capturedAt.val = .ok d ∧ d.offset = some 0 := by
  obtain ⟨d, hutc, hzulu⟩ := p.capturedAt.property
  refine ⟨d, ?_, hutc⟩
  unfold datetime
  rw [← hzulu, fromZ_zulu, Python.fromisoformat_isoformat d hutc]

/-- The evidence that the gateway passes on. -/
def WireProvenance.evidenceItems (p : WireProvenance) : List String :=
  match p.evidence with
  | none => []
  | some text => if text.val = "" then [] else [text.val]

/-- An origin of the schema is taken by the domain exactly if it fits. -/
theorem demands_provenance (p : WireProvenance) :
    Demands PyError.Invalid (provenance R p) p.Fits := by
  obtain ⟨d, hread, hutc⟩ := datetime_capturedAt (R := R) p
  unfold provenance
  refine ((demands_enumOf (exists_enumOf_source p.sourceType)).bind fun _ _ =>
    (Demands.of_ok hread).bind fun at_ hat => ?_).congr (p := True ∧ True ∧ p.Fits) (by simp)
  obtain rfl := Except.ok.inj (hread.symm.trans hat)
  refine (OpenMemory.demands_provenance (ensureAware_utc hutc _)).congr ?_
  -- an empty evidence text is no item
  have hevidence : (∀ item ∈ p.evidenceItems,
        isBlank item = false ∧ item.length ≤ maxEvidenceItemLength) ↔
      ∀ text ∈ p.evidence, text.val ≠ "" →
        isBlank text.val = false ∧ text.val.length ≤ maxEvidenceItemLength := by
    unfold WireProvenance.evidenceItems
    cases p.evidence with
    | none => simp
    | some text => by_cases hempty : text.val = "" <;> simp [hempty]
  constructor
  · rintro ⟨hid, hmodel, hitems, -, -, -, -⟩
    refine ⟨fun text ht => hid _ ?_, fun text ht => hmodel _ ?_, hevidence.mp hitems⟩
    · exact Option.mem_map_of_mem _ ht
    · exact Option.mem_map_of_mem _ ht
  · rintro ⟨hid, hmodel, hitems⟩
    -- the wire form has no other ids
    have hnone : ∀ text ∈ (none : Option String), OpaqueId text := fun _ h => by cases h
    refine ⟨?_, ?_, hevidence.mpr hitems, hnone, hnone, hnone, hnone⟩
    · rintro _ ht
      obtain ⟨text, htext, rfl⟩ := Option.mem_map.mp ht
      exact hid text htext
    · rintro _ ht
      obtain ⟨text, htext, rfl⟩ := Option.mem_map.mp ht
      exact hmodel text htext

/-- A nullable field whose texts are names. -/
theorem names_iff {value : Option (Text 1 128)} :
    (∀ text ∈ value.map Text.val, NamedWithin 256 text) ↔
      ∀ text ∈ value, isBlank text.val = false := by
  constructor
  · intro h text ht
    exact text.namedWithin_iff.mp (h _ (Option.mem_map_of_mem _ ht))
  · rintro h _ ht
    obtain ⟨text, htext, rfl⟩ := Option.mem_map.mp ht
    exact text.namedWithin_iff.mpr (h text htext)

/-- A content of the schemas fits the domain, which allows longer ones and counts after joining the
words by single spaces. -/
theorem content_fits (text : Text 1 maxContentLength) (h : isBlank text.val = false) :
    ContentFits text.val := by
  refine ⟨h, ?_⟩
  calc (collapse text.val).length ≤ text.val.length := length_collapse_le _
    _ ≤ maxContentLength := text.bounded.2
    _ ≤ OpenMemory.maxContentLength := by decide

/-! ## Writes -/

section Writes

variable {svc : MemoryApplicationService R} {request : WriteRequest R}
  {command : WriteMemoryCommand R} {s : InMemoryStore R} {t : DateTime}

/-- So is a request to write. -/
theorem demands_writeCommand (request : WriteRequest R) :
    Demands PyError.Invalid (writeCommand request) request.provenance.Fits := by
  unfold writeCommand
  exact ((demands_enumOf (exists_enumOf_type request.type)).bind fun _ _ =>
    (demands_provenance request.provenance).bind fun _ _ => .of_ok rfl).congr (by simp)

/-- The memory of a write: of its names, one may be blank. -/
theorem demands_create (hcommand : writeCommand request = .ok command)
    (hutc : ensureAware t "now" = .ok t) (descriptor : EmbeddingDescriptor) :
    Demands PyError.Invalid (Memory.create (svc.writeArgs command t descriptor))
      (isBlank request.ownerId.val = false ∧
        (∀ text ∈ request.space, isBlank text.val = false) ∧
        isBlank request.idempotencyKey.val = false) := by
  simp only [writeCommand, except_bind_ok, except_pure_ok] at hcommand
  obtain ⟨type, -, p, -, rfl⟩ := hcommand
  unfold Memory.create
  refine ((Demands.of_ok hutc).bind fun at_ hat => ?_).congr (Iff.of_eq (true_and _))
  obtain rfl := Except.ok.inj (hutc.symm.trans hat)
  have hcreated : ensureAware t "created_at" = .ok t := ensureAware_idem hutc
  have hupdated : ensureAware t "updated_at" = .ok t := ensureAware_idem hutc
  refine Demands.congr (Memory.demands_make ?_) ?_
  -- both times are the clock's, so only the texts are left to check
  · exact ⟨⟨t, t, hcreated, hupdated, le_refl t.wall⟩, fun at_ hat => by cases hat⟩
  constructor
  · intro h
    exact ⟨request.ownerId.namedWithin_iff.mp h.owner, names_iff.mp h.space,
      request.idempotencyKey.namedWithin_iff.mp (h.key _ rfl)⟩
  · rintro ⟨howner, hspace, hkey⟩
    constructor
    case owner => exact request.ownerId.namedWithin_iff.mpr howner
    case tenant => exact fun _ h => by cases h
    case content => exact content_fits request.content request.content_not_blank
    case importance => exact request.importance.property
    case confidence => exact request.confidence.property
    case version => exact le_rfl
    case space => exact names_iff.mpr hspace
    -- the other fields are within their bounds by their wire types
    case key =>
      rintro _ ⟨⟩
      exact request.idempotencyKey.namedWithin_iff.mpr hkey

/-- A memory under a new key is stored. -/
theorem create_new {m : Memory R} (fp : String) (vector : List R)
    (hnew : ∀ k, m.idempotencyKey = some k → s.fingerprints.get? (m.ownerId, k) = none) :
    ((inMemoryUnitOfWork R).memories.create m fp vector).run s
      = .ok ({ memory := m, created := true }, s.putNew m fp vector) := by
  show InMemoryMemoryRepository.create m fp vector s = _
  unfold InMemoryMemoryRepository.create
  cases hkey : truthyKey m.idempotencyKey with
  | none => rfl
  | some k =>
    dsimp only
    rw [hnew k (truthyKey_eq_some.mp hkey).1]

/-- Under a new key and on a working provider, a write checks the owner, makes the memory and stores
it. -/
theorem write_new (hworks : svc.Works) (hnow : ensureAware (svc.clock 0) "now" = .ok t)
    (hnew : ∀ k, command.idempotencyKey = some k →
      s.fingerprints.get? (command.ownerId, k) = none) :
    ∃ descriptor vector, (svc.write (inMemoryUnitOfWork R) command).run s = (do
      let _ ← validateOwnerId command.ownerId
      let m ← Memory.create (svc.writeArgs command t descriptor)
      pure ({ memory := m, created := true },
        s.putNew m (fingerprintWriteCommand command) vector)) := by
  obtain ⟨descriptor, hdescriptor⟩ := hworks.descriptor
  obtain ⟨vector, hvector, hdim⟩ := hworks.embeds command.content
  have hwriteNew : (svc.writeNew (inMemoryUnitOfWork R) command t
      (fingerprintWriteCommand command)).run s = (do
        let m ← Memory.create (svc.writeArgs command t descriptor)
        pure ({ memory := m, created := true },
          s.putNew m (fingerprintWriteCommand command) vector)) := by
    unfold writeNew
    rw [Txn.run_bind_of_ok (embedChecked_run hvector hdim s),
      Txn.run_bind_of_ok (Txn.ofExcept_ok.mpr ⟨hdescriptor, rfl⟩)]
    -- a refused memory refuses the write, a valid one is created under the free key
    cases hm : Memory.create (svc.writeArgs command t descriptor) with
    | error e => exact Txn.run_bind_of_error (by rw [Txn.run_ofExcept]; rfl)
    | ok m =>
      obtain ⟨-, howner, -, -, hkey, -⟩ := Memory.create_ok hm
      rw [Txn.run_bind_of_ok (Txn.ofExcept_ok.mpr ⟨rfl, rfl⟩)]
      refine create_new _ _ fun k hk => ?_
      rw [howner]
      exact hnew k (hkey.symm.trans hk)
  refine ⟨descriptor, vector, ?_⟩
  unfold write
  cases howner : validateOwnerId command.ownerId with
  | error e => exact Txn.run_bind_of_error (by rw [Txn.run_ofExcept]; rfl)
  | ok owner =>
    rw [Txn.run_bind_of_ok (Txn.ofExcept_ok.mpr ⟨rfl, rfl⟩), Txn.run_bind_of_ok (now_run hnow s)]
    -- with or without a key, the write gets to the new memory
    cases hkey : truthyKey command.idempotencyKey with
    | none => exact hwriteNew
    | some k =>
      have hfind : ((inMemoryUnitOfWork R).memories.findByIdempotencyKey command.ownerId k).run s
          = .ok (none, s) := by
        show InMemoryMemoryRepository.findByIdempotencyKey command.ownerId k s = _
        unfold InMemoryMemoryRepository.findByIdempotencyKey
        rw [hnew k (truthyKey_eq_some.mp hkey).1]
      dsimp only
      rw [Txn.run_bind_of_ok hfind]
      exact hwriteNew

/-- The names of the command are those of the request. -/
theorem writeCommand_names (h : writeCommand request = .ok command) :
    command.ownerId = request.ownerId.val ∧
      command.idempotencyKey = some request.idempotencyKey.val := by
  simp only [writeCommand, except_bind_ok, except_pure_ok] at h
  obtain ⟨type, -, p, -, rfl⟩ := h
  exact ⟨rfl, rfl⟩

/-- A key that the store does not know is not looked up in vain. -/
theorem new_of_fresh (h : writeCommand request = .ok command)
    (hfresh : s.fingerprints.get? (request.ownerId.val, request.idempotencyKey.val) = none) :
    ∀ k, command.idempotencyKey = some k → s.fingerprints.get? (command.ownerId, k) = none := by
  obtain ⟨howner, hkey⟩ := writeCommand_names h
  intro k hk
  obtain rfl := Option.some.inj (hkey.symm.trans hk)
  rw [howner]
  exact hfresh

/-- An owner of the schema is taken exactly if it is not blank. -/
theorem demands_owner {owner : String} {text : Text 1 128} (h : owner = text.val) :
    Demands PyError.Invalid (validateOwnerId owner) (isBlank text.val = false) := by
  subst h
  exact (demands_validateOwnerId _).congr text.namedWithin_iff

/-- A first write asks for an owner and a space that are not blank. -/
theorem demands_write (hcommand : writeCommand request = .ok command) (hworks : svc.Works)
    (hnow : ensureAware (svc.clock 0) "now" = .ok t)
    (hfresh : s.fingerprints.get? (request.ownerId.val, request.idempotencyKey.val) = none) :
    Demands PyError.Invalid ((svc.write (inMemoryUnitOfWork R) command).run s)
      (isBlank request.ownerId.val = false ∧
        (∀ text ∈ request.space, isBlank text.val = false) ∧
        isBlank request.idempotencyKey.val = false) := by
  obtain ⟨descriptor, vector, hrun⟩ := write_new hworks hnow (new_of_fresh hcommand hfresh)
  rw [hrun]
  refine Demands.congr (Demands.bind (demands_owner (writeCommand_names hcommand).1) fun _ _ =>
    Demands.bind (demands_create hcommand (ensureAware_idem hnow) descriptor) fun m _ =>
      Demands.of_ok rfl) ?_
  rw [and_true]
  exact and_iff_right_of_imp And.left

/-- The memory of a key that was used is returned, or the key reported. -/
theorem not_failsBy_find {owner k : String}
    (hused : s.fingerprints.get? (owner, k) ≠ none) (fingerprint : String)
    (new : StoreTxn R (WriteMemoryResult R)) :
    ¬FailsBy PyError.Invalid ((do
      let prior ← (inMemoryUnitOfWork R).memories.findByIdempotencyKey owner k
      match prior with
      | none => new
      | some prior =>
        raiseIf (decide (prior.fingerprint ≠ fingerprint)) (.omp .idempotencyConflictError
          "idempotency_key was already used for another memory")
        pure { memory := prior.memory, created := false }).run s) := by
  intro h
  -- looking up a used key finds its memory or raises StopIteration
  obtain h | ⟨prior, s', hfind, h⟩ := failsBy_run_bind.mp h
  · obtain ⟨fp, hfp⟩ := Option.ne_none_iff_exists'.mp hused
    replace h : FailsBy PyError.Invalid (InMemoryMemoryRepository.findByIdempotencyKey owner k s) :=
      h
    unfold InMemoryMemoryRepository.findByIdempotencyKey at h
    rw [hfp] at h
    dsimp only at h
    cases hfirst : s.firstWithKey owner k with
    | none =>
      rw [hfirst] at h
      obtain ⟨_, ⟨⟩⟩ := failsBy_error.mp h
    | some m =>
      rw [hfirst] at h
      exact not_failsBy_ok _ h
  · obtain ⟨-, ⟨-, hnone⟩ | ⟨prior, rfl, -⟩⟩ :=
      InMemoryMemoryRepository.findByIdempotencyKey_ok hfind
    · exact hused hnone
    -- a conflict is no validation error either
    · obtain h | ⟨_, _, -, h⟩ := failsBy_run_bind.mp h
      · exact not_failsBy_run_raiseIf (by decide) h
      · exact not_failsBy_ok _ h

/-- Under a key that was used, only the owner can be the reason. -/
theorem failsBy_write_used (hcommand : writeCommand request = .ok command)
    (hnow : ensureAware (svc.clock 0) "now" = .ok t)
    (hused : s.fingerprints.get? (request.ownerId.val, request.idempotencyKey.val) ≠ none) :
    FailsBy PyError.Invalid ((svc.write (inMemoryUnitOfWork R) command).run s) ↔
      ¬isBlank request.ownerId.val = false := by
  obtain ⟨howner, hkey⟩ := writeCommand_names hcommand
  unfold write
  rw [failsBy_run_bind, ((demands_owner howner).run_ofExcept s).failsBy_iff]
  refine or_iff_left ?_
  rintro ⟨_, s', hchecked, h⟩
  obtain ⟨-, hsame⟩ := Txn.ofExcept_ok.mp hchecked
  rw [hsame, Txn.run_bind_of_ok (now_run hnow s), hkey, truthyKey_text, howner] at h
  exact not_failsBy_find hused _ _ h

/-- Through the gateway it asks for an origin that fits besides. -/
theorem demands_gatewayWrite (hworks : svc.Works)
    (hnow : ensureAware (svc.clock 0) "now" = .ok t)
    (hfresh : s.fingerprints.get? (request.ownerId.val, request.idempotencyKey.val) = none) :
    Demands PyError.Invalid ((gatewayWrite svc (inMemoryUnitOfWork R) request).run s)
      (request.Fits s) := by
  unfold gatewayWrite
  refine (((demands_writeCommand request).run_ofExcept s).run_bind fun command s' hrun =>
    Demands.run_bind (p := isBlank request.ownerId.val = false ∧
        (∀ text ∈ request.space, isBlank text.val = false) ∧
        isBlank request.idempotencyKey.val = false) ?_ fun _ _ _ => .of_ok rfl).congr ?_
  · obtain ⟨hcommand, rfl⟩ := Txn.ofExcept_ok.mp hrun
    exact demands_write hcommand hworks hnow hfresh
  · constructor
    · rintro ⟨hprovenance, ⟨howner, hnames⟩, -⟩
      exact ⟨hprovenance, howner, fun _ => hnames⟩
    · rintro ⟨hprovenance, howner, hnames⟩
      exact ⟨hprovenance, ⟨howner, hnames hfresh⟩, trivial⟩

/-- A write raises `ValidationError` exactly if the domain does not take it. -/
theorem failsBy_gatewayWrite (hworks : svc.Works)
    (hnow : ensureAware (svc.clock 0) "now" = .ok t) :
    FailsBy PyError.Invalid ((gatewayWrite svc (inMemoryUnitOfWork R) request).run s) ↔
      ¬request.Fits s := by
  by_cases hfresh : s.fingerprints.get? (request.ownerId.val, request.idempotencyKey.val) = none
  · exact (demands_gatewayWrite hworks hnow hfresh).failsBy_iff
  have hfits : request.Fits s ↔
      request.provenance.Fits ∧ isBlank request.ownerId.val = false :=
    ⟨fun h => ⟨h.provenance, h.owner⟩, fun ⟨h, h'⟩ => ⟨h, h', fun hnew => absurd hnew hfresh⟩⟩
  unfold gatewayWrite
  rw [hfits, not_and_or]
  by_cases hprovenance : request.provenance.Fits
  · obtain ⟨command, hcommand⟩ := (demands_writeCommand request).passes hprovenance
    rw [Txn.run_bind_of_ok (Txn.ofExcept_ok.mpr ⟨hcommand, rfl⟩), failsBy_run_bind,
      failsBy_write_used hcommand hnow hfresh, or_iff_right (not_not_intro hprovenance)]
    refine or_iff_left ?_
    rintro ⟨_, _, -, h⟩
    exact not_failsBy_ok _ h
  · refine iff_of_true (failsBy_run_bind.mpr (.inl ?_)) (.inl hprovenance)
    exact ((demands_writeCommand request).run_ofExcept s).fails hprovenance

/-- Under a new key, a write that goes through has created a memory. -/
theorem status_of_new {memory : MemoryDict R} {status : WriteStatus} {s' : InMemoryStore R}
    (hworks : svc.Works) (hnow : ensureAware (svc.clock 0) "now" = .ok t)
    (hfresh : s.fingerprints.get? (request.ownerId.val, request.idempotencyKey.val) = none)
    (h : (gatewayWrite svc (inMemoryUnitOfWork R) request).run s = .ok ((memory, status), s')) :
    status = .created := by
  simp only [gatewayWrite, Txn.bind_ok, Txn.ofExcept_ok, Txn.pure_ok] at h
  obtain ⟨command, s₁, ⟨hcommand, hsame⟩, result, _, hwrite, hmemory, rfl⟩ := h
  rw [hsame] at hwrite
  obtain ⟨-, hstatus⟩ := Prod.mk.inj hmemory
  obtain ⟨descriptor, vector, hrun⟩ := write_new hworks hnow (new_of_fresh hcommand hfresh)
  rw [hrun] at hwrite
  simp only [except_bind_ok, except_pure_ok] at hwrite
  obtain ⟨_, -, m, -, hresult⟩ := hwrite
  obtain ⟨rfl, -⟩ := Prod.mk.inj hresult
  exact hstatus

end Writes

/-! ## Updates -/

section Updates

variable {svc : MemoryApplicationService R} {request : UpdateRequest R}
  {command : UpdateMemoryCommand R} {s : InMemoryStore R} {t : DateTime}

theorem demands_optional {α β : Type} {check : α → Except PyError β} {p : α → Prop}
    (h : ∀ a, Demands PyError.Invalid (check a) (p a)) (value : Option α) :
    Demands PyError.Invalid (optional check value) (∀ a ∈ value, p a) := by
  cases value with
  | none => exact (Demands.of_ok rfl).congr (iff_of_true trivial nofun)
  | some a =>
    refine Demands.congr (p := p a) ⟨fun hp => ?_, fun hp => ?_⟩ (by simp)
    · obtain ⟨b, hb⟩ := (h a).passes hp
      exact ⟨some b, by rw [optional, hb]; rfl⟩
    · obtain ⟨e, he, hinvalid⟩ := (h a).fails hp
      exact ⟨e, by rw [optional, he]; rfl, hinvalid⟩

/-- The literal of a patch is a value of the enum. -/
theorem optional_enumOf {α β : Type} {ofValue : String → Option β} {f : α → String}
    {value : Option α} {r : Option β} (h : optional (enumOf ofValue) (value.map f) = .ok r) :
    r = value.bind fun a => ofValue (f a) := by
  cases value with
  | none =>
    cases h
    rfl
  | some a =>
    unfold Option.map optional enumOf at h
    dsimp only at h
    cases hvalue : ofValue (f a) with
    | none =>
      rw [hvalue] at h
      cases h
    | some b =>
      rw [hvalue] at h
      cases h
      exact hvalue.symm

/-- What `evolve` is called with. -/
structure Evolves (request : UpdateRequest R) (a : Memory.EvolveArgs R) : Prop where
  changeReason : a.changeReason = "updated"
  content : a.content = request.patch.content.map fun text => text.val.val
  importance : a.importance = request.patch.importance.map Subtype.val
  confidence : a.confidence = request.patch.confidence.map Subtype.val
  state : a.state = request.patch.state.bind fun st => MemoryState.ofValue st.value
  occurredAt : a.occurredAt = none
  space : a.space = (request.patch.space.map Text.val).map some
  relatedMemoryId : a.relatedMemoryId = none

/-- The arguments of an update are those of its request. -/
theorem evolves_updateArgs (h : updateCommand request = .ok command) (now : DateTime)
    (descriptor : EmbeddingDescriptor) : Evolves request (updateArgs command now descriptor) := by
  obtain ⟨hid, -⟩ := updateCommand_names h
  unfold updateCommand at h
  simp only [hid, except_bind_ok, except_pure_ok] at h
  obtain ⟨_, -, type, -, st, hst, p, -, rfl⟩ := h
  exact ⟨rfl, rfl, rfl, rfl, optional_enumOf hst, rfl, rfl, rfl⟩

/-- Of what a patch can hold, only a blank space is refused. -/
theorem Evolves.meets_iff {a : Memory.EvolveArgs R} (h : Evolves request a) :
    a.Meets ↔ ∀ text ∈ request.patch.space, isBlank text.val = false := by
  have hspace : (∀ space ∈ (request.patch.space.map Text.val).map some,
      ∀ text ∈ space, NamedWithin maxSpaceLength text) ↔
      ∀ text ∈ request.patch.space.map Text.val, NamedWithin maxSpaceLength text := by
    cases request.patch.space <;> simp
  constructor
  · intro hmeets
    have hnames := hmeets.space
    rw [h.space, hspace] at hnames
    exact names_iff.mp hnames
  · intro hnames
    constructor
    -- only the space is not bounded by its wire type
    case changeReason =>
      rw [h.changeReason]
      decide
    case content =>
      rw [h.content]
      rintro _ ht
      obtain ⟨text, -, rfl⟩ := Option.mem_map.mp ht
      exact content_fits text.val text.property
    case importance =>
      rw [h.importance]
      rintro _ hx
      obtain ⟨x, -, rfl⟩ := Option.mem_map.mp hx
      exact x.property
    case confidence =>
      rw [h.confidence]
      rintro _ hx
      obtain ⟨x, -, rfl⟩ := Option.mem_map.mp hx
      exact x.property
    case space =>
      rw [h.space, hspace]
      exact names_iff.mpr hnames

/-- An evolution is invalid exactly if the lifecycle allows the move and the space is blank. -/
theorem failsBy_evolve {a : Memory.EvolveArgs R} {m : Memory R} (h : Evolves request a)
    (hnow : ensureAware a.now "now" = .ok t) (hafter : m.ReadAfter t) :
    FailsBy PyError.Invalid (m.evolve a) ↔
      m.assertTransition (request.target m) none = .ok () ∧
        ¬∀ text ∈ request.patch.space, isBlank text.val = false := by
  have htarget : a.state.getD m.state = request.target m := by
    rw [h.state]
    rfl
  have hoccurred : ∀ at_ ∈ a.occurredAt.getD m.occurredAt,
      ∃ utc, ensureAware at_ "occurred_at" = .ok utc := by
    rw [h.occurredAt]
    exact m.timed.occurred
  -- the transition is checked before the fields
  cases hmove : m.assertTransition (request.target m) none with
  | ok _ =>
    have hallowed : m.assertTransition (a.state.getD m.state) a.relatedMemoryId = .ok () := by
      rw [htarget, h.relatedMemoryId]
      exact hmove
    rw [(Memory.demands_evolve hallowed hnow hafter hoccurred).failsBy_iff, h.meets_iff]
    exact (and_iff_right rfl).symm
  | error e =>
    refine iff_of_false ?_ (by nofun)
    have hrefused : m.evolve a = .error e := by
      unfold Memory.evolve
      dsimp only
      rw [htarget, h.relatedMemoryId, hmove]
      rfl
    rw [hrefused]
    -- a refused transition is another kind of error
    intro hfails
    refine m.not_failsBy_assertTransition (request.target m) none ?_
    rw [hmove]
    exact failsBy_error.mpr (failsBy_error.mp hfails)

/-- Storing the new version raises no `ValidationError`. -/
theorem not_failsBy_persist (hworks : svc.Works) (text owner : String) (m : Memory R) (v : Int)
    (snapshot : MemoryVersion R) :
    ¬FailsBy PyError.Invalid ((do
      let vector ← svc.embedChecked text false
      let persisted ← (inMemoryUnitOfWork R).memories.update m v snapshot vector
      svc.storeRelation (inMemoryUnitOfWork R) owner persisted.id none
      pure persisted).run s) := by
  obtain ⟨vector, hvector, hdim⟩ := hworks.embeds text
  rw [Txn.run_bind_of_ok (embedChecked_run hvector hdim s)]
  intro h
  obtain h | ⟨_, _, -, h⟩ := failsBy_run_bind.mp h
  · replace h : FailsBy PyError.Invalid (InMemoryMemoryRepository.update m v snapshot vector s) := h
    unfold InMemoryMemoryRepository.update at h
    split at h
    · exact not_invalid_omp (by decide) _ (failsBy_error.mp h)
    · split_ifs at h
      · exact not_invalid_omp (by decide) _ (failsBy_error.mp h)
      · exact not_invalid_omp (by decide) _ (failsBy_error.mp h)
      · split at h
        · obtain ⟨_, ⟨⟩⟩ := failsBy_error.mp h
        · exact not_failsBy_ok _ h
  · exact not_failsBy_ok _ h

/-- The body of an update: the memory is looked for, evolved and stored. -/
theorem failsBy_updateBody (hcommand : updateCommand request = .ok command) (hworks : svc.Works)
    (hnow : ensureAware (svc.clock 0) "now" = .ok t)
    (hafter : ∀ m, s.lookup command.ownerId command.memoryId none = some m → m.ReadAfter t) :
    FailsBy PyError.Invalid ((svc.updateBody (inMemoryUnitOfWork R) command).run s) ↔
      (∃ m, s.lookup command.ownerId command.memoryId none = some m ∧
        m.version = command.expectedVersion ∧
        m.assertTransition (request.target m) none = .ok ()) ∧
      ¬∀ text ∈ request.patch.space, isBlank text.val = false := by
  have hrel := (updateCommand_ok hcommand).relation
  unfold updateBody
  cases hlive : s.lookup command.ownerId command.memoryId none with
  -- no live memory: not found
  | none =>
    rw [Txn.run_bind_of_error (currentAt_none _ hlive)]
    refine iff_of_false (fun h => not_invalid_omp (by decide) _ (failsBy_error.mp h)) ?_
    rintro ⟨⟨_, ⟨⟩, -⟩, -⟩
  | some m =>
    by_cases hversion : m.version = command.expectedVersion
    · obtain ⟨descriptor, hdescriptor⟩ := hworks.descriptor
      -- a command with a relation names one memory only
      have hboth : (command.supersedesMemoryId.isSome && command.contradictsMemoryId.isSome)
          = false := by
        unfold requestedRelation at hrel
        split at hrel
        · cases hrel
        · cases hrel
        · rename_i hsupersedes _
          rw [hsupersedes]
          rfl
      have hevolve := failsBy_evolve (evolves_updateArgs hcommand t descriptor)
        (ensureAware_idem hnow) (hafter m hlive)
      have hunrelated : (checkRelated (inMemoryUnitOfWork R) command.ownerId m none).run s
          = .ok ((), s) := rfl
      rw [← hversion, Txn.run_bind_of_ok (currentAt_run hlive _),
        Txn.run_bind_of_ok (now_run hnow s),
        Txn.run_bind_of_ok (a := ()) (raiseIf_ok.mpr ⟨hboth, rfl⟩), hrel,
        Txn.run_bind_of_ok hunrelated,
        Txn.run_bind_of_ok (Txn.ofExcept_ok.mpr ⟨hdescriptor, rfl⟩), failsBy_run_bind,
        failsBy_run_ofExcept, hevolve]
      refine (or_iff_left ?_).trans (and_congr_left' ⟨fun hmove => ⟨m, rfl, rfl, hmove⟩, ?_⟩)
      -- what follows the new version raises no validation error
      · rintro ⟨m', s', -, h⟩
        exact not_failsBy_persist hworks _ _ _ _ _ h
      · rintro ⟨_, ⟨⟩, -, hmove⟩
        exact hmove
    -- another version: a conflict
    · rw [Txn.run_bind_of_error (currentAt_stale _ hlive hversion)]
      refine iff_of_false (fun h => not_invalid_omp (by decide) _ (failsBy_error.mp h)) ?_
      rintro ⟨⟨_, ⟨⟩, hsame, -⟩, -⟩
      exact hversion hsame

/-- The ledger raises no `ValidationError`. -/
theorem not_failsBy_claim (owner k fp : String) :
    ¬FailsBy PyError.Invalid
      (((inMemoryUnitOfWork R).idempotency.claim owner .update k fp).run s) := by
  intro h
  replace h : FailsBy PyError.Invalid
    (InMemoryIdempotencyRepository.claim owner .update k fp s) := h
  unfold InMemoryIdempotencyRepository.claim at h
  dsimp only at h
  split at h
  · exact not_failsBy_ok _ h
  · split_ifs at h
    · exact not_invalid_omp (by decide) _ (failsBy_error.mp h)
    · exact not_invalid_omp (by decide) _ (failsBy_error.mp h)
    · exact not_failsBy_ok _ h

theorem not_failsBy_complete (claim : IdempotencyClaim) (id : Option UUID) (v : Option Int)
    (status : String) : ¬FailsBy PyError.Invalid
      (((inMemoryUnitOfWork R).idempotency.complete claim id v status).run s) := by
  intro h
  replace h : FailsBy PyError.Invalid
    (InMemoryIdempotencyRepository.complete claim id v status s) := h
  unfold InMemoryIdempotencyRepository.complete at h
  dsimp only at h
  split at h
  · exact not_invalid_omp (by decide) _ (failsBy_error.mp h)
  · split_ifs at h
    · exact not_invalid_omp (by decide) _ (failsBy_error.mp h)
    · exact not_failsBy_ok _ h
    · exact not_failsBy_ok _ h

/-- A replay fails so only if reading the version does. -/
theorem not_failsBy_replay {owner : String}
    (hread : ∀ id v, ¬FailsBy PyError.Invalid (s.versionAt owner id v none))
    (claim : IdempotencyClaim) (id : UUID) (v : Int) :
    ¬FailsBy PyError.Invalid
      ((replayVersion (inMemoryUnitOfWork R) owner none claim id v).run s) := by
  intro h
  unfold replayVersion at h
  obtain h | ⟨replay, s', -, h⟩ := failsBy_run_bind.mp h
  · replace h : FailsBy PyError.Invalid ((InMemoryMemoryRepository.getVersion owner
      (claim.memoryId.getD id) ((claim.resultVersion.filter fun v => decide (v ≠ 0)).getD v)
      none).run s) := h
    rw [InMemoryStore.getVersion_run] at h
    exact hread _ _ (failsBy_map.mp h)
  · cases replay with
    | none => exact not_invalid_omp (by decide) _ (failsBy_error.mp h)
    | some m => exact not_failsBy_ok _ h

/-- An update for an owner that the domain takes. -/
theorem failsBy_update (hcommand : updateCommand request = .ok command) (hworks : svc.Works)
    (hnow : ensureAware (svc.clock 0) "now" = .ok t) (hunopposed : request.Unopposed s t)
    (howner : isBlank request.ownerId.val = false) :
    FailsBy PyError.Invalid ((svc.update (inMemoryUnitOfWork R) command).run s) ↔
      request.Reaches s command.memoryId ∧
        ¬∀ text ∈ request.patch.space, isBlank text.val = false := by
  have hof := updateCommand_ok hcommand
  obtain ⟨hid, hexpected⟩ := updateCommand_names hcommand
  obtain ⟨owner, hchecked⟩ := (demands_owner hof.ownerId).passes howner
  unfold update
  rw [Txn.run_bind_of_ok (Txn.ofExcept_ok.mpr ⟨hchecked, rfl⟩), hof.truthyKey]
  dsimp only
  by_cases hfresh : s.idempotencyOperations.get? (ledgerKey request) = none
  · have hnew : s.idempotencyOperations.get?
        (command.ownerId, .update, request.idempotencyKey.val) = none := by
      rw [hof.ownerId]
      exact hfresh
    rw [Txn.run_bind_of_ok (claim_run _ hnew), if_neg Bool.false_ne_true, failsBy_run_bind]
    refine (or_iff_left ?_).trans ?_
    · rintro ⟨m, s', -, h⟩
      obtain h | ⟨_, _, -, h⟩ := failsBy_run_bind.mp h
      · exact not_failsBy_complete _ _ _ _ h
      · exact not_failsBy_ok _ h
    · have hafter : ∀ m, s.lookup command.ownerId command.memoryId none = some m →
          m.ReadAfter t := by
        rw [hof.ownerId]
        exact fun m hm => hunopposed.clock _ m hid hm
      -- the claim is entered in the ledger and leaves the memories as they are
      refine (failsBy_updateBody (s := s.record _ _) hcommand hworks hnow hafter).trans ?_
      unfold UpdateRequest.Reaches
      rw [and_iff_right hfresh, ← hexpected, ← hof.ownerId]
      exact Iff.rfl
  · refine iff_of_false (fun hfails => ?_) fun hboth => hfresh hboth.1.1
    obtain h | ⟨claim, s', hclaim, h⟩ := failsBy_run_bind.mp hfails
    · exact not_failsBy_claim _ _ _ h
    · obtain ⟨-, hnone, -⟩ | ⟨prior, -, rfl, rfl⟩ := InMemoryIdempotencyRepository.claim_ok hclaim
      · rw [hof.ownerId] at hnone
        exact hfresh hnone
      · rw [if_pos rfl, hof.ownerId] at h
        exact not_failsBy_replay (hunopposed.replay hfresh) _ _ _ h

/-- A request to update is taken by the domain exactly if its origin fits. -/
theorem demands_updateCommand {id : UUID} (hid : Python.parseUuid R request.id.val = some id) :
    Demands PyError.Invalid (updateCommand request)
      (∀ p ∈ request.patch.provenance.or request.provenance, p.Fits) := by
  have htype : ∃ r, optional (enumOf MemoryType.ofValue) (request.patch.type.map WireType.value)
      = .ok r := by
    rw [optional_map]
    exact exists_optional fun t _ => exists_enumOf_type t
  have hstate : ∃ r, optional (enumOf MemoryState.ofValue)
      (request.patch.state.map WireState.value) = .ok r := by
    rw [optional_map]
    exact exists_optional fun st _ => exists_enumOf_state st
  obtain ⟨type, htype⟩ := htype
  obtain ⟨st, hstate⟩ := hstate
  unfold updateCommand
  rw [hid]
  exact ((Demands.of_ok (a := id) rfl).bind fun _ _ => (Demands.of_ok htype).bind fun _ _ =>
    (Demands.of_ok hstate).bind fun _ _ =>
    (demands_optional (demands_provenance (R := R)) _).bind fun _ _ => .of_ok rfl).congr (by simp)

/-- An update raises `ValidationError` exactly if the domain does not take it. -/
theorem failsBy_gatewayUpdate (hworks : svc.Works)
    (hnow : ensureAware (svc.clock 0) "now" = .ok t) (hunopposed : request.Unopposed s t) :
    FailsBy PyError.Invalid ((gatewayUpdate svc (inMemoryUnitOfWork R) request).run s) ↔
      ¬request.Fits s := by
  unfold gatewayUpdate
  cases hid : Python.parseUuid R request.id.val with
  | none =>
    -- `UUID(id)` raises before anything else is looked at
    refine iff_of_false ?_ (not_not_intro fun id h => by rw [hid] at h; cases h)
    have hvalue : updateCommand request
        = .error (.valueError "badly formed hexadecimal UUID string") := by
      unfold updateCommand
      rw [hid]
      rfl
    rw [Txn.run_bind_of_error (by rw [Txn.run_ofExcept, hvalue]; rfl)]
    intro h
    obtain ⟨_, ⟨⟩⟩ := failsBy_error.mp h
  | some id =>
    have hfits : request.Fits s ↔
        (∀ p ∈ request.patch.provenance.or request.provenance, p.Fits) ∧
        isBlank request.ownerId.val = false ∧
        (request.Reaches s id → ∀ text ∈ request.patch.space, isBlank text.val = false) := by
      refine ⟨fun h => h id hid, fun h id' hid' => ?_⟩
      obtain rfl := Option.some.inj (hid.symm.trans hid')
      exact h
    rw [hfits]
    by_cases hprovenance : ∀ p ∈ request.patch.provenance.or request.provenance, p.Fits
    · obtain ⟨command, hcommand⟩ := (demands_updateCommand hid).passes hprovenance
      obtain rfl : id = command.memoryId :=
        Option.some.inj (hid.symm.trans (updateCommand_names hcommand).1)
      rw [and_iff_right hprovenance, Txn.run_bind_of_ok (Txn.ofExcept_ok.mpr ⟨hcommand, rfl⟩),
        failsBy_run_bind]
      refine (or_iff_left ?_).trans ?_
      · rintro ⟨_, _, -, h⟩
        exact not_failsBy_ok _ h
      by_cases howner : isBlank request.ownerId.val = false
      · rw [failsBy_update hcommand hworks hnow hunopposed howner, and_iff_right howner,
          Classical.not_imp]
      · refine iff_of_true ?_ fun h => howner h.1
        have hchecked := demands_owner (updateCommand_ok hcommand).ownerId
        exact failsBy_run_bind.mpr (.inl ((hchecked.run_ofExcept s).fails howner))
    · refine iff_of_true (failsBy_run_bind.mpr (.inl ?_)) fun h => hprovenance h.1
      exact ((demands_updateCommand hid).run_ofExcept s).fails hprovenance

end Updates

/-! ## The contract -/

/-- On a working provider and a clock that reads on, a validated request raises no `ValidationError`
exactly if the domain takes it; a write under a new key then creates a memory. -/
theorem contract_honoured_iff {svc : MemoryApplicationService R} {s : InMemoryStore R}
    {t : DateTime} (hworks : svc.Works) (hnow : ensureAware (svc.clock 0) "now" = .ok t) :
    (∀ request : WriteRequest R,
      (¬FailsBy PyError.Invalid ((gatewayWrite svc (inMemoryUnitOfWork R) request).run s) ↔
        request.Fits s) ∧
      (s.fingerprints.get? (request.ownerId.val, request.idempotencyKey.val) = none →
        ((∃ memory s', (gatewayWrite svc (inMemoryUnitOfWork R) request).run s
            = .ok ((memory, .created), s')) ↔ request.Fits s))) ∧
    ∀ request : UpdateRequest R, request.Unopposed s t →
      (¬FailsBy PyError.Invalid ((gatewayUpdate svc (inMemoryUnitOfWork R) request).run s) ↔
        request.Fits s) := by
  refine ⟨fun request => ⟨?_, fun hfresh => ?_⟩, fun request hunopposed => ?_⟩
  · rw [failsBy_gatewayWrite hworks hnow, not_not]
  · rw [← (demands_gatewayWrite hworks hnow hfresh).ok_iff]
    constructor
    · rintro ⟨memory, s', h⟩
      exact ⟨_, h⟩
    · rintro ⟨⟨⟨memory, status⟩, s'⟩, h⟩
      obtain rfl := status_of_new hworks hnow hfresh h
      exact ⟨memory, s', h⟩
  · rw [failsBy_gatewayUpdate hworks hnow hunopposed, not_not]

theorem fits_teaWrite : teaWrite.Fits ({} : InMemoryStore ℚ) := by
  constructor
  case provenance =>
    exact ⟨fun text ht => absurd ht (Option.not_mem_none text),
      fun text ht => absurd ht (Option.not_mem_none text),
      fun text ht => absurd ht (Option.not_mem_none text)⟩
  case owner =>
    show isBlank "alice" = false
    decide
  case names =>
    intro _
    refine ⟨fun text ht => absurd ht (Option.not_mem_none text), ?_⟩
    show isBlank "u1" = false
    decide

/-- The note of `alice` is written. -/
theorem contract_honoured_iff_teaWrite :
    ∃ memory s', (gatewayWrite (serviceOn 3 9) (inMemoryUnitOfWork ℚ) teaWrite).run {}
      = .ok ((memory, .created), s') := by
  have hnow : ensureAware ((serviceOn 3 9).clock 0) "now" = .ok (day2026 3) := ensureAware_utc rfl _
  have hnew : ({} : InMemoryStore ℚ).fingerprints.get?
      (teaWrite.ownerId.val, teaWrite.idempotencyKey.val) = none := rfl
  have hwrites := (contract_honoured_iff (s := ({} : InMemoryStore ℚ)) (works_serviceOn 3 9) hnow).1
  exact ((hwrites teaWrite).2 hnew).mpr fits_teaWrite

/-! ### Evidence that the schema allows -/

theorem Text.modelValidate_val {lo hi : Nat} (text : Text lo hi) :
    Text.modelValidate lo hi text.val = .ok text := by
  obtain ⟨val, htrimmed, hbounded⟩ := text
  unfold Text.modelValidate
  dsimp only
  have hsame : lo ≤ (trimBoth isTrimmed val).length ∧ (trimBoth isTrimmed val).length ≤ hi := by
    rw [htrimmed]
    exact hbounded
  rw [dif_pos hsame]
  congr 2

theorem optional_val {lo hi : Nat} (value : Option (Text lo hi)) :
    optional (Text.modelValidate lo hi) (value.map Text.val) = .ok value := by
  cases value with
  | none => rfl
  | some text =>
    rw [Option.map_some, optional, text.modelValidate_val]
    rfl

theorem Ranged.modelValidate_val {α : Type} {p : α → Bool} (x : Ranged p) :
    Ranged.modelValidate p x.val = .ok x := dif_pos x.property

/-- A time in UTC is rewritten as it was. -/
theorem validTimestamp_val (at_ : UtcText) : validTimestamp R at_.val = .ok at_ := by
  obtain ⟨d, hutc, hzulu⟩ := at_.property
  obtain ⟨text, htext⟩ := exists_validTimestamp (R := R) hutc
  have hval : text.val = d.zulu := by
    have h := htext
    unfold validTimestamp at h
    rw [fromZ_zulu, Python.fromisoformat_isoformat d hutc] at h
    dsimp only at h
    rw [if_neg (by simp [hutc])] at h
    split at h
    · cases h
    · rename_i utc hread
      have hkept := ensureAware_utc hutc "captured_at"
      rw [hread] at hkept
      have hsame : utc = d := Except.ok.inj hkept
      rw [← Except.ok.inj h]
      exact congrArg DateTime.zulu hsame
  rw [← hzulu, htext]
  exact congrArg Except.ok (Subtype.ext (hval.trans hzulu))

/-- The argument object that says what the provenance says. -/
def WireProvenance.dict (p : WireProvenance) : ProvenanceDict where
  sourceType := p.sourceType.value
  capturedAt := p.capturedAt.val
  sourceId := p.sourceId.map Text.val
  sourceModel := p.sourceModel.map Text.val
  evidence := p.evidence.map Text.val

/-- The argument object that says what the request says. -/
def WriteRequest.dict (request : WriteRequest R) : WriteDict R where
  content := request.content.val
  type := request.type.value
  ownerId := request.ownerId.val
  space := request.space.map Text.val
  importance := request.importance.val
  confidence := request.confidence.val
  provenance := request.provenance.dict
  idempotencyKey := request.idempotencyKey.val
  timeoutMs := request.timeoutMs.val

/-- An origin that has been validated is valid. -/
theorem WireProvenance.modelValidate_dict (p : WireProvenance) :
    WireProvenance.modelValidate R p.dict = .ok p := by
  obtain ⟨d, hutc, hzulu⟩ := p.capturedAt.property
  obtain ⟨text, htext⟩ := exists_text_zulu d 1 le_rfl
  have hval : text.val = p.capturedAt.val :=
    ((Text.modelValidate_ok htext).1.trans (trimBoth_zulu d)).trans hzulu
  have hread : validTimestamp R text.val = .ok p.capturedAt := by
    rw [hval]
    exact validTimestamp_val p.capturedAt
  rw [hzulu] at htext
  have hsource : literal WireSourceType.ofValue p.sourceType.value = .ok p.sourceType := by
    cases p.sourceType <;> rfl
  simp only [modelValidate, except_bind_ok, except_pure_ok]
  exact ⟨text, htext, p.capturedAt, hread, p.sourceType, hsource, p.sourceId, optional_val _,
    p.sourceModel, optional_val _, p.evidence, optional_val _, rfl⟩

/-- Every request is what an argument object validates to. -/
theorem WriteRequest.modelValidate_dict (request : WriteRequest R) :
    WriteRequest.modelValidate request.dict = .ok request := by
  have hcontent : notBlank 1 maxContentLength request.content.val
      = .ok ⟨request.content, request.content_not_blank⟩ := by
    unfold notBlank
    rw [request.content.modelValidate_val]
    exact dif_pos request.content_not_blank
  have htype : literal WireType.ofValue request.type.value = .ok request.type := by
    cases request.type <;> rfl
  simp only [modelValidate, except_bind_ok, except_pure_ok]
  exact ⟨request.provenance, request.provenance.modelValidate_dict, _, hcontent, request.type,
    htype, request.ownerId, request.ownerId.modelValidate_val, request.space, optional_val _,
    request.importance, Ranged.modelValidate_val _, request.confidence, Ranged.modelValidate_val _,
    request.idempotencyKey, request.idempotencyKey.modelValidate_val, request.timeoutMs,
    Ranged.modelValidate_val _, rfl⟩

theorem trimBoth_longText :
    trimBoth isTrimmed (String.ofList (List.replicate 513 'x'))
      = String.ofList (List.replicate 513 'x') := by
  refine trimBoth_eq_self_of_forall fun c hc => ?_
  rw [String.toList_ofList] at hc
  rw [List.eq_of_mem_replicate hc]
  decide

theorem length_longText : (String.ofList (List.replicate 513 'x')).length = 513 := by
  rw [String.length_ofList, List.length_replicate]

theorem longText_bounded : 0 ≤ (String.ofList (List.replicate 513 'x')).length ∧
    (String.ofList (List.replicate 513 'x')).length ≤ 2000 := by
  rw [length_longText]
  decide

/-- The note with evidence of 513 characters. -/
def longEvidence : WriteRequest ℚ :=
  { teaWrite with
    provenance :=
      { teaWrite.provenance with
        evidence :=
          some ⟨String.ofList (List.replicate 513 'x'), trimBoth_longText, longText_bounded⟩ } }

/-- The schema allows it, and the write fails under a new key. -/
theorem long_evidence_refused :
    WriteRequest.modelValidate longEvidence.dict = .ok longEvidence ∧
      (serviceOn 3 9).Works ∧ ensureAware ((serviceOn 3 9).clock 0) "now" = .ok (day2026 3) ∧
      FailsBy PyError.Invalid
        ((gatewayWrite (serviceOn 3 9) (inMemoryUnitOfWork ℚ) longEvidence).run {}) := by
  have hnow : ensureAware ((serviceOn 3 9).clock 0) "now" = .ok (day2026 3) := ensureAware_utc rfl _
  refine ⟨longEvidence.modelValidate_dict, works_serviceOn 3 9, hnow, ?_⟩
  rw [failsBy_gatewayWrite (works_serviceOn 3 9) hnow]
  intro hfits
  have hne : String.ofList (List.replicate 513 'x') ≠ "" := by
    intro hempty
    have hlength := length_longText
    rw [hempty] at hlength
    cases hlength
  have hshort := (hfits.provenance.evidence _ rfl hne).2
  rw [length_longText] at hshort
  exact absurd hshort (by decide)

end OpenMemory.Mcp
