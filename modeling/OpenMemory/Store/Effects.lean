import OpenMemory.Store.Replay

/-!
# What a call does to the memories

`Change` forgets who asked for a change and where its vector came from. `Effect` keeps
both: a call that does not import leaves the memories alone, creates one it was asked
for (`Creation`), stores one more version of one memory (`Revision`), or removes one.
Every vector is the one that the provider of the calling service returned. An import
stores some of its prepared records (`Imported`).

A run is kept here with its list of calls (`Played`), so that "this call made that
snapshot" can be said.
-/

namespace OpenMemory

open Lib MemoryApplicationService
open MonadExcept (ofExcept)

variable {R : Type} [Python R]

namespace InMemoryStore

/-- The stores hold the same memories; relations and ledger may differ. -/
structure Alike (s s' : InMemoryStore R) : Prop where
  memories : s'.memories = s.memories
  vectors : s'.vectors = s.vectors
  fingerprints : s'.fingerprints = s.fingerprints
  histories : s'.historyByMemory = s.historyByMemory
  tombstones : s'.tombstones = s.tombstones

theorem Alike.refl (s : InMemoryStore R) : s.Alike s := ⟨rfl, rfl, rfl, rfl, rfl⟩

/-- Stores that differ in ledger and relations only, one after the other, do so at last. -/
theorem Alike.trans {s₁ s₂ s₃ : InMemoryStore R} (h : s₁.Alike s₂) (h' : s₂.Alike s₃) :
    s₁.Alike s₃ :=
  ⟨h'.memories.trans h.memories, h'.vectors.trans h.vectors,
    h'.fingerprints.trans h.fingerprints, h'.histories.trans h.histories,
    h'.tombstones.trans h.tombstones⟩

/-- An entry in the ledger is such a difference. -/
theorem alike_record (s : InMemoryStore R) (key : OperationKey)
    (entry : StoredIdempotencyOperation) : s.Alike (s.record key entry) :=
  ⟨rfl, rfl, rfl, rfl, rfl⟩

/-- So is a relation that an update stores. -/
theorem alike_relationStored {o : String} {source : UUID} {rel : Option (RelationType × UUID)}
    {s s' : InMemoryStore R} (h : RelationStored o source rel s s') : s.Alike s' := by
  unfold RelationStored at h
  cases rel with
  | none =>
    subst h
    exact .refl _
  | some p =>
    obtain ⟨r, -, -, -, -, -, rfl⟩ := h
    exact ⟨rfl, rfl, rfl, rfl, rfl⟩

end InMemoryStore

open InMemoryStore

/-! ## Effects -/

/-- The `create` arguments of a capture. -/
def MemoryApplicationService.captureArgs (svc : MemoryApplicationService R)
    (command : CaptureMemoryCommand R) (timestamp : DateTime)
    (descriptor : EmbeddingDescriptor) : Memory.CreateArgs R where
  memoryId := svc.uuid4
  ownerId := command.ownerId
  tenantId := some command.tenantId
  content := command.content
  memoryType := command.memoryType
  importance := command.importance
  confidence := command.confidence
  provenance := command.provenance
  captureConsent := some command.consent
  space := command.space
  embedding := some descriptor
  idempotencyKey := some command.idempotencyKey
  initialState := .candidate
  now := timestamp

/-- The `evolve` arguments of a confirmation. -/
def MemoryApplicationService.confirmArgs (command : ConfirmCandidateCommand)
    (timestamp : DateTime) (descriptor : EmbeddingDescriptor) : Memory.EvolveArgs R where
  now := timestamp
  state := some .confirmed
  changeReason := command.actorReason
  embedding := some (some descriptor)
  content := command.content
  memoryType := command.memoryType
  space := command.space.map some

/-- The state `pin` moves a memory to. -/
def PinMemoryCommand.targetState (command : PinMemoryCommand) : MemoryState :=
  if command.pinned then .pinned else .confirmed

/-- The `evolve` arguments of a pin. -/
def MemoryApplicationService.pinArgs (command : PinMemoryCommand) (timestamp : DateTime) :
    Memory.EvolveArgs R where
  now := timestamp
  state := some command.targetState
  changeReason := if command.pinned then "pinned" else "unpinned"

/-- The tenant a call looks its memory up with; updates and reads pass none. -/
def Request.addressTenant : Request R → Option String
  | .confirmCandidate c => some c.tenantId
  | .pin c => some c.tenantId
  | .discardCandidate c => some c.tenantId
  | .forget c => c.tenantId
  | _ => none

namespace Call

/-- The call asked for the memory, to be stored with the fingerprint and the vector. -/
inductive Creation (call : Call R) (m : Memory R) (fingerprint : String) (vector : List R) : Prop
  | written {c : WriteMemoryCommand R} {timestamp : DateTime} {descriptor : EmbeddingDescriptor}
      (asked : call.request = .write c) (recorded : fingerprint = fingerprintWriteCommand c)
      (ours : call.service.embeddingProvider.profile.descriptor = .ok descriptor)
      (created : Memory.create (call.service.writeArgs c timestamp descriptor) = .ok m)
      (embedded : call.service.embeddingProvider.embed c.content false = .ok vector)
  | captured {c : CaptureMemoryCommand R} {timestamp : DateTime} {descriptor : EmbeddingDescriptor}
      (asked : call.request = .capture c) (recorded : fingerprint = fingerprintCaptureCommand c)
      (ours : call.service.embeddingProvider.profile.descriptor = .ok descriptor)
      (created : Memory.create (call.service.captureArgs c timestamp descriptor) = .ok m)
      (embedded : call.service.embeddingProvider.embed c.content false = .ok vector)

/-- The call asked for the next version `m'` of `m`, and its guard let `m` through. -/
inductive Revision (call : Call R) (m m' : Memory R) : Prop
  | confirmed {c : ConfirmCandidateCommand} {timestamp : DateTime}
      {descriptor : EmbeddingDescriptor} (asked : call.request = .confirmCandidate c)
      (named : m.id = c.memoryId) (expected : m.version = c.expectedVersion)
      (guard : m.state ∈ [MemoryState.candidate, .stale])
      (ours : call.service.embeddingProvider.profile.descriptor = .ok descriptor)
      (evolved : m.evolve (confirmArgs c timestamp descriptor) = .ok m')
  | pinned {c : PinMemoryCommand} {timestamp : DateTime} (asked : call.request = .pin c)
      (named : m.id = c.memoryId) (expected : m.version = c.expectedVersion)
      (guard : m.state ∈ [MemoryState.confirmed, .pinned]) (moved : m.state ≠ c.targetState)
      (evolved : m.evolve (pinArgs c timestamp) = .ok m')
  | updated {c : UpdateMemoryCommand R} {timestamp : DateTime} {descriptor : EmbeddingDescriptor}
      (asked : call.request = .update c) (named : m.id = c.memoryId)
      (expected : m.version = c.expectedVersion)
      (ours : call.service.embeddingProvider.profile.descriptor = .ok descriptor)
      (evolved : m.evolve (updateArgs c timestamp descriptor) = .ok m')

/-- What a call that does not import can do to the memories. -/
inductive Effect (call : Call R) (s s' : InMemoryStore R) : Prop
  | kept (same : s.Alike s')
  | created {m : Memory R} {fingerprint : String} {vector : List R}
      (creation : call.Creation m fingerprint vector)
      (size : (vector.length : Int) = call.service.embeddingProvider.profile.dimension)
      (fresh : s.Fresh m.id)
      (unused : ∀ k, m.idempotencyKey = some k → s.fingerprints.get? (m.ownerId, k) = none)
      (same : (s.putNew m fingerprint vector).Alike s')
  | versioned {m m' : Memory R} {history : List (MemoryVersion R)} {reason : String}
      {vector : List R} (revision : call.Revision m m')
      (live : s.lookup call.request.ownerId m.id call.request.addressTenant = some m)
      (past : s.historyByMemory.get? m.id = some history)
      (embedded : call.service.embeddingProvider.embed m'.content false = .ok vector)
      (size : (vector.length : Int) = call.service.embeddingProvider.profile.dimension)
      (same : (s.putVersion m' history (m'.snapshot reason) vector).Alike s')
  | removed {m : Memory R} {i : UUID}
      (live : s.lookup call.request.ownerId i call.request.addressTenant = some m)
      (same : (s.remove call.request.ownerId m i).Alike s')

/-- A revision is made by `evolve`. -/
theorem Revision.evolve {call : Call R} {m m' : Memory R} (h : call.Revision m m') :
    ∃ args, m.evolve args = .ok m' := by
  cases h with
  | confirmed _ _ _ _ _ evolved => exact ⟨_, evolved⟩
  | pinned _ _ _ _ _ evolved => exact ⟨_, evolved⟩
  | updated _ _ _ _ evolved => exact ⟨_, evolved⟩

end Call

/-! ## Stores that hold the same memories -/

namespace InMemoryStore

variable {s s' : InMemoryStore R}

/-- Look-ups find the same. -/
theorem Alike.lookup (h : s.Alike s') (o : String) (i : UUID) (t : Option String) :
    s'.lookup o i t = s.lookup o i t := by
  unfold InMemoryStore.lookup
  rw [h.memories]

/-- And a memory that is found has the id that it was looked for. -/
theorem Alike.id_of_lookup (h : s.Alike s') (hk : s.Keyed) {o : String} {i : UUID}
    {t : Option String} {m : Memory R} (hm : s'.lookup o i t = some m) : m.id = i := by
  rw [h.lookup] at hm
  exact hk i m (lookup_eq_some.mp hm).1

/-- A new version can be stored in both. -/
theorem Alike.putVersion (h : s.Alike s') (m : Memory R) (history : List (MemoryVersion R))
    (v : MemoryVersion R) (vector : List R) :
    (s.putVersion m history v vector).Alike (s'.putVersion m history v vector) := by
  obtain ⟨h₁, h₂, h₃, h₄, h₅⟩ := h
  constructor
  · show s'.memories.set _ _ = _
    rw [h₁]
    rfl
  · show s'.vectors.set _ _ = _
    rw [h₂]
    rfl
  · exact h₃
  · show s'.historyByMemory.set _ _ = _
    rw [h₄]
    rfl
  · exact h₅

/-- A claim changes the ledger only. -/
theorem alike_claim {o k fp : String} {op : IdempotencyOperationType} {c : IdempotencyClaim}
    (h : (InMemoryIdempotencyRepository.claim o op k fp).run s = .ok (c, s')) : s.Alike s' := by
  rcases InMemoryIdempotencyRepository.claim_ok h with ⟨-, -, rfl⟩ | ⟨_, -, -, rfl⟩
  · exact alike_record _ _ _
  · exact .refl _

/-- So does its completion. -/
theorem alike_complete {c : IdempotencyClaim} {i : Option UUID} {v : Option Int} {st : String}
    {u : Unit} (h : (InMemoryIdempotencyRepository.complete c i v st).run s = .ok (u, s')) :
    s.Alike s' := by
  replace h : InMemoryIdempotencyRepository.complete c i v st s = .ok (u, s') := h
  unfold InMemoryIdempotencyRepository.complete at h
  dsimp only at h
  -- an entry that is not there, or has another fingerprint, is an error
  cases hop : s.idempotencyOperations.get? (c.ownerId, c.operationType, c.idempotencyKey) with
  | none =>
    rw [hop] at h
    cases h
  | some operation =>
    rw [hop] at h
    dsimp only at h
    by_cases hfp : operation.fingerprint = c.fingerprint
    · rw [if_neg (not_not.mpr hfp)] at h
      -- a completed entry stays; an open one is completed
      by_cases hst : operation.status = .completed
      · rw [if_pos hst] at h
        cases h
        exact .refl _
      · rw [if_neg hst] at h
        cases h
        exact ⟨rfl, rfl, rfl, rfl, rfl⟩
    · rw [if_pos hfp] at h
      cases h

end InMemoryStore

/-! ## Every call has an effect -/

namespace Call

variable {call : Call R} {s s₀ s₁ s' : InMemoryStore R}

/-- Creating a memory that the call asks for is an effect of the call. -/
theorem create_effect {m : Memory R} {fp : String} {vector : List R} {r : WriteMemoryResult R}
    (hcreation : call.Creation m fp vector)
    (hsize : (vector.length : Int) = call.service.embeddingProvider.profile.dimension)
    (hfresh : s.Fresh m.id)
    (hrun : (InMemoryMemoryRepository.create m fp vector).run s = .ok (r, s')) :
    call.Effect s s' := by
  rcases InMemoryMemoryRepository.create_ok hrun with ⟨rfl, rfl, hunused⟩ | ⟨_, -, -, -, rfl⟩
  · exact .created hcreation hsize hfresh hunused (.refl _)
  · exact .kept (.refl _)

/-- Storing what `evolve` returned, between ledger writes. -/
theorem version_effect {m m' r : Memory R} {i : UUID} {v : Int} {reason : String}
    {vector : List R} (hk : s.Keyed) (hs : s.Alike s₀) (hrevision : call.Revision m m')
    (hlive : s₀.lookup call.request.ownerId i call.request.addressTenant = some m)
    (hembed : call.service.embeddingProvider.embed m'.content false = .ok vector)
    (hsize : (vector.length : Int) = call.service.embeddingProvider.profile.dimension)
    (hupd : (InMemoryMemoryRepository.update m' v (m'.snapshot reason) vector).run s₀
      = .ok (r, s₁)) (hs' : s₁.Alike s') : call.Effect s s' := by
  obtain ⟨-, -, history, -, -, -, hpast, rfl⟩ := InMemoryMemoryRepository.update_ok hupd
  obtain ⟨args, hevolve⟩ := hrevision.evolve
  have hid := hs.id_of_lookup hk hlive
  rw [hs.lookup, ← hid] at hlive
  rw [hs.histories, (Memory.evolve_ok hevolve).identity.id] at hpast
  exact .versioned hrevision hlive hpast hembed hsize ((hs.putVersion _ _ _ _).trans hs')

/-- Removing one that it names is too. -/
theorem forgot_effect {b : Bool} {i : UUID}
    (h : Forgot s call.request.ownerId i call.request.addressTenant b s₁) (hs' : s₁.Alike s') :
    call.Effect s s' := by
  rcases h with ⟨-, -, rfl⟩ | ⟨m, -, hm, rfl⟩
  · exact .kept hs'
  · exact .removed hm hs'

variable {svc : MemoryApplicationService R}

/-- What `write` does is an effect of the call. -/
theorem write_effect {c : WriteMemoryCommand R} {r : WriteMemoryResult R}
    (hfresh : s.Fresh svc.uuid4)
    (h : (svc.write (inMemoryUnitOfWork R) c).run s = .ok (r, s')) :
    (⟨svc, .write c⟩ : Call R).Effect s s' := by
  -- without a prior memory a new one is created
  have hnew : ∀ timestamp, (svc.writeNew (inMemoryUnitOfWork R) c timestamp
      (fingerprintWriteCommand c)).run s = .ok (r, s') →
      (⟨svc, .write c⟩ : Call R).Effect s s' := by
    intro timestamp hnew
    simp only [writeNew, Txn.bind_ok, Txn.ofExcept_ok, inMemoryUnitOfWork] at hnew
    obtain ⟨vector, _, hvec, descriptor, _, ⟨hours, rfl⟩, m, _, ⟨hm, rfl⟩, hcreate⟩ := hnew
    obtain ⟨hembed, hsize, rfl⟩ := embedChecked_ok hvec
    obtain ⟨hid, -⟩ := Memory.create_ok hm
    have hid : m.id = svc.uuid4 := hid
    exact create_effect (.written rfl rfl hours hm hembed) hsize (hid ▸ hfresh) hcreate
  simp only [write, Txn.bind_ok, Txn.ofExcept_ok] at h
  obtain ⟨_, _, ⟨-, rfl⟩, timestamp, _, hat, h⟩ := h
  obtain ⟨-, rfl⟩ := now_ok hat
  cases hkey : truthyKey c.idempotencyKey with
  | none =>
    rw [hkey] at h
    exact hnew timestamp h
  | some k =>
    rw [hkey] at h
    -- with a key, the prior memory is answered
    obtain ⟨prior, _, hfind, h⟩ := Txn.bind_ok.mp h
    obtain ⟨rfl, ⟨rfl, -⟩ | ⟨l, rfl, -, -⟩⟩ :=
      InMemoryMemoryRepository.findByIdempotencyKey_ok hfind
    · exact hnew timestamp h
    · simp only [Txn.bind_ok, raiseIf_ok, Txn.pure_ok] at h
      obtain ⟨_, _, ⟨-, rfl⟩, -, rfl⟩ := h
      exact .kept (.refl _)

/-- The same for `capture`. -/
theorem capture_effect {c : CaptureMemoryCommand R} {r : WriteMemoryResult R}
    (hfresh : s.Fresh svc.uuid4)
    (h : (svc.capture (inMemoryUnitOfWork R) c).run s = .ok (r, s')) :
    (⟨svc, .capture c⟩ : Call R).Effect s s' := by
  obtain ⟨_, s₀, hval, hbody⟩ := Txn.bind_ok.mp h
  obtain rfl := validateCapture_ok hval
  obtain ⟨prior, s₁, hfind, hrest⟩ := Txn.bind_ok.mp hbody
  obtain ⟨rfl, ⟨rfl, -⟩ | ⟨l, rfl, -, -⟩⟩ :=
    InMemoryMemoryRepository.findByIdempotencyKey_ok hfind
  · dsimp only at hrest
    simp only [Txn.bind_ok, Txn.ofExcept_ok, inMemoryUnitOfWork] at hrest
    obtain ⟨vector, _, hvec, descriptor, _, ⟨hours, rfl⟩, timestamp, _, hat, m, _, ⟨hm, rfl⟩,
      hcreate⟩ := hrest
    obtain ⟨-, rfl⟩ := now_ok hat
    obtain ⟨hembed, hsize, rfl⟩ := embedChecked_ok hvec
    obtain ⟨hid, -⟩ := Memory.create_ok hm
    have hid : m.id = svc.uuid4 := hid
    exact create_effect (.captured rfl rfl hours hm hembed) hsize (hid ▸ hfresh) hcreate
  · simp only [Txn.bind_ok, raiseIf_ok, Txn.pure_ok] at hrest
    obtain ⟨_, _, ⟨-, rfl⟩, -, rfl⟩ := hrest
    exact .kept (.refl _)

/-- The same for `confirm_candidate`. -/
theorem confirmCandidate_effect {c : ConfirmCandidateCommand} {r : Memory R} (hk : s.Keyed)
    (h : (svc.confirmCandidate (inMemoryUnitOfWork R) c).run s = .ok (r, s')) :
    (⟨svc, .confirmCandidate c⟩ : Call R).Effect s s' := by
  simp only [confirmCandidate, Txn.bind_ok, inMemoryUnitOfWork] at h
  obtain ⟨_, _, hscope, _, _, hmut, claim, s₁, hclaim, h⟩ := h
  obtain ⟨-, rfl⟩ := validateScope_ok hscope
  obtain ⟨-, rfl⟩ := validateMutationScope_ok hmut
  have hs₁ := alike_claim hclaim
  -- a replay, or a new version and the completed claim
  by_cases hreplay : claim.replay = true
  · rw [if_pos hreplay] at h
    obtain ⟨-, rfl⟩ := replayVersion_ok h
    exact .kept hs₁
  · rw [if_neg hreplay] at h
    simp only [Txn.bind_ok, raiseIf_ok, Txn.ofExcept_ok, Txn.pure_ok] at h
    obtain ⟨m, _, hcur, _, _, ⟨hguard, rfl⟩, timestamp, _, hat, descriptor, _, ⟨hours, rfl⟩, m', _,
      ⟨hevolve, rfl⟩, vector, _, hvec, persisted, s₂, hupd, _, _, hdone, -, rfl⟩ := h
    obtain ⟨hlive, hv, rfl⟩ := currentAt_ok hcur
    have hid := hs₁.id_of_lookup hk hlive
    obtain ⟨-, rfl⟩ := now_ok hat
    obtain ⟨hembed, hsize, rfl⟩ := embedChecked_ok hvec
    have hguard : m.state ∈ [MemoryState.candidate, .stale] :=
      not_not.mp (of_decide_eq_false hguard)
    exact version_effect hk hs₁ (.confirmed rfl hid hv hguard hours hevolve) hlive hembed hsize hupd
      (alike_complete hdone)

/-- The same for `pin`. -/
theorem pin_effect {c : PinMemoryCommand} {r : Memory R} (hk : s.Keyed)
    (h : (svc.pin (inMemoryUnitOfWork R) c).run s = .ok (r, s')) :
    (⟨svc, .pin c⟩ : Call R).Effect s s' := by
  simp only [pin, Txn.bind_ok, inMemoryUnitOfWork] at h
  obtain ⟨_, _, hscope, _, _, hmut, claim, s₁, hclaim, h⟩ := h
  obtain ⟨-, rfl⟩ := validateScope_ok hscope
  obtain ⟨-, rfl⟩ := validateMutationScope_ok hmut
  have hs₁ := alike_claim hclaim
  -- a replay changes nothing but the ledger
  by_cases hreplay : claim.replay = true
  · rw [if_pos hreplay] at h
    obtain ⟨-, rfl⟩ := replayVersion_ok h
    exact .kept hs₁
  · rw [if_neg hreplay] at h
    simp only [Txn.bind_ok, raiseIf_ok] at h
    obtain ⟨m, _, hcur, _, _, ⟨hguard, rfl⟩, h⟩ := h
    obtain ⟨hlive, hv, rfl⟩ := currentAt_ok hcur
    have hid := hs₁.id_of_lookup hk hlive
    -- pinned already: only the claim is completed
    by_cases hst : m.state = if c.pinned then MemoryState.pinned else MemoryState.confirmed
    · simp only [hst, if_true, Txn.bind_ok, Txn.pure_ok] at h
      obtain ⟨_, _, hdone, -, rfl⟩ := h
      exact .kept (hs₁.trans (alike_complete hdone))
    -- otherwise the next version has the new state
    · simp only [hst, if_false, Txn.bind_ok, Txn.ofExcept_ok, Txn.pure_ok] at h
      obtain ⟨timestamp, _, hat, m', _, ⟨hevolve, rfl⟩, vector, _, hvec, persisted, s₂, hupd, _, _,
        hdone, -, rfl⟩ := h
      obtain ⟨-, rfl⟩ := now_ok hat
      obtain ⟨hembed, hsize, rfl⟩ := embedChecked_ok hvec
      have hguard : m.state ∈ [MemoryState.confirmed, .pinned] :=
        not_not.mp (of_decide_eq_false hguard)
      exact version_effect hk hs₁ (.pinned rfl hid hv hguard hst hevolve) hlive hembed hsize hupd
        (alike_complete hdone)

/-- The same for the body of an update, run after its claim. -/
theorem updateBody_effect {c : UpdateMemoryCommand R} {r : Memory R} (hk : s.Keyed)
    (hs : s.Alike s₀) (h : (svc.updateBody (inMemoryUnitOfWork R) c).run s₀ = .ok (r, s₁))
    (hs' : s₁.Alike s') : (⟨svc, .update c⟩ : Call R).Effect s s' := by
  simp only [updateBody, Txn.bind_ok, Txn.ofExcept_ok, Txn.pure_ok, raiseIf_ok] at h
  obtain ⟨m, _, hcur, timestamp, _, hat, _, _, ⟨-, rfl⟩, _, _, hrel, descriptor, _, ⟨hours, rfl⟩,
    m', _, ⟨hevolve, rfl⟩, vector, _, hvec, persisted, s₂, hupd, _, _, hstore, -, rfl⟩ := h
  obtain ⟨hlive, hv, rfl⟩ := currentAt_ok hcur
  have hid := hs.id_of_lookup hk hlive
  obtain ⟨-, rfl⟩ := now_ok hat
  obtain ⟨rfl, -⟩ := checkRelated_ok hrel
  obtain ⟨hembed, hsize, rfl⟩ := embedChecked_ok hvec
  -- both branches of the source embed the content of the new version
  have htext : (if m'.content ≠ m.content then m'.content else m.content) = m'.content := by
    split_ifs with hne
    · rfl
    · exact (not_not.mp hne).symm
  rw [htext] at hembed
  exact version_effect hk hs (.updated rfl hid hv hours hevolve) hlive hembed hsize hupd
    ((alike_relationStored (storeRelation_ok hstore)).trans hs')

/-- The same for `update`, replays included. -/
theorem update_effect {c : UpdateMemoryCommand R} {r : Memory R} (hk : s.Keyed)
    (h : (svc.update (inMemoryUnitOfWork R) c).run s = .ok (r, s')) :
    (⟨svc, .update c⟩ : Call R).Effect s s' := by
  simp only [update, Txn.bind_ok, Txn.ofExcept_ok] at h
  obtain ⟨_, _, ⟨-, rfl⟩, h⟩ := h
  cases hkey : truthyKey c.idempotencyKey with
  | none =>
    rw [hkey] at h
    exact updateBody_effect hk (.refl _) h (.refl _)
  | some k =>
    rw [hkey] at h
    obtain ⟨claim, s₁, hclaim, h⟩ := Txn.bind_ok.mp h
    have hs₁ := alike_claim hclaim
    by_cases hreplay : claim.replay = true
    · rw [if_pos hreplay] at h
      obtain ⟨-, rfl⟩ := replayVersion_ok h
      exact .kept hs₁
    · rw [if_neg hreplay] at h
      simp only [Txn.bind_ok, Txn.pure_ok] at h
      obtain ⟨persisted, s₂, hbody, _, _, hdone, -, rfl⟩ := h
      exact updateBody_effect hk hs₁ hbody (alike_complete hdone)

/-- A call that is carried out once has the effect of its body, or none. -/
theorem ledgered_effect {key : OperationKey} {fp : String}
    {replay : StoredIdempotencyOperation → Prop}
    {body : InMemoryStore R → StoredIdempotencyOperation → Prop}
    (h : Ledgered s key fp replay body s')
    (hbody : ∀ s₁ entry, body s₁ entry → ∀ s₂, s₁.Alike s₂ → call.Effect s s₂) :
    call.Effect s s' := by
  cases h with
  | replayed => exact .kept (.refl _)
  | executed _ ran _ _ => exact hbody _ _ ran _ (alike_record _ _ _)

/-- Every committed request that does not import has an effect. -/
theorem exec_effect {req : Request R} {resp : Response R} (hk : s.Keyed)
    (hfresh : req.drawsUuid = true → s.Fresh svc.uuid4)
    (hno : ∀ o records, req ≠ .importMemories o records)
    (h : (req.exec svc).run s = .ok (resp, s')) : (⟨svc, req⟩ : Call R).Effect s s' := by
  cases req with
  | write c =>
    obtain ⟨r, hr, -⟩ := Txn.map_ok.mp h
    exact write_effect (hfresh rfl) hr
  | capture c =>
    obtain ⟨r, hr, -⟩ := Txn.map_ok.mp h
    exact capture_effect (hfresh rfl) hr
  -- listing, searching and exporting read only
  | listInbox c =>
    obtain ⟨r, hr, -⟩ := Txn.map_ok.mp h
    obtain rfl := readOnly_listInbox c _ _ _ hr
    exact .kept (.refl _)
  | confirmCandidate c =>
    obtain ⟨r, hr, -⟩ := Txn.map_ok.mp h
    exact confirmCandidate_effect hk hr
  | pin c =>
    obtain ⟨r, hr, -⟩ := Txn.map_ok.mp h
    exact pin_effect hk hr
  -- the two deletions go through the ledger
  | discardCandidate c =>
    obtain ⟨r, hr, -⟩ := Txn.map_ok.mp h
    refine ledgered_effect (discardCandidate_ok hr) ?_
    rintro s₁ entry ⟨-, hforgot⟩ s₂ hs₂
    exact forgot_effect hforgot hs₂
  | «recall» c =>
    obtain ⟨r, hr, -⟩ := Txn.map_ok.mp h
    obtain rfl := readOnly_recall svc c _ _ _ hr
    exact .kept (.refl _)
  | search c =>
    obtain ⟨r, hr, -⟩ := Txn.map_ok.mp h
    obtain rfl := readOnly_search svc c _ _ _ hr
    exact .kept (.refl _)
  | update c =>
    obtain ⟨r, hr, -⟩ := Txn.map_ok.mp h
    exact update_effect hk hr
  | forget c =>
    obtain ⟨r, hr, -⟩ := Txn.map_ok.mp h
    rcases MemoryApplicationService.forget_ok hr with ⟨-, hforgot⟩ | ⟨k, -, hled⟩
    · exact forgot_effect hforgot (.refl _)
    · refine ledgered_effect hled ?_
      intro s₁ entry hforgot s₂ hs₂
      exact forgot_effect hforgot hs₂
  -- a relation touches no memory
  | relate c =>
    obtain ⟨r, hr, -⟩ := Txn.map_ok.mp h
    obtain ⟨-, -, rfl⟩ := MemoryApplicationService.relate_ok hr
    exact .kept ⟨rfl, rfl, rfl, rfl, rfl⟩
  | exportMemories o e =>
    obtain ⟨r, hr, -⟩ := Txn.map_ok.mp h
    obtain rfl := readOnly_exportMemories o e _ _ _ hr
    exact .kept (.refl _)
  | importMemories o records => exact absurd rfl (hno o records)

/-- A call that does not import, successful or not, has an effect. -/
theorem effect (hk : s.Keyed) (hfresh : call.DrawsFresh s) (hno : NoImport s call) :
    call.Effect s (call.attempt s).2 := by
  cases h : (call.request.exec call.service).run s with
  | error e =>
    have hs : call.attempt s = (.error e, s) := Txn.attempt_error.mpr ⟨h, rfl⟩
    rw [hs]
    exact .kept (.refl _)
  | ok r =>
    have hs : call.attempt s = (.ok r.1, r.2) := Txn.attempt_ok.mpr h
    rw [hs]
    exact exec_effect hk hfresh hno h

end Call

/-! ## Imports -/

namespace InMemoryStore

/-- A prepared record is stored under an id that nothing is stored under. -/
inductive Stores (prepared : List (MemoryRecordDto R)) (s : InMemoryStore R) :
    InMemoryStore R → Prop
  | intro {record : MemoryRecordDto R} {vector : List R} (member : record ∈ prepared)
      (absent : s.memories.get? record.memory.id = none)
      (carried : record.embedding = some vector) :
      Stores prepared s (InMemoryMemoryAdminRepository.storeRecord s record vector)

/-- The vector of a prepared record came with the package or has the provider's size. -/
def Sized (svc : MemoryApplicationService R) (records : List (MemoryRecordDto R))
    (p : MemoryRecordDto R) : Prop :=
  ∀ vector, p.embedding = some vector → p ∈ records ∨
    (vector.length : Int) = svc.embeddingProvider.profile.dimension

/-- What an import of `records` by the service does to the memories: some of the prepared
records are stored, one after another. -/
structure Imported (svc : MemoryApplicationService R) (o : String)
    (records : List (MemoryRecordDto R)) (s s' : InMemoryStore R) : Prop where
  valid : ∀ record ∈ records, ∃ ids u, validateImportRecord o ids record = .ok u
  stored : ∃ prepared s₁, List.Forall₂ (Prepared svc) records prepared ∧
    (∀ p ∈ prepared, Sized svc records p) ∧ Reaches (Stores prepared) s s₁ ∧ s₁.Alike s'

variable {s s' : InMemoryStore R}

/-- Storing records removes nothing. -/
theorem stores_grow {prepared : List (MemoryRecordDto R)} {i : UUID}
    (h : Reaches (Stores prepared) s s') (habsent : s'.memories.get? i = none) :
    s.memories.get? i = none := by
  induction h with
  | refl => exact habsent
  | @tail s₁ s₂ _ hstep ih =>
    cases hstep with
    | @intro p _ _ _ _ =>
      replace habsent : (s₁.memories.set p.memory.id p.memory).get? i = none := habsent
      rw [Dict.get?_set] at habsent
      by_cases hi : i = p.memory.id
      · rw [if_pos hi] at habsent
        cases habsent
      · rw [if_neg hi] at habsent
        exact ih habsent

/-- An imported record is stored as prepared, or nothing changes. -/
theorem importRecord_stores {prepared : List (MemoryRecordDto R)} {record : MemoryRecordDto R}
    {stored : Bool} (hmem : record ∈ prepared)
    (h : InMemoryMemoryAdminRepository.importRecord s record = .ok (stored, s')) :
    Reaches (Stores prepared) s s' := by
  unfold InMemoryMemoryAdminRepository.importRecord at h
  -- a tombstone is an error, and so is another memory under the id
  by_cases htomb : (record.memory.ownerId, record.memory.tenantId, record.memory.id) ∈ s.tombstones
  · rw [if_pos htomb] at h
    cases h
  · rw [if_neg htomb] at h
    cases hm : s.memories.get? record.memory.id with
    | some current =>
      rw [hm] at h
      dsimp only at h
      by_cases heq : current.pyEq record.memory = true
      · rw [if_pos heq] at h
        cases h
        exact .refl
      · rw [if_neg heq] at h
        cases h
    -- only a new id with a vector is stored
    | none =>
      rw [hm] at h
      dsimp only at h
      cases hvec : record.embedding with
      | none =>
        rw [hvec] at h
        cases h
      | some vector =>
        rw [hvec] at h
        cases h
        exact .single (.intro hmem hm hvec)

/-- Imported records are stored one after the other. -/
theorem importRecords_stores {prepared records : List (MemoryRecordDto R)} {result : ImportResult}
    (hsub : ∀ record ∈ records, record ∈ prepared)
    (h : InMemoryMemoryAdminRepository.importRecords records s = .ok (result, s')) :
    Reaches (Stores prepared) s s' := by
  induction records generalizing s result with
  | nil =>
    cases h
    exact .refl
  | cons record rest ih =>
    simp only [InMemoryMemoryAdminRepository.importRecords, except_bind_ok] at h
    obtain ⟨⟨stored, s₁⟩, hone, ⟨result', s₂⟩, hrest, h⟩ := h
    cases h
    obtain ⟨hrecord, hsub⟩ := List.forall_mem_cons.mp hsub
    exact (importRecord_stores hrecord hone).trans (ih hsub hrest)

/-- Imported relations change no memory. -/
theorem alike_importRelations (relations : List Relation) (s : InMemoryStore R) :
    s.Alike (relations.foldl InMemoryMemoryAdminRepository.importRelation s) := by
  induction relations generalizing s with
  | nil => exact .refl _
  | cons r rest ih =>
    rw [List.foldl_cons]
    refine Alike.trans ?_ (ih _)
    unfold InMemoryMemoryAdminRepository.importRelation
    split_ifs
    · exact .refl _
    · exact ⟨rfl, rfl, rfl, rfl, rfl⟩

/-- A prepared record comes from one of the package. -/
theorem prepared_of_mem {svc : MemoryApplicationService R}
    {records prepared : List (MemoryRecordDto R)} {p : MemoryRecordDto R}
    (h : List.Forall₂ (Prepared svc) records prepared) (hp : p ∈ prepared) :
    ∃ record ∈ records, Prepared svc record p := by
  induction h with
  | nil => cases hp
  | @cons record p' records prepared hone _ ih =>
    rcases List.mem_cons.mp hp with rfl | hp
    · exact ⟨record, List.mem_cons_self, hone⟩
    · obtain ⟨record', hrecord', hprepared⟩ := ih hp
      exact ⟨record', List.mem_cons_of_mem _ hrecord', hprepared⟩

/-- Every record of a valid package has been checked. -/
theorem validateImport_valid {o : String} {ids ids' : List UUID}
    {records : List (MemoryRecordDto R)} (h : validateImport o ids records = .ok ids') :
    ∀ record ∈ records, ∃ ids u, validateImportRecord o ids record = .ok u := by
  induction records generalizing ids with
  | nil => simp
  | cons record rest ih =>
    simp only [validateImport, except_bind_ok] at h
    obtain ⟨u, hrecord, hrest⟩ := h
    exact List.forall_mem_cons.mpr ⟨⟨ids, u, hrecord⟩, ih hrest⟩

/-- The vector of a prepared record has the dimension of the profile. -/
theorem prepareRecords_sized {svc : MemoryApplicationService R} {existing : List UUID}
    {records prepared : List (MemoryRecordDto R)}
    (h : (svc.prepareRecords existing records : StoreTxn R _).run s = .ok (prepared, s')) :
    ∀ p ∈ prepared, Sized svc records p := by
  induction records generalizing prepared s' with
  | nil =>
    obtain ⟨rfl, -⟩ := Txn.pure_ok.mp h
    simp
  | cons record rest ih =>
    -- the vectors of the rest come from the package or the provider
    have htail : ∀ {more : List (MemoryRecordDto R)} {s₁ : InMemoryStore R},
        (svc.prepareRecords existing rest : StoreTxn R _).run s = .ok (more, s₁) →
        ∀ p ∈ more, Sized svc (record :: rest) p := by
      intro more s₁ hmore p hp vector hvector
      exact (ih hmore p hp vector hvector).imp_left (List.mem_cons_of_mem _)
    unfold prepareRecords at h
    by_cases hkeep : record.memory.id ∈ existing ∨ record.embedding.isSome
    · rw [if_pos hkeep] at h
      obtain ⟨more, s₁, hmore, h⟩ := Txn.bind_ok.mp h
      obtain ⟨rfl, -⟩ := Txn.pure_ok.mp h
      exact List.forall_mem_cons.mpr ⟨fun _ _ => .inl List.mem_cons_self, htail hmore⟩
    -- this one is computed, and has the dimension of the provider
    · rw [if_neg hkeep] at h
      cases hd : record.memory.embedding with
      | none =>
        rw [hd] at h
        cases h
      | some descriptor =>
        rw [hd] at h
        simp only [Txn.bind_ok, Txn.ofExcept_ok, raiseIf_ok] at h
        obtain ⟨ours, _, ⟨-, rfl⟩, _, _, ⟨-, rfl⟩, vector, _, hvec, more, s₁, hmore, h⟩ := h
        obtain ⟨-, hsize, rfl⟩ := embedChecked_ok hvec
        obtain ⟨rfl, -⟩ := Txn.pure_ok.mp h
        refine List.forall_mem_cons.mpr ⟨fun vector' hvector' => .inr ?_, htail hmore⟩
        cases hvector'
        exact hsize

/-- What an import does: it stores prepared records of the package. -/
theorem importMemories_imported {svc : MemoryApplicationService R} {o : String}
    {records : List (MemoryRecordDto R)} {result : ImportResult}
    (h : (svc.importMemories (inMemoryUnitOfWork R) o records).run s = .ok (result, s')) :
    Imported svc o records s s' := by
  simp only [importMemories, Txn.bind_ok, Txn.ofExcept_ok] at h
  obtain ⟨_, _, ⟨-, rfl⟩, ids, _, ⟨hval, rfl⟩, _, s₁, hends, existing, s₂, hex, prepared, s₃, hprep,
    himport⟩ := h
  obtain ⟨rfl, -⟩ := checkEndpoints_ok hends
  obtain rfl := readOnly_existingRecords _ _ _ _ hex
  have hsized := prepareRecords_sized hprep
  obtain ⟨rfl, hprepared⟩ := prepareRecords_ok hprep
  replace himport : InMemoryMemoryAdminRepository.importMemories prepared s₃
    = .ok (result, s') := himport
  unfold InMemoryMemoryAdminRepository.importMemories at himport
  cases hloop : InMemoryMemoryAdminRepository.importRecords prepared s₃ with
  | error e =>
    rw [hloop] at himport
    cases himport
  | ok done =>
    rw [hloop] at himport
    cases himport
    exact ⟨validateImport_valid hval, prepared, done.2, hprepared, hsized,
      importRecords_stores (fun _ hmem => hmem) hloop, alike_importRelations _ _⟩

end InMemoryStore

/-- Every call has an effect, or is an import that succeeded. -/
theorem Call.effect_or_imported {call : Call R} {s : InMemoryStore R} (hk : s.Keyed)
    (hfresh : call.DrawsFresh s) :
    call.Effect s (call.attempt s).2 ∨
      ∃ o records, call.request = .importMemories o records ∧
        Imported call.service o records s (call.attempt s).2 := by
  cases hreq : call.request with
  | importMemories o records =>
    cases h : (call.request.exec call.service).run s with
    | error e =>
      have hs : call.attempt s = (.error e, s) := Txn.attempt_error.mpr ⟨h, rfl⟩
      rw [hs]
      exact .inl (.kept (.refl _))
    | ok r =>
      have hs : call.attempt s = (.ok r.1, r.2) := Txn.attempt_ok.mpr h
      rw [hs]
      rw [hreq] at h
      obtain ⟨result, hresult, -⟩ := Txn.map_ok.mp h
      exact .inr ⟨o, records, rfl, importMemories_imported hresult⟩
  | write | capture | listInbox | confirmCandidate | pin | discardCandidate | «recall» | search
  | update | forget | relate | exportMemories =>
    refine .inl (Call.effect hk hfresh fun o records himport => ?_)
    rw [hreq] at himport
    cases himport

/-! ## Runs with their calls -/

namespace InMemoryStore

/-- The calls, made one after another on the empty store and each allowed where it is
made, leave the store. -/
inductive Played (may : InMemoryStore R → Call R → Prop) :
    List (Call R) → InMemoryStore R → Prop
  | start : Played may [] {}
  | next {calls : List (Call R)} {s : InMemoryStore R} {call : Call R}
      (before : Played may calls s) (fresh : call.DrawsFresh s) (allowed : may s call) :
      Played may (calls ++ [call]) (call.attempt s).2

theorem Played.run {may : InMemoryStore R → Call R → Prop} {calls : List (Call R)}
    {s : InMemoryStore R} (h : Played may calls s) : Run may {} s := by
  induction h with
  | start => exact .refl
  | next _ fresh allowed ih => exact ih.tail ⟨_, fresh, allowed, rfl⟩

/-- The invariant holds in every store that calls reach. -/
theorem Played.inv {may : InMemoryStore R → Call R → Prop} {calls : List (Call R)}
    {s : InMemoryStore R} (h : Played may calls s) : Inv s :=
  inv_empty.run h.run

/-- A weaker restriction on the calls admits the same runs. -/
theorem Played.mono {may may' : InMemoryStore R → Call R → Prop} {calls : List (Call R)}
    {s : InMemoryStore R} (hle : ∀ s call, may s call → may' s call) (h : Played may calls s) :
    Played may' calls s := by
  induction h with
  | start => exact .start
  | next _ fresh allowed ih => exact .next ih fresh (hle _ _ allowed)

end InMemoryStore

end OpenMemory
