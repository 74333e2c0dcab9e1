import OpenMemory.Domain.Conditions
import OpenMemory.Store.Invariant

/-!
# Contradicting a memory

The lifecycle is cyclic, since a contradicted memory may become active again, while relations
are only ever added: `add_relation` refuses one that is already there. So whether an update that names a
contradicting memory goes through depends on what was stored about the pair before.

- `ValidPatch`, `FreshKey`, `Works`, `Contradictable`: what the caller and the provider bring.
- `evolve_contradicted`: the lifecycle lets a memory in use become contradicted.
- `updateBody_contradicts`, `updateBody_contradicted`: the body of the update goes through when the
  relation is new and the clock reads on from the creation of the memory, and only then.
- `contradiction_goes_through_iff` is the result.
-/

namespace OpenMemory

open Lib MemoryApplicationService InMemoryStore
open MonadExcept (ofExcept)

variable {R : Type} [Python R]

/-! ## What the caller brings -/

/-- The patched fields of an update pass the checks that are about them alone. -/
structure UpdateMemoryCommand.ValidPatch (c : UpdateMemoryCommand R) : Prop where
  content : ∀ text, c.content = some text →
    isBlank text = false ∧ (collapse text).length ≤ maxContentLength
  importance : ∀ x, c.importance = some x → Python.inUnit x = true
  confidence : ∀ x, c.confidence = some x → Python.inUnit x = true
  occurredAt : ∀ at_, c.occurredAt = some at_ → ∃ utc, ensureAware at_ "occurred_at" = .ok utc
  space : ∀ name, c.space = some name → ∃ checked, validateSpace (some name) = .ok checked
  changeReason : isBlank c.changeReason = false
  supersedes : c.supersedesMemoryId = none

/-- The idempotency key, if there is one, is new to the ledger. -/
def UpdateMemoryCommand.FreshKey (c : UpdateMemoryCommand R) (s : InMemoryStore R) : Prop :=
  ∀ k, truthyKey c.idempotencyKey = some k →
    s.idempotencyOperations.get? (c.ownerId, .update, k) = none

/-- The embedding provider works: its profile describes vectors, and it computes one of that
dimension for every text. -/
structure MemoryApplicationService.Works (svc : MemoryApplicationService R) : Prop where
  descriptor : ∃ d, svc.embeddingProvider.profile.descriptor = .ok d
  embeds : ∀ text, ∃ vector, svc.embeddingProvider.embed text false = .ok vector ∧
    (vector.length : Int) = svc.embeddingProvider.profile.dimension

/-- The update names a memory `a` in use, at its current version, and another live memory of the
owner, `x`, that contradicts it. -/
structure Contradictable (s : InMemoryStore R) (c : UpdateMemoryCommand R) (a : Memory R)
    (x : UUID) : Prop where
  live : s.lookup c.ownerId c.memoryId none = some a
  inUse : a.state ∈ [MemoryState.active, .confirmed, .pinned]
  version : a.version = c.expectedVersion
  names : c.contradictsMemoryId = some x
  other : x ≠ c.memoryId
  liveOther : (s.lookup c.ownerId x none).isSome

/-- Both clock readings of the update exist in UTC, and the memory was not created after the
first of them. -/
structure MemoryApplicationService.ClockedAfter (svc : MemoryApplicationService R)
    (m : Memory R) : Prop where
  first : ∃ t, ensureAware (svc.clock 0) "now" = .ok t ∧
    ∀ created, ensureAware m.createdAt "created_at" = .ok created → created.wall ≤ t.wall
  second : ∃ t, ensureAware (svc.clock 1) "now" = .ok t

/-- The memory is contradicted, and the relation says by what. -/
def IsContradicted (s : InMemoryStore R) (ownerId : String) (a x : UUID) : Prop :=
  (∃ m, s.lookup ownerId a none = some m ∧ m.state = .contradicted) ∧
    (s.relations.get? (ownerId, a, x, .contradicts)).isSome

omit [Python R] in
/-- The command asks for a `contradicts` relation. -/
theorem requestedRelation_of_names {c : UpdateMemoryCommand R} {x : UUID}
    (hsuper : c.supersedesMemoryId = none) (hnames : c.contradictsMemoryId = some x) :
    requestedRelation c = some (.contradicts, x) := by
  unfold requestedRelation
  rw [hsuper, hnames]

/-! ## The new version -/

/-- The owner of a memory passes its check. -/
theorem Memory.validOwner (m : Memory R) : ∃ o, validateOwnerId m.ownerId = .ok o := by
  have h := m.checked
  simp only [MemoryFields.postInit, except_bind_ok] at h
  obtain ⟨o, ho, -⟩ := h
  exact ⟨o, ho⟩

/-- A memory in use can be evolved to contradicted with any valid patch. -/
theorem evolve_contradicted {c : UpdateMemoryCommand R} {m : Memory R} {x : UUID} {now t : DateTime}
    {d : EmbeddingDescriptor} (hpatch : c.ValidPatch) (hnames : c.contradictsMemoryId = some x)
    (hstate : m.state ∈ [MemoryState.active, .confirmed, .pinned])
    (hnow : ensureAware now "now" = .ok t)
    (hafter : ∀ created, ensureAware m.createdAt "created_at" = .ok created →
      created.wall ≤ t.wall) : ∃ m', m.evolve (updateArgs c now d) = .ok m' := by
  have hrel := requestedRelation_of_names hpatch.supersedes hnames
  -- the new state is `contradicted`, which the table allows from a live one
  have hnext : requestedState c = some .contradicted := by
    unfold requestedState
    rw [hrel]
  have hmove : m.assertTransition .contradicted (some x) = .ok () := by
    unfold Memory.assertTransition
    have hallowed : MemoryState.contradicted ∈ Memory.allowed m.state := by
      revert hstate
      cases m.state <;> decide
    by_cases hsame : MemoryState.contradicted = m.state
    · rw [if_pos hsame]
      rfl
    · rw [if_neg hsame]
      simp only [hallowed, not_true_eq_false, decide_false, Option.isNone_some, Bool.and_false]
      rfl
  have hallowed : m.assertTransition ((updateArgs c now d).state.getD m.state)
      (updateArgs c now d).relatedMemoryId = .ok () := by
    simp only [updateArgs, hnext, hrel, Option.getD_some, Option.map_some]
    exact hmove
  -- a new time is aware by the command, the old one by the memory
  have hoccurred : ∀ at_ ∈ (updateArgs c now d).occurredAt.getD m.occurredAt,
      ∃ utc, ensureAware at_ "occurred_at" = .ok utc := by
    show ∀ at_ ∈ (c.occurredAt.map some).getD m.occurredAt, _
    cases hat : c.occurredAt with
    | none => exact m.timed.occurred
    | some at_ =>
      rintro _ ⟨⟩
      exact hpatch.occurredAt at_ hat
  refine (Memory.demands_evolve hallowed hnow hafter hoccurred).passes ?_
  -- what is left are the checks of the patch
  constructor
  case changeReason => exact hpatch.changeReason
  case content =>
    intro text htext
    obtain ⟨hblank, hshort⟩ := hpatch.content text htext
    exact ⟨hblank, hshort⟩
  case importance => exact hpatch.importance
  case confidence => exact hpatch.confidence
  case space =>
    intro space hspace text htext
    obtain ⟨name, hname, rfl⟩ := Option.mem_map.mp hspace
    exact (demands_validateSpace _).ok_iff.mp (hpatch.space name hname) text htext

/-- An evolved memory was not created after the reading it was evolved at. -/
theorem evolve_after {m m' : Memory R} {args : Memory.EvolveArgs R}
    (h : m.evolve args = .ok m') : ∃ t, ensureAware args.now "now" = .ok t ∧
      ∀ created, ensureAware m.createdAt "created_at" = .ok created → created.wall ≤ t.wall := by
  simp only [Memory.evolve, except_bind_ok] at h
  obtain ⟨_, -, _, -, t, ht, hm⟩ := h
  refine ⟨t, ht, fun created hcreated => ?_⟩
  obtain ⟨g, -, hg, -⟩ := construct_ok.mp hm
  simp only [MemoryFields.postInit, except_bind_ok, raiseIf_except_ok] at hg
  obtain ⟨_, -, _, -, _, -, _, -, _, -, _, -, _, -, created', hcreated', t', ht', _, hle, -⟩ := hg
  rw [hcreated] at hcreated'
  cases hcreated'
  rw [ensureAware_idem ht] at ht'
  cases ht'
  simpa using hle

/-- A relation between two memories can be made. -/
theorem Relation.exists_make {f : RelationFields} {o : String} {utc : DateTime}
    (howner : validateOwnerId f.ownerId = .ok o)
    (hat : ensureAware f.createdAt "created_at" = .ok utc) (hne : f.sourceId ≠ f.targetId) :
    ∃ r, Relation.make f = .ok r := by
  have hf : f.postInit = .ok f := by
    simp only [RelationFields.postInit, except_bind_ok, except_pure_ok, raiseIf_except_ok]
    exact ⟨o, howner, utc, hat, (), by simpa using hne, trivial⟩
  exact ⟨⟨f, hf⟩, construct_ok.mpr ⟨f, hf, hf, rfl⟩⟩

/-! ## Running the update -/

section Running

variable {svc : MemoryApplicationService R} {c : UpdateMemoryCommand R} {s : InMemoryStore R}
  {a : Memory R} {x : UUID}

/-- The memory is current at its own version. -/
theorem currentAt_run {o : String} {t : Option String} {i : UUID} {m : Memory R}
    (h : s.lookup o i t = some m) (message : Memory R → String) :
    (currentAt (inMemoryUnitOfWork R) o t i m.version message).run s = .ok (m, s) := by
  have hget : ((inMemoryUnitOfWork R).memories.get o i t).run s = .ok (some m, s) := by
    show Except.ok (s.lookup o i t, s) = _
    rw [h]
  unfold currentAt
  rw [Txn.run_bind_of_ok hget]
  dsimp only
  rw [Txn.run_bind_of_ok (a := ()) (raiseIf_ok.mpr ⟨by simp, rfl⟩)]
  rfl

omit [Python R] in
/-- A clock that knows its zone is read. -/
theorem now_run {n : Nat} {utc : DateTime} (h : ensureAware (svc.clock n) "now" = .ok utc)
    {σ : Type} (s : σ) : (svc.now n : Txn σ PyError DateTime).run s = .ok (utc, s) :=
  Txn.ofExcept_ok.mpr ⟨h, rfl⟩

/-- The checks of the related memory pass when it is another live one. -/
theorem checkRelated_run {o : String} {m : Memory R} {relationType : RelationType}
    (hne : x ≠ m.id) (hlive : (s.lookup o x none).isSome) :
    (checkRelated (inMemoryUnitOfWork R) o m (some (relationType, x))).run s = .ok ((), s) := by
  unfold checkRelated
  rw [Txn.run_bind_of_ok (a := ()) (raiseIf_ok.mpr ⟨by simpa using hne, rfl⟩),
    Txn.run_bind_of_ok (show _ = Except.ok (s.lookup o x none, s) from rfl)]
  exact raiseIf_ok.mpr ⟨by simpa [Option.isSome_iff_ne_none] using hlive, rfl⟩

/-- The update of the unit of work replaces the version and appends the snapshot. -/
theorem update_run {m m' : Memory R} {history : List (MemoryVersion R)}
    (hlive : s.memories.get? m'.id = some m) (howner : m.ownerId = m'.ownerId)
    (hhistory : s.historyByMemory.get? m'.id = some history) (snapshot : MemoryVersion R)
    (vector : List R) :
    ((inMemoryUnitOfWork R).memories.update m' m.version snapshot vector).run s
      = .ok (m', s.putVersion m' history snapshot vector) := by
  show InMemoryMemoryRepository.update m' m.version snapshot vector s = _
  unfold InMemoryMemoryRepository.update
  simp [hlive, howner, hhistory]

theorem storeRelation_run {o : String} {source : UUID} {relationType : RelationType}
    {at_ : DateTime} {r : Relation} (hnow : ensureAware (svc.clock 1) "now" = .ok at_)
    (hr : Relation.make { sourceId := source, targetId := x, relationType := relationType,
                          ownerId := o, createdAt := at_ } = .ok r)
    (hable : s.Relatable r) :
    (svc.storeRelation (inMemoryUnitOfWork R) o source (some (relationType, x))).run s
      = .ok ((), s.addRelation r) := by
  obtain ⟨m, hm⟩ := Option.isSome_iff_exists.mp hable.source
  obtain ⟨m', hm'⟩ := Option.isSome_iff_exists.mp hable.target
  have hadd : (InMemoryMemoryRepository.addRelation r).run s = .ok (r, s.addRelation r) := by
    show InMemoryMemoryRepository.addRelation r s = _
    unfold InMemoryMemoryRepository.addRelation
    have hnew := (Dict.contains_eq_false_iff _ _).mpr hable.new
    simp only [hm, hm', hnew]
    rfl
  unfold storeRelation
  dsimp only
  rw [Txn.run_bind_of_ok (now_run hnow s),
    Txn.run_bind_of_ok (Txn.ofExcept_ok.mpr ⟨hr, rfl⟩)]
  exact (Txn.run_bind_of_ok hadd).trans rfl

/-- The body goes through: a new version that is contradicted, then the relation. -/
theorem updateBody_contradicts (hcase : Contradictable s c a x) (hid : a.id = c.memoryId)
    (hhistory : s.historyByMemory.contains a.id = true) (hpatch : c.ValidPatch)
    (hworks : svc.Works) (hclock : svc.ClockedAfter a)
    (hnew : s.relations.get? (c.ownerId, c.memoryId, x, .contradicts) = none) :
    ∃ r s', (svc.updateBody (inMemoryUnitOfWork R) c).run s = .ok (r, s') ∧
      IsContradicted s' c.ownerId c.memoryId x ∧
      s'.idempotencyOperations = s.idempotencyOperations := by
  obtain ⟨t₀, hnow, hafter⟩ := hclock.first
  obtain ⟨t₁, hnow₁⟩ := hclock.second
  obtain ⟨d, hd⟩ := hworks.descriptor
  obtain ⟨hget, howner, -⟩ := lookup_eq_some.mp hcase.live
  have hrel := requestedRelation_of_names hpatch.supersedes hcase.names
  have hutc : ensureAware t₀ "now" = .ok t₀ := ensureAware_idem hnow
  obtain ⟨m', hm'⟩ := evolve_contradicted (d := d) hpatch hcase.names hcase.inUse hutc hafter
  have hev := Memory.evolve_ok hm'
  have hid' : m'.id = c.memoryId := hev.identity.id.trans hid
  have howner' : m'.ownerId = c.ownerId := hev.identity.ownerId.trans howner
  obtain ⟨vector, hvector, hdim⟩ :=
    hworks.embeds (if m'.content ≠ a.content then m'.content else a.content)
  obtain ⟨history, hhistory⟩ := (Dict.contains_iff _ _).mp hhistory
  -- the relation of the contradiction
  obtain ⟨o, ho⟩ : ∃ o, validateOwnerId c.ownerId = .ok o := howner ▸ a.validOwner
  obtain ⟨r, hr⟩ : ∃ r, Relation.make
      { sourceId := m'.id, targetId := x, relationType := .contradicts,
        ownerId := c.ownerId, createdAt := t₁ } = .ok r :=
    Relation.exists_make ho (ensureAware_idem hnow₁) (by rw [hid']; exact hcase.other.symm)
  have hfields := Relation.make_ok hr
  obtain ⟨other, hother⟩ := Option.isSome_iff_exists.mp hcase.liveOther
  obtain ⟨hgetx, hownerx, -⟩ := lookup_eq_some.mp hother
  have hself : (s.putVersion m' history (m'.snapshot c.changeReason) vector).lookup
      c.ownerId c.memoryId none = some m' :=
    lookup_eq_some.mpr ⟨by rw [← hid']; exact Dict.get?_set_self _ _ _, howner', .inl rfl⟩
  have hable :
      (s.putVersion m' history (m'.snapshot c.changeReason) vector).Relatable r := by
    have hkey : r.key = (c.ownerId, c.memoryId, x, .contradicts) := by
      simp [Relation.key, hfields, hid']
    refine ⟨?_, ?_, by rw [hkey]; exact hnew⟩
    · rw [hfields]
      dsimp only
      rw [hid', hself]
      rfl
    · rw [hfields]
      refine Option.isSome_iff_exists.mpr ⟨other, lookup_eq_some.mpr ⟨?_, hownerx, .inl rfl⟩⟩
      exact (Dict.get?_set_of_ne _ _ (by rw [hid']; exact hcase.other)).trans hgetx
  refine ⟨m', (s.putVersion m' history (m'.snapshot c.changeReason) vector).addRelation r, ?_,
    ⟨⟨m', hself, ?_⟩, ?_⟩, rfl⟩
  · unfold updateBody
    rw [hrel, ← hcase.version, Txn.run_bind_of_ok (currentAt_run hcase.live _),
      Txn.run_bind_of_ok (now_run hnow s),
      Txn.run_bind_of_ok (a := ()) (raiseIf_ok.mpr ⟨by simp [hpatch.supersedes], rfl⟩),
      Txn.run_bind_of_ok (checkRelated_run (by rw [hid]; exact hcase.other) hcase.liveOther),
      Txn.run_bind_of_ok (Txn.ofExcept_ok.mpr ⟨hd, rfl⟩),
      Txn.run_bind_of_ok (Txn.ofExcept_ok.mpr ⟨hm', rfl⟩),
      Txn.run_bind_of_ok (embedChecked_run hvector hdim s),
      Txn.run_bind_of_ok (update_run (by rw [hid']; exact hget) (howner.trans howner'.symm)
        (by rw [hev.identity.id]; exact hhistory) _ _),
      Txn.run_bind_of_ok (storeRelation_run hnow₁ hr hable)]
    rfl
  · rw [hev.state]
    simp [updateArgs, requestedState, hrel]
  · have hkey : r.key = (c.ownerId, c.memoryId, x, .contradicts) := by
      simp [Relation.key, hfields, hid']
    rw [← hkey]
    exact Option.isSome_iff_exists.mpr ⟨r, Dict.get?_set_self _ _ _⟩

/-- A body that goes through found the relation absent, and the clock reading on. -/
theorem updateBody_contradicted {r : Memory R} {s' : InMemoryStore R}
    (hcase : Contradictable s c a x) (hpatch : c.ValidPatch) (hid : a.id = c.memoryId)
    (h : (svc.updateBody (inMemoryUnitOfWork R) c).run s = .ok (r, s')) :
    svc.ClockedAfter a ∧ s.relations.get? (c.ownerId, c.memoryId, x, .contradicts) = none := by
  have hrel := requestedRelation_of_names hpatch.supersedes hcase.names
  simp only [updateBody, hrel, storeRelation, Txn.bind_ok, Txn.ofExcept_ok, Txn.pure_ok,
    raiseIf_ok] at h
  -- the body, statement by statement
  obtain ⟨m, _, hcur, t₀, _, hread, _, _, ⟨-, rfl⟩, _, _, hchecked, d, _, ⟨-, rfl⟩, m', _,
    ⟨hevolve, rfl⟩, vector, _, hvec, persisted, s₁, hupd, _, _,
    ⟨t₁, _, hread₁, r', _, ⟨hr, rfl⟩, _, _, hadd, -, rfl⟩, -, rfl⟩ := h
  obtain ⟨hlive, -, rfl⟩ := currentAt_ok hcur
  rw [hcase.live] at hlive
  cases hlive
  obtain ⟨hnow, rfl⟩ := now_ok hread
  obtain ⟨rfl, -⟩ := checkRelated_ok hchecked
  obtain ⟨-, -, rfl⟩ := embedChecked_ok hvec
  obtain ⟨rfl, _, _, -, -, -, -, rfl⟩ := InMemoryMemoryRepository.update_ok hupd
  obtain ⟨hnow₁, rfl⟩ := now_ok hread₁
  obtain ⟨-, hable, -⟩ := InMemoryMemoryRepository.addRelation_ok hadd
  refine ⟨⟨?_, t₁, hnow₁⟩, ?_⟩
  -- the first reading of the clock is that of the new version
  · obtain ⟨t, ht, hafter⟩ := evolve_after hevolve
    rw [show ensureAware (updateArgs c t₀ d).now "now" = .ok t₀ from ensureAware_idem hnow] at ht
    cases ht
    exact ⟨t₀, hnow, hafter⟩
  -- the relation is new under its key
  · have hid' := (Memory.evolve_ok hevolve).identity.id
    have hkey : r'.key = (c.ownerId, c.memoryId, x, .contradicts) := by
      simp [Relation.key, Relation.make_ok hr, hid', hid]
    rw [← hkey]
    exact hable.new

/-- The ledger does not bear on what may be contradicted. -/
theorem Contradictable.record (h : Contradictable s c a x) (key : OperationKey)
    (entry : StoredIdempotencyOperation) : Contradictable (s.record key entry) c a x :=
  ⟨h.live, h.inUse, h.version, h.names, h.other, h.liveOther⟩

/-- A new key is claimed: its entry is in progress. -/
theorem claim_run {o k : String} (fp : String)
    (hnew : s.idempotencyOperations.get? (o, .update, k) = none) :
    ((inMemoryUnitOfWork R).idempotency.claim o .update k fp).run s
      = .ok ({ ownerId := o, operationType := .update, idempotencyKey := k, fingerprint := fp,
               replay := false }, s.record (o, .update, k) { fingerprint := fp }) := by
  show InMemoryIdempotencyRepository.claim o .update k fp s = _
  unfold InMemoryIdempotencyRepository.claim
  simp only [hnew]
  rfl

/-- A claimed operation can be completed. -/
theorem complete_run (claim : IdempotencyClaim)
    (hclaimed : s.idempotencyOperations.get?
      (claim.ownerId, claim.operationType, claim.idempotencyKey)
        = some { fingerprint := claim.fingerprint })
    (i : Option UUID) (v : Option Int) (st : String) :
    ∃ entry, ((inMemoryUnitOfWork R).idempotency.complete claim i v st).run s
      = .ok ((), s.record (claim.ownerId, claim.operationType, claim.idempotencyKey) entry) := by
  refine ⟨{ fingerprint := claim.fingerprint, status := .completed, memoryId := i,
            resultVersion := v, resultStatus := some st }, ?_⟩
  show InMemoryIdempotencyRepository.complete claim i v st s = _
  unfold InMemoryIdempotencyRepository.complete
  simp only [hclaimed, ne_eq, not_true_eq_false, if_false, reduceCtorEq]
  rfl

/-- Under a new key, or none, an update that succeeds has run its body. -/
theorem update_ran {r : Memory R} {s' : InMemoryStore R} (hfresh : c.FreshKey s)
    (h : (svc.update (inMemoryUnitOfWork R) c).run s = .ok (r, s')) :
    ∃ s₀ s₁, (s₀ = s ∨ ∃ key entry, s₀ = s.record key entry) ∧
      (svc.updateBody (inMemoryUnitOfWork R) c).run s₀ = .ok (r, s₁) := by
  simp only [update, Txn.bind_ok, Txn.ofExcept_ok] at h
  obtain ⟨_, _, ⟨-, rfl⟩, h⟩ := h
  cases hkey : truthyKey c.idempotencyKey with
  | none =>
    rw [hkey] at h
    exact ⟨_, _, .inl rfl, h⟩
  | some k =>
    rw [hkey] at h
    dsimp only at h
    rw [Txn.run_bind_of_ok (claim_run _ (hfresh k hkey))] at h
    simp only [Bool.false_eq_true, if_false, Txn.bind_ok, Txn.pure_ok] at h
    obtain ⟨persisted, s₁, hbody, _, _, -, rfl, -⟩ := h
    exact ⟨_, _, .inr ⟨_, _, rfl⟩, hbody⟩

/-- The update goes through exactly when the pair is not related so yet, and the clock has not
gone back behind the creation of the memory. -/
theorem contradiction_goes_through_iff (hreach : Reachable s) (hcase : Contradictable s c a x)
    (hpatch : c.ValidPatch) (hfresh : c.FreshKey s) (hworks : svc.Works) :
    (∃ r s', ((Request.update c).exec svc).run s = .ok (.memory r, s') ∧
      IsContradicted s' c.ownerId c.memoryId x) ↔
    svc.ClockedAfter a ∧ s.relations.get? (c.ownerId, c.memoryId, x, .contradicts) = none := by
  obtain ⟨hget, howner, -⟩ := lookup_eq_some.mp hcase.live
  have hid : a.id = c.memoryId := hreach.inv.keyed _ _ hget
  constructor
  · rintro ⟨r, s', h, -⟩
    obtain ⟨r', hr, -⟩ := Txn.map_ok.mp h
    -- with a key or without, the body has run
    obtain ⟨s₀, s₁, rfl | ⟨key, entry, rfl⟩, hbody⟩ := update_ran hfresh hr
    · exact updateBody_contradicted hcase hpatch hid hbody
    · have hran := updateBody_contradicted (hcase.record key entry) hpatch hid hbody
      exact hran
  · rintro ⟨hclock, hnew⟩
    have hhistory : s.historyByMemory.contains a.id = true := by
      rw [hreach.inv.histories, hid]
      exact (Dict.contains_iff _ _).mpr ⟨a, hget⟩
    obtain ⟨o, ho⟩ : ∃ o, validateOwnerId c.ownerId = .ok o := howner ▸ a.validOwner
    -- without a key the body is all there is
    cases hkey : truthyKey c.idempotencyKey with
    | none =>
      obtain ⟨r, s', hbody, hdone, -⟩ :=
        updateBody_contradicts hcase hid hhistory hpatch hworks hclock hnew
      refine ⟨r, s', Txn.map_ok.mpr ⟨r, ?_, rfl⟩, hdone⟩
      unfold update
      rw [Txn.run_bind_of_ok (Txn.ofExcept_ok.mpr ⟨ho, rfl⟩), hkey]
      exact hbody
    -- with one, the claim comes before it and is completed after it
    | some k =>
      obtain ⟨r, s', hbody, hdone, hops⟩ :=
        updateBody_contradicts (hcase.record (c.ownerId, .update, k)
          { fingerprint := fingerprintUpdateCommand c }) hid hhistory hpatch hworks hclock hnew
      obtain ⟨entry, hcomplete⟩ := complete_run
        { ownerId := c.ownerId, operationType := .update, idempotencyKey := k,
          fingerprint := fingerprintUpdateCommand c, replay := false }
        (by rw [hops]; exact get?_record _ _ _) (some r.id) (some r.version) "updated"
      refine ⟨r, s'.record (c.ownerId, .update, k) entry, Txn.map_ok.mpr ⟨r, ?_, rfl⟩, hdone⟩
      unfold update
      rw [Txn.run_bind_of_ok (Txn.ofExcept_ok.mpr ⟨ho, rfl⟩), hkey]
      dsimp only
      rw [Txn.run_bind_of_ok (claim_run _ (hfresh k hkey))]
      simp only [Bool.false_eq_true, if_false]
      rw [Txn.run_bind_of_ok hbody, Txn.run_bind_of_ok hcomplete]
      rfl

end Running

/-! ## One pair, contradicted twice -/

/-- A second note of the same owner, a day later. -/
def sixNote : Call ℚ where
  service := serviceOn 2 9
  request := .write (noteCommand "alice" "tea at six" (some "k2") none)

def twoNotes : InMemoryStore ℚ := (sixNote.attempt (firstNote.attempt {}).2).2

/-- The second note contradicts the first. -/
def contradictFirst (expectedVersion : Int) (idempotencyKey : String) :
    UpdateMemoryCommand ℚ where
  ownerId := "alice"
  memoryId := ⟨7⟩
  expectedVersion := expectedVersion
  contradictsMemoryId := some ⟨9⟩
  idempotencyKey := some idempotencyKey

/-- New evidence for the first note. -/
def reactivateFirst : UpdateMemoryCommand ℚ where
  ownerId := "alice"
  memoryId := ⟨7⟩
  expectedVersion := 2
  state := some .active

/-- The first note was contradicted and is active again. -/
def reactivated : InMemoryStore ℚ :=
  (Call.attempt ⟨serviceOn 4 11, .update reactivateFirst⟩
    (Call.attempt ⟨serviceOn 3 10, .update (contradictFirst 1 "u1")⟩ twoNotes).2).2

theorem reachable_twoNotes : Reachable twoNotes := by
  have hfirst : Reachable (firstNote.attempt {}).2 :=
    .single ⟨firstNote, fun _ => ⟨rfl, fun _ _ h => by simp at h⟩, trivial, rfl⟩
  refine hfirst.tail ⟨sixNote, fun _ => fresh_of_no_tombstone (by decide +kernel) ?_, trivial, rfl⟩
  decide +kernel

theorem reachable_reactivated : Reachable reactivated := by
  have hcontradicted := reachable_twoNotes.tail
    ⟨⟨serviceOn 3 10, .update (contradictFirst 1 "u1")⟩, fun h => absurd h (by decide), trivial, rfl⟩
  exact hcontradicted.tail
    ⟨⟨serviceOn 4 11, .update reactivateFirst⟩, fun h => absurd h (by decide), trivial, rfl⟩

theorem validPatch_contradictFirst (v : Int) (k : String) : (contradictFirst v k).ValidPatch where
  content _ h := by cases h
  importance _ h := by cases h
  confidence _ h := by cases h
  occurredAt _ h := by cases h
  space _ h := by cases h
  changeReason := by
    show isBlank "updated" = false
    decide
  supersedes := rfl

theorem works_serviceOn (n : Fin 365) (id : Nat) : (serviceOn n id).Works where
  descriptor := by
    refine ⟨hashDescriptor, ?_⟩
    show hashProvider.profile.descriptor = _
    decide +kernel
  embeds _ := ⟨[1], rfl, rfl⟩

theorem contradiction_goes_through_iff_twoNotes :
    ∃ r s', ((Request.update (contradictFirst 1 "u1")).exec (serviceOn 3 10)).run twoNotes
      = .ok (.memory r, s') ∧ IsContradicted s' "alice" ⟨7⟩ ⟨9⟩ := by
  -- the two notes, as they are stored
  have hnotes : (twoNotes.lookup "alice" ⟨7⟩ none).map
        (fun m => (m.state, m.version, m.createdAt)) = some (.active, 1, day2026 1) ∧
      (twoNotes.lookup "alice" ⟨9⟩ none).isSome ∧
      twoNotes.idempotencyOperations.get? ("alice", .update, "u1") = none ∧
      twoNotes.relations.get? ("alice", ⟨7⟩, ⟨9⟩, .contradicts) = none := by
    decide +kernel
  obtain ⟨hread, hother, hkey, hnew⟩ := hnotes
  obtain ⟨a, ha, heq⟩ := Option.map_eq_some_iff.mp hread
  obtain ⟨hstate, hversion, hcreated⟩ : a.state = .active ∧ a.version = 1 ∧
      a.createdAt = day2026 1 := by simpa using heq
  have hcase : Contradictable twoNotes (contradictFirst 1 "u1") a ⟨9⟩ :=
    ⟨ha, by rw [hstate]; decide, hversion, rfl, by decide, hother⟩
  have hfresh : (contradictFirst 1 "u1").FreshKey twoNotes := by
    intro k hk
    obtain ⟨⟨⟩, -⟩ := truthyKey_eq_some.mp hk
    exact hkey
  refine (contradiction_goes_through_iff reachable_twoNotes hcase
    (validPatch_contradictFirst _ _) hfresh (works_serviceOn 3 10)).mpr ⟨⟨?_, ?_⟩, ?_⟩
  · refine ⟨day2026 3, ensureAware_utc rfl _, fun created h => ?_⟩
    rw [hcreated, ensureAware_utc rfl] at h
    cases h
    decide
  · exact ⟨day2026 3, ensureAware_utc rfl _⟩
  · exact hnew

/-- The first note is active and at the version the caller names, yet the second note cannot
contradict it again: the relation of the first time is still stored. -/
theorem contradicted_once_only : Reachable reactivated ∧
    (∃ a, Contradictable reactivated (contradictFirst 3 "u2") a ⟨9⟩) ∧
    (contradictFirst 3 "u2").ValidPatch ∧ (contradictFirst 3 "u2").FreshKey reactivated ∧
    (serviceOn 5 12).Works ∧
    (Call.attempt ⟨serviceOn 5 12, .update (contradictFirst 3 "u2")⟩ reactivated).1
      = .error (.omp .relationConflictError "relation already exists") := by
  have hnotes : (reactivated.lookup "alice" ⟨7⟩ none).map (fun m => (m.state, m.version))
        = some (.active, 3) ∧
      (reactivated.lookup "alice" ⟨9⟩ none).isSome ∧
      reactivated.idempotencyOperations.get? ("alice", .update, "u2") = none ∧
      (Call.attempt ⟨serviceOn 5 12, .update (contradictFirst 3 "u2")⟩ reactivated).1
        = .error (.omp .relationConflictError "relation already exists") := by decide +kernel
  obtain ⟨hread, hother, hkey, hrefused⟩ := hnotes
  refine ⟨reachable_reactivated, ?_, validPatch_contradictFirst _ _, ?_, works_serviceOn 5 12,
    hrefused⟩
  · obtain ⟨a, ha, heq⟩ := Option.map_eq_some_iff.mp hread
    obtain ⟨hstate, hversion⟩ : a.state = .active ∧ a.version = 3 := by simpa using heq
    exact ⟨a, ha, by rw [hstate]; decide, hversion, rfl, by decide, hother⟩
  · intro k hk
    obtain ⟨⟨⟩, -⟩ := truthyKey_eq_some.mp hk
    exact hkey

end OpenMemory
