import OpenMemory.Mcp.Contract
import OpenMemory.Store.Migration

/-!
# Updates that are committed and refused

`UpdateRequest.Admissible` collects what `update` asks of a request and of the memory that it is
about: an owner, an origin and a space that the domain takes, the expected version, a transition of
the lifecycle, a clock that reads on, and a provider that embeds the new text. Contents and numbers
do not occur in it, since the schema has checked them. `update_commits_iff` says that nothing else
is asked.

An error envelope hides an effect exactly if the update is admissible and the patch leaves something
that v0 cannot represent (`Overruns`, `failure_unchanged_iff`).
-/

namespace OpenMemory.Mcp

open Lib MemoryApplicationService InMemoryStore

variable {R : Type} [Python R] {Arguments : Type}

/-! ## What an update asks for -/

/-- The profile has a descriptor, and the provider embeds the text to a vector of its dimension. -/
structure Embeds (svc : MemoryApplicationService R) (text : String) : Prop where
  descriptor : ∃ d, svc.embeddingProvider.profile.descriptor = .ok d
  vector : ∃ v, svc.embeddingProvider.embed text false = .ok v ∧
    (v.length : Int) = svc.embeddingProvider.profile.dimension

/-- The content that an update of the memory leads to. -/
def UpdateRequest.contentOf (request : UpdateRequest R) (m : Memory R) : String :=
  collapse ((request.patch.content.map fun text => text.val.val).getD m.content)

/-- The lifecycle allows the move. No relation comes with a v0 update, so it cannot enter a state
that needs one. -/
def MayMove (source target : MemoryState) : Prop :=
  target = source ∨ target ∈ Memory.allowed source ∧ ¬(target = .superseded ∨ target = .contradicted)

instance (source target : MemoryState) : Decidable (MayMove source target) :=
  inferInstanceAs (Decidable (_ ∨ _ ∧ ¬(_ ∨ _)))

/-- The body of an update can store a new version of the memory. -/
structure UpdateRequest.Storable (svc : MemoryApplicationService R) (request : UpdateRequest R)
    (m : Memory R) : Prop where
  version : m.version = request.expectedVersion.val
  move : MayMove m.state (request.target m)
  space : ∀ text ∈ request.patch.space, isBlank text.val = false
  clock : ∃ t, ensureAware (svc.clock 0) "now" = .ok t ∧ m.ReadAfter t
  embeds : Embeds svc (request.contentOf m)

/-- What `update` asks of a request that the schema accepts, and of the memory it is about. -/
structure UpdateRequest.Admissible (svc : MemoryApplicationService R) (request : UpdateRequest R)
    (m : Memory R) : Prop extends request.Storable svc m where
  provenance : ∀ p ∈ request.patch.provenance.or request.provenance, p.Fits
  owner : isBlank request.ownerId.val = false

theorem mayMove_iff {m : Memory R} {target : MemoryState} :
    m.assertTransition target none = .ok () ↔ MayMove m.state target := by
  unfold Memory.assertTransition MayMove
  by_cases hsame : target = m.state
  · rw [if_pos hsame]
    exact iff_of_true rfl (.inl hsame)
  · rw [if_neg hsame, or_iff_right hsame]
    simp only [except_bind_ok, raiseIf_except_ok]
    simp

section Commits

variable {svc : MemoryApplicationService R} {request : UpdateRequest R}
  {command : UpdateMemoryCommand R} {s : InMemoryStore R} {m : Memory R}

/-- A memory evolves by an update exactly if the lifecycle lets it, the clock reads on and a patched
space has a name. -/
theorem exists_evolve_iff {a : Memory.EvolveArgs R} {at_ : DateTime} (h : Evolves request a)
    (hnow : ensureAware a.now "now" = .ok at_) :
    (∃ m', m.evolve a = .ok m') ↔ MayMove m.state (request.target m) ∧ m.ReadAfter at_ ∧
      ∀ text ∈ request.patch.space, isBlank text.val = false := by
  have htarget : a.state.getD m.state = request.target m := by
    rw [h.state]
    rfl
  have hoccurred : ∀ at_ ∈ a.occurredAt.getD m.occurredAt,
      ∃ utc, ensureAware at_ "occurred_at" = .ok utc := by
    rw [h.occurredAt]
    exact m.timed.occurred
  have hmove : m.assertTransition (a.state.getD m.state) a.relatedMemoryId = .ok () ↔
      MayMove m.state (request.target m) := by
    rw [htarget, h.relatedMemoryId]
    exact mayMove_iff
  constructor
  · rintro ⟨m', hm'⟩
    obtain ⟨t, ht, hafter⟩ := evolve_after hm'
    obtain rfl := Except.ok.inj (hnow.symm.trans ht)
    have hallowed := hm'
    simp only [Memory.evolve, except_bind_ok] at hallowed
    obtain ⟨_, hallowed, -⟩ := hallowed
    exact ⟨hmove.mp hallowed, hafter, h.meets_iff.mp
      ((Memory.demands_evolve hallowed hnow hafter hoccurred).ok_iff.mp ⟨m', hm'⟩)⟩
  · rintro ⟨hallowed, hafter, hspace⟩
    exact (Memory.demands_evolve (hmove.mpr hallowed) hnow hafter hoccurred).passes
      (h.meets_iff.mpr hspace)

/-- The text that is embedded is the new content, whether or not it has changed. -/
theorem content_evolved {a : Memory.EvolveArgs R} {m' : Memory R} (h : Evolves request a)
    (hm' : m.evolve a = .ok m') :
    (if m'.content ≠ m.content then m'.content else m.content) = request.contentOf m := by
  have hcontent : m'.content = request.contentOf m := by
    rw [(Memory.evolve_ok hm').content, h.content]
    rfl
  rw [← hcontent]
  split
  · rfl
  · rename_i hsame
    exact (not_not.mp hsame).symm

/-- A body that goes through has found all of it. -/
theorem storable_of_updateBody {r : Memory R} {s' : InMemoryStore R}
    (hcommand : updateCommand request = .ok command)
    (hlive : s.lookup command.ownerId command.memoryId none = some m)
    (h : (svc.updateBody (inMemoryUnitOfWork R) command).run s = .ok (r, s')) :
    request.Storable svc m := by
  have hrel := (updateCommand_ok hcommand).relation
  obtain ⟨-, hexpected⟩ := updateCommand_names hcommand
  simp only [updateBody, hrel, storeRelation, checkRelated, Txn.bind_ok, Txn.ofExcept_ok,
    Txn.pure_ok, raiseIf_ok] at h
  obtain ⟨current, _, hcur, t, _, hread, _, _, ⟨-, rfl⟩, _, _, ⟨-, rfl⟩, d, _, ⟨hd, rfl⟩,
    updated, _, ⟨hevolve, rfl⟩, vector, _, hvector, -⟩ := h
  obtain ⟨hcurrent, hversion, rfl⟩ := currentAt_ok hcur
  obtain rfl : m = current := Option.some.inj (hlive.symm.trans hcurrent)
  obtain ⟨hnow, rfl⟩ := now_ok hread
  obtain ⟨hembed, hdim, -⟩ := embedChecked_ok hvector
  have hevolves := evolves_updateArgs hcommand t d
  obtain ⟨hmove, hafter, hspace⟩ :=
    (exists_evolve_iff hevolves (ensureAware_idem hnow)).mp ⟨_, hevolve⟩
  rw [content_evolved hevolves hevolve] at hembed
  exact ⟨hversion.trans hexpected, hmove, hspace, ⟨t, hnow, hafter⟩, ⟨d, hd⟩, vector, hembed, hdim⟩

/-- Where all of it is there, the memory is found, evolved and stored as its new version. -/
theorem UpdateRequest.Storable.updateBody_run (h : request.Storable svc m)
    (hcommand : updateCommand request = .ok command)
    (hlive : s.lookup command.ownerId command.memoryId none = some m)
    (hkeyed : m.id = command.memoryId) (hhistory : s.historyByMemory.contains m.id = true) :
    ∃ r s', (svc.updateBody (inMemoryUnitOfWork R) command).run s = .ok (r, s') ∧
      s'.idempotencyOperations = s.idempotencyOperations := by
  have hrel := (updateCommand_ok hcommand).relation
  obtain ⟨-, hexpected⟩ := updateCommand_names hcommand
  obtain ⟨hget, -, -⟩ := lookup_eq_some.mp hlive
  obtain ⟨t, hnow, hafter⟩ := h.clock
  obtain ⟨⟨d, hd⟩, vector, hembed, hdim⟩ := h.embeds
  have hevolves := evolves_updateArgs hcommand t d
  obtain ⟨m', hm'⟩ := (exists_evolve_iff hevolves (ensureAware_idem hnow)).mpr
    ⟨h.move, hafter, h.space⟩
  have hid := (Memory.evolve_ok hm').identity
  obtain ⟨history, hhistory⟩ := (Dict.contains_iff _ _).mp hhistory
  rw [← content_evolved hevolves hm'] at hembed
  have hboth : (command.supersedesMemoryId.isSome && command.contradictsMemoryId.isSome)
      = false := by
    unfold requestedRelation at hrel
    split at hrel
    · cases hrel
    · cases hrel
    · rename_i hsupersedes _
      rw [hsupersedes]
      rfl
  have hunrelated : (checkRelated (inMemoryUnitOfWork R) command.ownerId m none).run s
      = .ok ((), s) := rfl
  refine ⟨m', s.putVersion m' history (m'.snapshot command.changeReason) vector, ?_, rfl⟩
  unfold updateBody
  rw [hrel, hexpected, ← h.version, Txn.run_bind_of_ok (currentAt_run hlive _),
    Txn.run_bind_of_ok (now_run hnow s),
    Txn.run_bind_of_ok (a := ()) (raiseIf_ok.mpr ⟨hboth, rfl⟩), Txn.run_bind_of_ok hunrelated,
    Txn.run_bind_of_ok (Txn.ofExcept_ok.mpr ⟨hd, rfl⟩),
    Txn.run_bind_of_ok (Txn.ofExcept_ok.mpr ⟨hm', rfl⟩),
    Txn.run_bind_of_ok (embedChecked_run hembed hdim s),
    Txn.run_bind_of_ok (update_run (by rw [hid.id, hkeyed]; exact hget) hid.ownerId.symm
      (by rw [hid.id]; exact hhistory) _ _)]
  rfl

/-- Its id and its origin make it a command. -/
theorem UpdateRequest.Admissible.exists_command (h : request.Admissible svc m) {id : UUID}
    (hid : Python.parseUuid R request.id.val = some id) :
    ∃ command, updateCommand request = .ok command :=
  (demands_updateCommand hid).passes h.provenance

/-- Under a new key, an update is committed exactly if it is admissible. -/
theorem update_commits_iff (hinv : Inv s) (hcommand : updateCommand request = .ok command)
    (hnew : s.idempotencyOperations.get? (ledgerKey request) = none)
    (hlive : s.lookup command.ownerId command.memoryId none = some m) :
    (∃ m' s', (svc.update (inMemoryUnitOfWork R) command).run s = .ok (m', s')) ↔
      request.Admissible svc m := by
  have hof := updateCommand_ok hcommand
  obtain ⟨hnamed, -⟩ := updateCommand_names hcommand
  obtain ⟨hget, -, -⟩ := lookup_eq_some.mp hlive
  have hid : m.id = command.memoryId := hinv.keyed _ _ hget
  have hhistory : s.historyByMemory.contains m.id = true := by
    rw [hinv.histories, hid]
    exact (Dict.contains_iff _ _).mpr ⟨m, hget⟩
  have hkey : s.idempotencyOperations.get?
      (command.ownerId, .update, request.idempotencyKey.val) = none := by
    rw [hof.ownerId]
    exact hnew
  have howner := demands_owner hof.ownerId
  -- the claim is entered in the ledger and leaves the memories as they are
  have hclaimed : (s.record (command.ownerId, .update, request.idempotencyKey.val)
      { fingerprint := fingerprintUpdateCommand command }).lookup command.ownerId
        command.memoryId none = some m := hlive
  constructor
  · rintro ⟨m', s', h⟩
    unfold update at h
    obtain ⟨_, _, hvalidated, h₁⟩ := Txn.bind_ok.mp h
    obtain ⟨hchecked, rfl⟩ := Txn.ofExcept_ok.mp hvalidated
    rw [hof.truthyKey] at h₁
    dsimp only at h₁
    rw [Txn.run_bind_of_ok (claim_run _ hkey), if_neg Bool.false_ne_true] at h₁
    obtain ⟨_, _, hran, -⟩ := Txn.bind_ok.mp h₁
    exact ⟨storable_of_updateBody hcommand hclaimed hran,
      (demands_updateCommand hnamed).ok_iff.mp ⟨command, hcommand⟩,
      howner.ok_iff.mp ⟨_, hchecked⟩⟩
  · intro h
    obtain ⟨owner, hchecked⟩ := howner.passes h.owner
    obtain ⟨m', s', hran, hledger⟩ := h.toStorable.updateBody_run hcommand hclaimed hid hhistory
    obtain ⟨entry, hcomplete⟩ := complete_run
      { ownerId := command.ownerId, operationType := .update
        idempotencyKey := request.idempotencyKey.val
        fingerprint := fingerprintUpdateCommand command, replay := false }
      (by rw [hledger]; exact get?_record _ _ _) (some m'.id) (some m'.version) "updated"
    refine ⟨m', s'.record (command.ownerId, .update, request.idempotencyKey.val) entry, ?_⟩
    unfold update
    rw [Txn.run_bind_of_ok (Txn.ofExcept_ok.mpr ⟨hchecked, rfl⟩), hof.truthyKey]
    dsimp only
    rw [Txn.run_bind_of_ok (claim_run _ hkey), if_neg Bool.false_ne_true,
      Txn.run_bind_of_ok hran, Txn.run_bind_of_ok hcomplete]
    rfl

end Commits

/-! ## Calls -/

/-- The call is an admissible update, the first under its key, of a memory of which the patch leaves
something that v0 cannot represent. -/
structure Overruns (adapter : MCPAdapter R Arguments) (name : String) (arguments : Arguments)
    (requestId : Option String) (s : InMemoryStore R) (request : UpdateRequest R) (id : UUID)
    (current : Memory R) : Prop where
  isUpdate : name = "memory.update"
  admitted : adapter.Admits requestId
  parsed : adapter.parse name arguments = .ok (.update request)
  named : Python.parseUuid R request.id.val = some id
  new : s.idempotencyOperations.get? (ledgerKey request) = none
  live : s.lookup request.ownerId.val id none = some current
  admissible : request.Admissible adapter.service current
  uncovered : ¬Covers request current

/-- Such an update is committed, and its response refused. -/
theorem Overruns.dispatch {adapter : MCPAdapter R Arguments} {name : String}
    {arguments : Arguments} {requestId : Option String} {s : InMemoryStore R}
    {request : UpdateRequest R} {id : UUID} {current : Memory R} (hinv : Inv s)
    (h : Overruns adapter name arguments requestId s request id current) :
    ∃ e s', adapter.dispatch (.update request) s = (.error e, s') ∧ s' ≠ s := by
  obtain ⟨command, hcommand⟩ := h.admissible.exists_command h.named
  have hof := updateCommand_ok hcommand
  obtain rfl : id = command.memoryId :=
    Option.some.inj (h.named.symm.trans (updateCommand_names hcommand).1)
  have hlive := h.live
  rw [← hof.ownerId] at hlive
  obtain ⟨m, s', hrun⟩ := (update_commits_iff hinv hcommand h.new hlive).mpr h.admissible
  rcases update_cases hof hrun with ⟨-, hknown⟩ | ⟨hne, -, current', hlive', hcovers⟩
  · exact absurd h.new hknown
  obtain rfl : current = current' := Option.some.inj (hlive.symm.trans hlive')
  have hdispatch := MCPAdapter.respond_ok
    (gatewayUpdate_ok.mpr ⟨command, m, hcommand, hrun, rfl⟩) fun memory => do
      let record ← MemoryRecord.modelValidate memory
      pure (.update record)
  cases hvalid : MemoryRecord.modelValidate (memoryDict m) with
  | ok r => exact absurd (hcovers.mp ⟨r, hvalid⟩) h.uncovered
  | error e =>
    rw [hvalid] at hdispatch
    exact ⟨e, s', hdispatch, hne⟩

/-- On a store that calls and the migration leave, an error envelope means that the call changed
nothing, if and only if the call is not an update that overruns v0. -/
theorem failure_unchanged_iff {s : InMemoryStore R} (hreach : s.MigratedReachable)
    (adapter : MCPAdapter R Arguments) (name : String) (arguments : Arguments)
    (requestId : Option String) :
    (∀ envelope s', adapter.callTool name arguments requestId s = (.ok envelope, s') →
      envelope.isFailure = true → s' = s) ↔
    ¬∃ request id current, Overruns adapter name arguments requestId s request id current := by
  constructor
  · rintro hunchanged ⟨request, id, current, hover⟩
    obtain ⟨e, s', hdispatch, hne⟩ := hover.dispatch hreach.inv
    obtain ⟨rid, hrid⟩ := hover.admitted.requestId
    have hknown : name ∈ tools := by
      rw [hover.isUpdate]
      decide
    have hcall := MCPAdapter.callTool_parsed hknown hover.admitted.allow hover.admitted.localMode
      hrid hover.parsed s
    rw [hdispatch] at hcall
    exact hne (hunchanged _ _ hcall rfl)
  · intro hnone envelope s' hcall hfailure
    rcases callTool_failure hcall hfailure with rfl | ⟨request, e, hadmits, hparse, hdispatch⟩
    · rfl
    rcases dispatch_error hdispatch with rfl | ⟨update, command, m, rfl, hcommand, hrun, hinvalid⟩
    · rfl
    have hof := updateCommand_ok hcommand
    rcases update_cases hof hrun with ⟨rfl, -⟩ | ⟨-, hnew, current, hlive, hcovers⟩
    · rfl
    · have hadmissible := (update_commits_iff hreach.inv hcommand hnew hlive).mp ⟨m, s', hrun⟩
      rw [hof.ownerId] at hlive
      exact absurd ⟨update, command.memoryId, current, name_of_parse hparse, hadmits, hparse,
        (updateCommand_names hcommand).1, hnew, hlive, hadmissible,
        fun h => hinvalid (hcovers.mpr h)⟩ hnone

/-- An answer that is known to be a failure or a success is an envelope. -/
theorem exists_envelope {answer : Except PyError (Envelope R)} {failed : Bool}
    (h : answer.toOption.map Envelope.isFailure = some failed) :
    ∃ envelope, answer = .ok envelope ∧ envelope.isFailure = failed := by
  cases answer with
  | error e => cases h
  | ok envelope => exact ⟨envelope, rfl, Option.some.inj h⟩

/-- An update of the note that v0 wrote at the wrong version reports the conflict, and the store is as
it was. -/
theorem failure_unchanged_iff_firstNote :
    ((adapterOn 3).callTool "memory.update" (.update raiseImportance) none
        (InMemoryStore.firstNote.attempt {}).2).1.toOption.map Envelope.isFailure = some true ∧
      ((adapterOn 3).callTool "memory.update" (.update raiseImportance) none
        (InMemoryStore.firstNote.attempt {}).2).2 = (InMemoryStore.firstNote.attempt {}).2 := by
  have hreach : MigratedReachable (InMemoryStore.firstNote.attempt {}).2 :=
    .single (.inl ⟨InMemoryStore.firstNote, fun _ => fresh_of_no_tombstone rfl rfl, trivial, rfl⟩)
  have hstored : ∀ e ∈ (InMemoryStore.firstNote.attempt {}).2.memories.items,
      V0Representable e.2 := by decide +kernel
  have hfailure : ((adapterOn 3).callTool "memory.update" (.update raiseImportance) none
      (InMemoryStore.firstNote.attempt {}).2).1.toOption.map Envelope.isFailure = some true := by
    decide +kernel
  refine ⟨hfailure, ?_⟩
  cases hcall : (adapterOn 3).callTool "memory.update" (.update raiseImportance) none
      (InMemoryStore.firstNote.attempt {}).2 with
  | mk answer s' =>
    rw [hcall] at hfailure
    obtain ⟨envelope, rfl, hfails⟩ := exists_envelope hfailure
    refine (failure_unchanged_iff hreach (adapterOn 3) "memory.update" _ none).mpr ?_
      envelope s' hcall hfails
    -- a note that v0 wrote fits v0 after any admissible patch
    rintro ⟨request, id, current, hover⟩
    obtain ⟨hget, -, -⟩ := lookup_eq_some.mp hover.live
    obtain ⟨htype, hstate, hcontent, hspace, horigin⟩ :=
      hstored (id, current) ((Dict.mem_items_iff _ _ _).mpr hget)
    exact hover.uncovered ⟨fun _ => htype, fun _ => hstate, fun _ => hcontent, fun _ => hspace,
      fun _ => horigin⟩

/-- Tenant `acme` captures a note of `alice`. -/
def deskCapture : Call ℚ where
  service := serviceOn 1 7
  request := .capture (captureCommand "acme" "alice" "tea at five" "k1")

/-- It is confirmed from the inbox. -/
def deskConfirm : Call ℚ where
  service := serviceOn 2 8
  request := .confirmCandidate
    { tenantId := "acme", ownerId := "alice", memoryId := ⟨7⟩, expectedVersion := 1,
      idempotencyKey := "c1" }

/-- The update of the confirmed note reports `validation_error`, and the note is at
version 3. -/
theorem update_commits_behind_failure :
    ¬∀ (adapter : MCPAdapter ℚ (TypedArguments ℚ)) (name : String)
      (arguments : TypedArguments ℚ) (requestId : Option String) (s : InMemoryStore ℚ),
      s.Reachable → ∀ envelope s',
      adapter.callTool name arguments requestId s = (.ok envelope, s') →
      envelope.isFailure = true → s' = s := by
  intro hclaim
  have hreach : InMemoryStore.Reachable (deskConfirm.attempt (deskCapture.attempt {}).2).2 :=
    .tail (.single ⟨deskCapture, fun _ => InMemoryStore.fresh_of_no_tombstone rfl rfl, trivial, rfl⟩)
      ⟨deskConfirm, nofun, trivial, rfl⟩
  generalize hs : (deskConfirm.attempt (deskCapture.attempt {}).2).2 = s at hreach
  have hversions : (s.memories.get? ⟨7⟩).map (fun m => m.version) = some 2 ∧
      (((adapterOn 3).callTool "memory.update" (.update raiseImportance) none s).2.memories.get?
        ⟨7⟩).map (fun m => m.version) = some 3 ∧
      ((adapterOn 3).callTool "memory.update" (.update raiseImportance) none s).1.toOption.map
        Envelope.isFailure = some true := by
    subst hs
    decide +kernel
  obtain ⟨hbefore, hafter, hfailure⟩ := hversions
  cases hcall : (adapterOn 3).callTool "memory.update" (.update raiseImportance) none s with
  | mk answer s' =>
    rw [hcall] at hafter hfailure
    obtain ⟨envelope, rfl, hfails⟩ := exists_envelope hfailure
    obtain rfl := hclaim _ _ _ _ s hreach envelope s' hcall hfails
    rw [hbefore] at hafter
    cases hafter

end OpenMemory.Mcp
