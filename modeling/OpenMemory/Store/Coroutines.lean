import OpenMemory.Application.Parametric
import OpenMemory.Application.Reference
import OpenMemory.Lib.Mutex
import OpenMemory.Store.Changes

/-!
# Calls as coroutines

The service calls over one in-memory store, interleaved at their awaits. A call is a program over
the pieces of repository methods that run without an `await` in between (`StoreOp`); it enters its
unit of work with `transaction_lock`, copies the seven maps, and on an exception or a cancellation
puts the copy back (`InMemoryUnitOfWork.__aenter__` and `__aexit__`), which are the moves of a
`TaskPool`.

The embedding calls are awaits too, between two pieces: a task that waits there has its next piece
still before it, and one that is cancelled there is cancelled before that piece. What the provider
returns to a call, or raises, belongs to the call, like its clock and its `uuid4()`.
`search` and `recall` check and embed before they enter; here they do so inside, where nothing of
the store is read yet.

Alone, the program of a call does what the call does in one transaction (`transact_program`), so
the general result about task pools is one about calls: `calls_serializable`.
-/

namespace OpenMemory

open Lib
open MonadExcept (ofExcept)

variable {R : Type} [Python R]

/-! ## Pieces of repository methods -/

/-- The pieces of the repository methods between their awaits. -/
inductive StoreOp (R : Type) [Python R]
  | get (ownerId : String) (memoryId : UUID) (tenantId : Option String)
  | readHistory (memoryId : UUID)
  | findByIdempotencyKey (ownerId idempotencyKey : String)
  | create (memory : Memory R) (fingerprint : String) (embedding : List R)
  | update (memory : Memory R) (expectedVersion : Int) (versionSnapshot : MemoryVersion R)
      (embedding : List R)
  | searchCandidates (ownerId : String) (tenantId : Option String) (queryEmbedding : List R)
      (profile : EmbeddingProfile) (filters : SearchFilters R) (limit : Int)
  | forget (ownerId : String) (memoryId : UUID) (tenantId : Option String)
  | listCandidates (ownerId : String) (tenantId : Option String) (space : Option String)
      (limit : Int)
  | putRelation (relation : Relation)
  | listRelations (ownerId : String) (memoryId : UUID)
  | claim (ownerId : String) (operationType : IdempotencyOperationType)
      (idempotencyKey fingerprint : String)
  | complete (claim : IdempotencyClaim) (memoryId : Option UUID) (resultVersion : Option Int)
      (resultStatus : String)
  | sortedMemories
  | readStored (ownerId : String) (memoryId : UUID) (idempotencyKey : Option String)
      (includeEmbeddings : Bool)
  | importMemories (records : List (MemoryRecordDto R))
  | isTombstoned (ownerId : String) (memoryId : UUID) (tenantId : Option String)

namespace StoreOp

/-- What a piece returns. -/
@[reducible] def Result : StoreOp R → Type
  | get _ _ _ => Option (Memory R)
  | readHistory _ => List (MemoryVersion R)
  | findByIdempotencyKey _ _ => Option (IdempotencyLookup R)
  | create _ _ _ => WriteMemoryResult R
  | update _ _ _ _ => Memory R
  | searchCandidates _ _ _ _ _ _ => List (MemorySearchCandidate R)
  | forget _ _ _ => Bool
  | listCandidates _ _ _ _ => List (Memory R)
  | putRelation _ => Relation
  | listRelations _ _ => List Relation
  | claim _ _ _ _ => IdempotencyClaim
  | complete _ _ _ _ => Unit
  | sortedMemories => List (Memory R)
  | readStored _ _ _ _ => Option String × Option (List R)
  | importMemories _ => ImportResult
  | isTombstoned _ _ _ => Bool

/-- What a piece does. -/
def txn : (q : StoreOp R) → StoreTxn R q.Result
  | get ownerId memoryId tenantId => InMemoryMemoryRepository.get ownerId memoryId tenantId
  | readHistory memoryId => fun s => .ok ((s.historyByMemory.get? memoryId).getD [], s)
  | findByIdempotencyKey ownerId idempotencyKey =>
    InMemoryMemoryRepository.findByIdempotencyKey ownerId idempotencyKey
  | create memory fingerprint embedding =>
    InMemoryMemoryRepository.create memory fingerprint embedding
  | update memory expectedVersion versionSnapshot embedding =>
    InMemoryMemoryRepository.update memory expectedVersion versionSnapshot embedding
  | searchCandidates ownerId tenantId queryEmbedding profile filters limit =>
    InMemoryMemoryRepository.searchCandidates ownerId tenantId queryEmbedding profile filters limit
  | forget ownerId memoryId tenantId => InMemoryMemoryRepository.forget ownerId memoryId tenantId
  | listCandidates ownerId tenantId space limit =>
    InMemoryMemoryRepository.listCandidates ownerId tenantId space limit
  | putRelation relation => fun s =>
    if s.relations.contains relation.key then
      .error (.omp .relationConflictError "relation already exists")
    else .ok (relation, { s with relations := s.relations.set relation.key relation })
  | listRelations ownerId memoryId => InMemoryMemoryRepository.listRelations ownerId memoryId
  | claim ownerId operationType idempotencyKey fingerprint =>
    InMemoryIdempotencyRepository.claim ownerId operationType idempotencyKey fingerprint
  | complete claimed memoryId resultVersion resultStatus =>
    InMemoryIdempotencyRepository.complete claimed memoryId resultVersion resultStatus
  | sortedMemories => fun s =>
    .ok (s.memories.values.insertionSort fun a b => a.id.str ≤ b.id.str, s)
  | readStored ownerId memoryId idempotencyKey includeEmbeddings => fun s =>
    .ok ((match idempotencyKey with
        | none => none
        | some key => s.fingerprints.get? (ownerId, key),
      if includeEmbeddings then s.vectors.get? memoryId else none), s)
  | importMemories records => InMemoryMemoryAdminRepository.importMemories records
  | isTombstoned ownerId memoryId tenantId =>
    InMemoryMemoryAdminRepository.isTombstoned ownerId memoryId tenantId

/-- A piece on the store. -/
def run (q : StoreOp R) (s : InMemoryStore R) : Except PyError q.Result × InMemoryStore R :=
  q.txn.attempt s

end StoreOp

/-- Programs of calls. -/
abbrev StoreProg (R : Type) [Python R] : Type → Type := Prog (StoreOp R) StoreOp.Result PyError

/-! ## Methods with awaits inside -/

namespace Awaiting

/-- Await one piece. -/
def piece (q : StoreOp R) : StoreProg R q.Result := Prog.statement q

/-- `get_version` awaits `get`. -/
def getVersion (ownerId : String) (memoryId : UUID) (version : Int) (tenantId : Option String) :
    StoreProg R (Option (Memory R)) := do
  let current : Option (Memory R) ← piece (.get ownerId memoryId tenantId)
  match current with
  | none => pure none
  | some current =>
    if current.version = version then pure (some current)
    else
      let history : List (MemoryVersion R) ← piece (.readHistory memoryId)
      match history.find? fun v => decide (v.version = version) with
      | none => pure none
      | some snapshot => some <$> ofExcept (current.rebuild snapshot)

/-- `add_relation` awaits `get` for both ends. -/
def addRelation (relation : Relation) : StoreProg R Relation := do
  let source : Option (Memory R) ← piece (.get relation.ownerId relation.sourceId none)
  let target : Option (Memory R) ← piece (.get relation.ownerId relation.targetId none)
  match source, target with
  | some _, some _ => piece (.putRelation relation)
  | _, _ => throw (.notFound "both related memories must exist for this owner")

/-- `history` awaits `get`. -/
def history (ownerId : String) (memoryId : UUID) : StoreProg R (List (MemoryVersion R)) := do
  let memory : Option (Memory R) ← piece (.get ownerId memoryId none)
  match memory with
  | none => throw (.notFound "memory was not found")
  | some _ => piece (.readHistory memoryId)

/-- `export_memory` awaits `get`, `list_relations` and `history`. -/
def exportMemory (ownerId : String) (memoryId : UUID) (includeEmbeddings : Bool) :
    StoreProg R (Option (MemoryRecordDto R)) := do
  let memory : Option (Memory R) ← piece (.get ownerId memoryId none)
  match memory with
  | none => pure none
  | some memory =>
    let relations : List Relation ← piece (.listRelations ownerId memoryId)
    let stored : Option String × Option (List R) ←
      piece (.readStored ownerId memoryId memory.idempotencyKey includeEmbeddings)
    let versions ← history ownerId memoryId
    pure (some
      { memory := memory, history := versions, relations := relations, embedding := stored.2
        writeFingerprint := stored.1 })

/-- The loop of `export_memories`. -/
def exportEach (ownerId : String) (includeEmbeddings : Bool) :
    List (Memory R) → StoreProg R (List (MemoryRecordDto R))
  | [] => pure []
  | memory :: rest => do
    if memory.ownerId ≠ ownerId then exportEach ownerId includeEmbeddings rest
    else
      let record ← exportMemory ownerId memory.id includeEmbeddings
      let more ← exportEach ownerId includeEmbeddings rest
      pure (record.toList ++ more)

/-- `export_memories` awaits `export_memory` for each memory. -/
def exportMemories (ownerId : String) (includeEmbeddings : Bool) :
    StoreProg R (List (MemoryRecordDto R)) := do
  let sorted : List (Memory R) ← piece .sortedMemories
  exportEach ownerId includeEmbeddings sorted

end Awaiting

open Awaiting in
/-- `InMemoryUnitOfWork`, with its awaits. -/
def awaitingUnitOfWork (R : Type) [Python R] : UnitOfWork (StoreProg R) R where
  memories :=
    { get := fun ownerId memoryId tenantId => piece (.get ownerId memoryId tenantId)
      getVersion := getVersion
      findByIdempotencyKey := fun ownerId key => piece (.findByIdempotencyKey ownerId key)
      create := fun memory fingerprint embedding => piece (.create memory fingerprint embedding)
      update := fun memory expectedVersion snapshot embedding =>
        piece (.update memory expectedVersion snapshot embedding)
      searchCandidates := fun ownerId tenantId query profile filters limit =>
        piece (.searchCandidates ownerId tenantId query profile filters limit)
      forget := fun ownerId memoryId tenantId => piece (.forget ownerId memoryId tenantId)
      listCandidates := fun ownerId tenantId space limit =>
        piece (.listCandidates ownerId tenantId space limit)
      addRelation := addRelation
      listRelations := fun ownerId memoryId => piece (.listRelations ownerId memoryId)
      history := history }
  idempotency :=
    { claim := fun ownerId operationType key fingerprint =>
        piece (.claim ownerId operationType key fingerprint)
      complete := fun claim memoryId version status =>
        piece (.complete claim memoryId version status) }
  admin :=
    { exportMemories := exportMemories
      exportMemory := exportMemory
      importMemories := fun records => piece (.importMemories records)
      isTombstoned := fun ownerId memoryId tenantId =>
        piece (.isTombstoned ownerId memoryId tenantId) }

/-! ## Alone, a method with awaits is one transaction -/

section Does

open Awaiting Prog

theorem does_piece (q : StoreOp R) : Does StoreOp.run (piece q) q.txn := by
  intro s
  constructor
  · intro a s' hrun
    show (done (q.run s).1).alone StoreOp.run (q.run s).2 = _
    rw [show q.run s = (.ok a, s') from Txn.attempt_ok.mpr hrun]
    rfl
  · intro e hrun
    show ((done (q.run s).1).alone StoreOp.run (q.run s).2).1 = _
    rw [show q.run s = (.error e, s) from Txn.attempt_error.mpr ⟨hrun, rfl⟩]
    rfl

theorem alone_piece (q : StoreOp R) (s : InMemoryStore R) :
    (piece q).alone StoreOp.run s = q.run s := rfl

/-- A program that leaves what the transaction leaves. -/
theorem does_of_attempt {α : Type} {p : StoreProg R α} {x : StoreTxn R α}
    (h : ∀ s, p.alone StoreOp.run s = x.attempt s) : Does StoreOp.run p x := by
  intro s
  rw [h s]
  constructor
  · intro a s' hrun
    exact Txn.attempt_ok.mpr hrun
  · intro e hrun
    rw [show x.attempt s = (.error e, s) from Txn.attempt_error.mpr ⟨hrun, rfl⟩]

theorem does_getVersion (o : String) (i : UUID) (v : Int) (t : Option String) :
    Does StoreOp.run (getVersion (R := R) o i v t) (InMemoryMemoryRepository.getVersion o i v t) := by
  refine does_of_attempt fun s => ?_
  have hget : (piece (.get o i t)).alone StoreOp.run s = (.ok (s.lookup o i t), s) := rfl
  have hhistory : (piece (.readHistory i)).alone StoreOp.run s =
      (.ok ((s.historyByMemory.get? i).getD []), s) := rfl
  unfold getVersion InMemoryMemoryRepository.getVersion Txn.attempt StateT.run
  rw [alone_bind, hget]
  dsimp only
  cases s.lookup o i t with
  | none => rfl
  | some current =>
    dsimp only
    split
    · rfl
    · rw [alone_bind, hhistory]
      dsimp only
      generalize ((s.historyByMemory.get? i).getD []).find? _ = found
      cases found with
      | none => rfl
      | some snapshot =>
        dsimp only
        cases current.rebuild snapshot <;> rfl

theorem does_addRelation (relation : Relation) :
    Does StoreOp.run (addRelation (R := R) relation)
      (InMemoryMemoryRepository.addRelation relation) := by
  refine does_of_attempt fun s => ?_
  have hget : ∀ i, (piece (.get relation.ownerId i none)).alone StoreOp.run s =
      (.ok (s.lookup relation.ownerId i none), s) := fun _ => rfl
  unfold addRelation InMemoryMemoryRepository.addRelation Txn.attempt StateT.run
  rw [alone_bind, hget]
  dsimp only
  rw [alone_bind, hget]
  dsimp only
  cases s.lookup relation.ownerId relation.sourceId none with
  | none => rfl
  | some source =>
    cases s.lookup relation.ownerId relation.targetId none with
    | none => rfl
    | some target => rfl

/-- `history`, for a memory that is there. -/
theorem alone_history {o : String} {i : UUID} {memory : Memory R} {s : InMemoryStore R}
    (h : s.lookup o i none = some memory) :
    (history (R := R) o i).alone StoreOp.run s = (.ok ((s.historyByMemory.get? i).getD []), s) := by
  have hget : (piece (.get o i none)).alone StoreOp.run s = (.ok (s.lookup o i none), s) := rfl
  unfold history
  rw [alone_bind, hget, h]
  rfl

theorem alone_exportMemory (o : String) (i : UUID) (includeEmbeddings : Bool)
    (s : InMemoryStore R) :
    (exportMemory (R := R) o i includeEmbeddings).alone StoreOp.run s =
      (.ok ((s.lookup o i none).map
        (InMemoryMemoryAdminRepository.recordOf s o i includeEmbeddings)), s) := by
  have hget : (piece (.get o i none)).alone StoreOp.run s = (.ok (s.lookup o i none), s) := rfl
  have hrelations : (piece (.listRelations o i)).alone StoreOp.run s =
      (.ok (InMemoryMemoryRepository.relationsOf s o i), s) := rfl
  unfold exportMemory
  rw [alone_bind, hget]
  dsimp only
  cases hmemory : s.lookup o i none with
  | none => rfl
  | some memory =>
    dsimp only
    rw [alone_bind, hrelations]
    dsimp only
    rw [alone_bind, alone_piece]
    show ((history o i >>= _).alone StoreOp.run s) = _
    rw [alone_bind, alone_history hmemory]
    rfl

theorem does_exportMemory (o : String) (i : UUID) (includeEmbeddings : Bool) :
    Does StoreOp.run (exportMemory (R := R) o i includeEmbeddings)
      (InMemoryMemoryAdminRepository.exportMemory o i includeEmbeddings) :=
  does_of_attempt fun s => alone_exportMemory o i includeEmbeddings s

theorem alone_exportEach (o : String) (includeEmbeddings : Bool) (memories : List (Memory R))
    (s : InMemoryStore R) :
    (exportEach o includeEmbeddings memories).alone StoreOp.run s =
      (.ok ((memories.filter fun m => decide (m.ownerId = o)).filterMap fun m =>
        (s.lookup o m.id none).map
          (InMemoryMemoryAdminRepository.recordOf s o m.id includeEmbeddings)), s) := by
  induction memories with
  | nil => rfl
  | cons memory rest ih =>
    unfold exportEach
    by_cases howner : memory.ownerId = o
    · rw [if_neg (not_not.mpr howner), alone_bind, alone_exportMemory]
      dsimp only
      rw [alone_bind, ih]
      dsimp only
      rw [List.filter_cons_of_pos (by simpa using howner), List.filterMap_cons]
      cases (s.lookup o memory.id none).map _ <;> rfl
    · rw [if_pos howner, ih, List.filter_cons_of_neg (by simpa using howner)]

theorem does_exportMemories (o : String) (includeEmbeddings : Bool) :
    Does StoreOp.run (exportMemories (R := R) o includeEmbeddings)
      (InMemoryMemoryAdminRepository.exportMemories o includeEmbeddings) := by
  refine does_of_attempt fun s => ?_
  unfold exportMemories
  rw [alone_bind, alone_piece]
  exact alone_exportEach o includeEmbeddings _ s

/-- The methods with awaits do what the methods in one piece do. -/
theorem awaiting_related :
    (awaitingUnitOfWork R).Related (does StoreOp.run) (inMemoryUnitOfWork R) where
  get o i t := does_piece (.get o i t)
  getVersion := does_getVersion
  findByIdempotencyKey o k := does_piece (.findByIdempotencyKey o k)
  create memory fp vector := does_piece (.create memory fp vector)
  update memory v snapshot vector := does_piece (.update memory v snapshot vector)
  searchCandidates o t query profile filters limit :=
    does_piece (.searchCandidates o t query profile filters limit)
  forget o i t := does_piece (.forget o i t)
  listCandidates o t space limit := does_piece (.listCandidates o t space limit)
  addRelation := does_addRelation
  claim o op k fp := does_piece (.claim o op k fp)
  complete claim i v status := does_piece (.complete claim i v status)
  exportMemories := does_exportMemories
  exportMemory := does_exportMemory
  importMemories records := does_piece (.importMemories records)
  isTombstoned o i t := does_piece (.isTombstoned o i t)

end Does

/-! ## Calls -/

/-- The program of a call. -/
def Call.program (call : Call R) : StoreProg R (Response R) :=
  call.request.execOn call.service (awaitingUnitOfWork R)

/-- Alone, the program of a call does what the call does. -/
theorem Call.transact_program (call : Call R) (s : InMemoryStore R) :
    call.program.transact StoreOp.run s = call.attempt s :=
  Prog.Does.transact (execOn_related awaiting_related call.service call.request) s

/-- Calls one after another: all outcomes, and the store at the end. -/
def Call.attemptAll : List (Call R) → InMemoryStore R →
    List (Except PyError (Response R)) × InMemoryStore R
  | [], s => ([], s)
  | call :: rest, s =>
    let first := call.attempt s
    let more := attemptAll rest first.2
    (first.1 :: more.1, more.2)

theorem serially_program (calls : List (Call R)) (s : InMemoryStore R) :
    TaskPool.serially StoreOp.run Call.program calls s = Call.attemptAll calls s := by
  induction calls generalizing s with
  | nil => rfl
  | cons call rest ih =>
    unfold TaskPool.serially Call.attemptAll
    rw [Call.transact_program]
    dsimp only
    rw [ih]

/-- Calls over one store, each at some await. -/
abbrev Coroutines (R : Type) [Python R] :=
  TaskPool (Call R) (StoreOp R) StoreOp.Result PyError (Response R) (InMemoryStore R)

/-- Whatever calls are made, however they are interleaved at their awaits and whichever of them are
cancelled or raise: while no call is inside its unit of work, the store and the responses of the
calls that have returned are those of exactly these calls, one after another in some order. -/
theorem calls_serializable {s : InMemoryStore R} {w : Coroutines R}
    (hreach : Reaches (TaskPool.Moves StoreOp.run Call.program) { state := s } w)
    (houtside : ∀ t ∈ w.tasks, t.phase.isInside = false) :
    ∃ served : List (Call R × Response R), served.Perm (w.tasks.filterMap Task.served) ∧
      Call.attemptAll (served.map Prod.fst) s = (served.map fun x => .ok x.2, w.state) := by
  obtain ⟨served, hperm, hserial⟩ := TaskPool.serializable hreach houtside
  rw [serially_program] at hserial
  exact ⟨served, hperm, hserial⟩

/-! ### A write that is cancelled while another one waits -/

def writeOf (n : Nat) (content : String) : Call ℚ where
  service := serviceOn 1 n
  request := .write (noteCommand "alice" content none none)

/-- The first write has stored its memory and is cancelled before it leaves; the second has waited
for the lock. -/
def cancelledInside : List (TaskPool.Turn (Call ℚ)) :=
  [.spawn (writeOf 7 "likes tea"), .spawn (writeOf 8 "likes coffee"), .proceed 0, .proceed 0,
    .cancel 0, .proceed 1, .proceed 1, .proceed 1]

/-- The ids in the store, once all calls are outside. -/
def idsAtEnd (w : Coroutines ℚ) : Option (List UUID) :=
  if w.tasks.all fun t => !t.phase.isInside then some w.state.memories.keys else none

theorem calls_serializable_cancelled :
    (∃ w : Coroutines ℚ, Reaches (TaskPool.Moves StoreOp.run Call.program) { state := {} } w ∧
      w.state.memories.keys = [⟨8⟩] ∧
      ∃ served : List (Call ℚ × Response ℚ), served.Perm (w.tasks.filterMap Task.served) ∧
        Call.attemptAll (served.map Prod.fst) {} = (served.map fun x => .ok x.2, w.state)) := by
  have hids : ((cancelledInside.foldlM (TaskPool.turn StoreOp.run Call.program)
      ({ state := {} } : Coroutines ℚ)).bind idsAtEnd) = some [⟨8⟩] := by
    decide +kernel
  obtain ⟨w, hturns, hend⟩ := Option.bind_eq_some_iff.mp hids
  have hreaches := TaskPool.reaches_of_turns hturns
  unfold idsAtEnd at hend
  split at hend
  · rename_i hall
    refine ⟨w, hreaches, Option.some.inj hend, calls_serializable hreaches fun t ht => ?_⟩
    simpa using List.all_eq_true.mp hall t ht
  · cases hend

end OpenMemory
