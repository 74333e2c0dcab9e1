import OpenMemory.Lib.Parametric
import OpenMemory.Store.Requests

/-!
# Services over related units of work

A service body sees a unit of work through its methods alone. When the methods of two units of
work are related, so are all service calls on them (`execOn_related`): what is known of the
repositories carries over to the services, whatever the relation.
-/

namespace OpenMemory

open Lib
open MonadExcept (ofExcept)
open MemoryApplicationService

variable {R : Type} [Python R] {m n : Type → Type} [Monad m] [MonadExceptOf PyError m] [Monad n]
  [MonadExceptOf PyError n]

/-- The searches of two units of work are related; `search` and `recall` use nothing else. -/
def UnitOfWork.SearchRelated (ρ : MonadRel PyError m n) (uow : UnitOfWork m R)
    (uow' : UnitOfWork n R) : Prop :=
  ∀ o t query profile filters limit,
    ρ.Rel (uow.memories.searchCandidates o t query profile filters limit)
      (uow'.memories.searchCandidates o t query profile filters limit)

/-- The methods of two units of work are related. -/
structure UnitOfWork.Related (ρ : MonadRel PyError m n) (uow : UnitOfWork m R)
    (uow' : UnitOfWork n R) : Prop where
  get : ∀ o i t, ρ.Rel (uow.memories.get o i t) (uow'.memories.get o i t)
  getVersion : ∀ o i v t, ρ.Rel (uow.memories.getVersion o i v t) (uow'.memories.getVersion o i v t)
  findByIdempotencyKey : ∀ o k, ρ.Rel (uow.memories.findByIdempotencyKey o k)
    (uow'.memories.findByIdempotencyKey o k)
  create : ∀ memory fp vector, ρ.Rel (uow.memories.create memory fp vector)
    (uow'.memories.create memory fp vector)
  update : ∀ memory v snapshot vector, ρ.Rel (uow.memories.update memory v snapshot vector)
    (uow'.memories.update memory v snapshot vector)
  searchCandidates : uow.SearchRelated ρ uow'
  forget : ∀ o i t, ρ.Rel (uow.memories.forget o i t) (uow'.memories.forget o i t)
  listCandidates : ∀ o t space limit, ρ.Rel (uow.memories.listCandidates o t space limit)
    (uow'.memories.listCandidates o t space limit)
  addRelation : ∀ relation, ρ.Rel (uow.memories.addRelation relation)
    (uow'.memories.addRelation relation)
  claim : ∀ o op k fp, ρ.Rel (uow.idempotency.claim o op k fp) (uow'.idempotency.claim o op k fp)
  complete : ∀ claim i v status, ρ.Rel (uow.idempotency.complete claim i v status)
    (uow'.idempotency.complete claim i v status)
  exportMemories : ∀ o e, ρ.Rel (uow.admin.exportMemories o e) (uow'.admin.exportMemories o e)
  exportMemory : ∀ o i e, ρ.Rel (uow.admin.exportMemory o i e) (uow'.admin.exportMemory o i e)
  importMemories : ∀ records, ρ.Rel (uow.admin.importMemories records)
    (uow'.admin.importMemories records)
  isTombstoned : ∀ o i t, ρ.Rel (uow.admin.isTombstoned o i t) (uow'.admin.isTombstoned o i t)

/-- A check is the same on both sides. -/
theorem raiseIf_related (ρ : MonadRel PyError m n) (b : Bool) (e : PyError) :
    ρ.Rel (raiseIf b e : m Unit) (raiseIf b e) := by
  cases b with
  | true => exact ρ.throw e
  | false => exact ρ.pure ()

section Services

variable {ρ : MonadRel PyError m n} {uow : UnitOfWork m R} {uow' : UnitOfWork n R}

/-- So are the checks on tenant, owner and connection. -/
theorem validateMutationScope_related (ρ : MonadRel PyError m n) (t o : String) (revoked : Bool) :
    ρ.Rel (validateMutationScope t o revoked : m Unit) (validateMutationScope t o revoked) :=
  ρ.bind (raiseIf_related ρ _ _) fun _ => ρ.bind (ρ.ofExcept _) fun _ => raiseIf_related ρ _ _

omit [Python R] in
/-- The provider is the same on both sides. -/
theorem embedChecked_related (ρ : MonadRel PyError m n) (svc : MemoryApplicationService R)
    (text : String) (query : Bool) :
    ρ.Rel (svc.embedChecked text query : m (List R)) (svc.embedChecked text query) :=
  ρ.bind (ρ.ofExcept _) fun _ => ρ.bind (raiseIf_related ρ _ _) fun _ => ρ.pure _

/-- A new write asks its units of work for the same, and does the same with related answers. -/
theorem writeNew_related (h : uow.Related ρ uow') (svc : MemoryApplicationService R)
    (c : WriteMemoryCommand R) (at_ : DateTime) (fp : String) :
    ρ.Rel (svc.writeNew uow c at_ fp) (svc.writeNew uow' c at_ fp) :=
  ρ.bind (embedChecked_related ρ _ _ _) fun _ => ρ.bind (ρ.ofExcept _) fun _ =>
    ρ.bind (ρ.ofExcept _) fun _ => h.create _ _ _

/-- So does `write`, replays included. -/
theorem write_related (h : uow.Related ρ uow') (svc : MemoryApplicationService R)
    (c : WriteMemoryCommand R) : ρ.Rel (svc.write uow c) (svc.write uow' c) := by
  refine ρ.bind (ρ.ofExcept _) fun _ => ρ.bind (ρ.ofExcept _) fun at_ => ?_
  dsimp only
  cases truthyKey c.idempotencyKey with
  | none => exact writeNew_related h _ _ _ _
  | some key =>
    refine ρ.bind (h.findByIdempotencyKey _ _) fun prior => ?_
    cases prior with
    | none => exact writeNew_related h _ _ _ _
    | some prior => exact ρ.bind (raiseIf_related ρ _ _) fun _ => ρ.pure _

omit [Python R] in
theorem validateCapture_related (ρ : MonadRel PyError m n) (c : CaptureMemoryCommand R) :
    ρ.Rel (validateCapture c : m Unit) (validateCapture c) := by
  have hraise := raiseIf_related ρ
  exact ρ.bind (hraise _ _) fun _ => ρ.bind (hraise _ _) fun _ => ρ.bind (hraise _ _) fun _ =>
    ρ.bind (ρ.ofExcept _) fun _ => ρ.bind (hraise _ _) fun _ => ρ.bind (hraise _ _) fun _ =>
      ρ.bind (hraise _ _) fun _ => ρ.bind (hraise _ _) fun _ => ρ.bind (hraise _ _) fun _ =>
        hraise _ _

/-- So does `capture`. -/
theorem capture_related (h : uow.Related ρ uow') (svc : MemoryApplicationService R)
    (c : CaptureMemoryCommand R) : ρ.Rel (svc.capture uow c) (svc.capture uow' c) := by
  refine ρ.bind (validateCapture_related ρ c) fun _ =>
    ρ.bind (h.findByIdempotencyKey _ _) fun prior => ?_
  cases prior with
  | some prior => exact ρ.bind (raiseIf_related ρ _ _) fun _ => ρ.pure _
  | none =>
    exact ρ.bind (embedChecked_related ρ _ _ _) fun _ => ρ.bind (ρ.ofExcept _) fun _ =>
      ρ.bind (ρ.ofExcept _) fun _ => ρ.bind (ρ.ofExcept _) fun _ => h.create _ _ _

/-- So does `list_inbox`. -/
theorem listInbox_related (h : uow.Related ρ uow') (c : ListInboxCommand) :
    ρ.Rel (listInbox uow c) (listInbox uow' c) := by
  have hraise := raiseIf_related ρ
  exact ρ.bind (hraise _ _) fun _ => ρ.bind (hraise _ _) fun _ => ρ.bind (ρ.ofExcept _) fun _ =>
    ρ.bind (hraise _ _) fun _ => ρ.bind (hraise _ _) fun _ =>
      ρ.bind (h.listCandidates _ _ _ _) fun _ => ρ.pure _

/-- Replaying a version asks for that version. -/
theorem replayVersion_related (h : uow.Related ρ uow') (o : String) (t : Option String)
    (claim : IdempotencyClaim) (i : UUID) (v : Int) :
    ρ.Rel (replayVersion uow o t claim i v) (replayVersion uow' o t claim i v) := by
  refine ρ.bind (h.getVersion _ _ _ _) fun replay => ?_
  cases replay with
  | none => exact ρ.throw _
  | some memory => exact ρ.pure _

/-- The check on the current version asks for the memory. -/
theorem currentAt_related (h : uow.Related ρ uow') (o : String) (t : Option String) (i : UUID)
    (v : Int) (message : Memory R → String) :
    ρ.Rel (currentAt uow o t i v message) (currentAt uow' o t i v message) := by
  refine ρ.bind (h.get _ _ _) fun current => ?_
  cases current with
  | none => exact ρ.throw _
  | some current => exact ρ.bind (raiseIf_related ρ _ _) fun _ => ρ.pure _

/-- `confirm_candidate` relates to itself. -/
theorem confirmCandidate_related (h : uow.Related ρ uow') (svc : MemoryApplicationService R)
    (c : ConfirmCandidateCommand) :
    ρ.Rel (svc.confirmCandidate uow c) (svc.confirmCandidate uow' c) := by
  refine ρ.bind (raiseIf_related ρ _ _) fun _ => ρ.bind (validateMutationScope_related ρ _ _ _)
    fun _ => ρ.bind (h.claim _ _ _ _) fun claim => ?_
  refine ρ.ite (replayVersion_related h _ _ _ _ _) ?_
  exact ρ.bind (currentAt_related h _ _ _ _ _) fun _ => ρ.bind (raiseIf_related ρ _ _) fun _ =>
    ρ.bind (ρ.ofExcept _) fun _ => ρ.bind (ρ.ofExcept _) fun _ => ρ.bind (ρ.ofExcept _) fun _ =>
      ρ.bind (embedChecked_related ρ _ _ _) fun _ => ρ.bind (h.update _ _ _ _) fun _ =>
        ρ.bind (h.complete _ _ _ _) fun _ => ρ.pure _

/-- So does `pin`. -/
theorem pin_related (h : uow.Related ρ uow') (svc : MemoryApplicationService R)
    (c : PinMemoryCommand) : ρ.Rel (svc.pin uow c) (svc.pin uow' c) := by
  refine ρ.bind (raiseIf_related ρ _ _) fun _ => ρ.bind (validateMutationScope_related ρ _ _ _)
    fun _ => ρ.bind (h.claim _ _ _ _) fun claim => ?_
  refine ρ.ite (replayVersion_related h _ _ _ _ _) ?_
  refine ρ.bind (currentAt_related h _ _ _ _ _) fun _ => ρ.bind (raiseIf_related ρ _ _) fun _ => ?_
  refine ρ.ite (ρ.bind (h.complete _ _ _ _) fun _ => ρ.pure _) ?_
  exact ρ.bind (ρ.ofExcept _) fun _ => ρ.bind (ρ.ofExcept _) fun _ =>
    ρ.bind (embedChecked_related ρ _ _ _) fun _ => ρ.bind (h.update _ _ _ _) fun _ =>
      ρ.bind (h.complete _ _ _ _) fun _ => ρ.pure _

/-- So does `discard_candidate`. -/
theorem discardCandidate_related (h : uow.Related ρ uow') (c : DiscardCandidateCommand) :
    ρ.Rel (discardCandidate uow c) (discardCandidate uow' c) := by
  refine ρ.bind (raiseIf_related ρ _ _) fun _ => ρ.bind (validateMutationScope_related ρ _ _ _)
    fun _ => ρ.bind (h.claim _ _ _ _) fun claim => ?_
  refine ρ.ite (ρ.pure _) ?_
  exact ρ.bind (currentAt_related h _ _ _ _ _) fun _ => ρ.bind (raiseIf_related ρ _ _) fun _ =>
    ρ.bind (h.forget _ _ _) fun _ => ρ.bind (h.complete _ _ _ _) fun _ => ρ.pure _

theorem validateRecall_related (ρ : MonadRel PyError m n) (c : RecallMemoryCommand R) :
    ρ.Rel (validateRecall c : m Unit) (validateRecall c) := by
  have hraise := raiseIf_related ρ
  exact ρ.bind (hraise _ _) fun _ => ρ.bind (hraise _ _) fun _ => ρ.bind (ρ.ofExcept _) fun _ =>
    ρ.bind (hraise _ _) fun _ => ρ.bind (hraise _ _) fun _ => ρ.bind (hraise _ _) fun _ =>
      ρ.bind (hraise _ _) fun _ => hraise _ _

/-- For `recall` it is enough that searches are related. -/
theorem recall_related (h : uow.SearchRelated ρ uow') (svc : MemoryApplicationService R)
    (c : RecallMemoryCommand R) : ρ.Rel (svc.recall uow c) (svc.recall uow' c) := by
  have hcandidates : ∀ (query : List R) (spaces : List (Option String)),
      ρ.Rel (svc.recallCandidates uow c query spaces) (svc.recallCandidates uow' c query spaces) := by
    intro query spaces
    induction spaces with
    | nil => exact ρ.pure _
    | cons space rest ih =>
      exact ρ.bind (h _ _ _ _ _ _) fun _ => ρ.bind ih fun _ => ρ.pure _
  exact ρ.bind (validateRecall_related ρ c) fun _ => ρ.bind (embedChecked_related ρ _ _ _) fun _ =>
    ρ.bind (hcandidates _ _) fun _ => ρ.pure _

/-- For `search` too. -/
theorem search_related (h : uow.SearchRelated ρ uow') (svc : MemoryApplicationService R)
    (c : SearchMemoryCommand R) : ρ.Rel (svc.search uow c) (svc.search uow' c) := by
  have hraise := raiseIf_related ρ
  exact ρ.bind (ρ.ofExcept _) fun _ => ρ.bind (hraise _ _) fun _ => ρ.bind (hraise _ _) fun _ =>
    ρ.bind (hraise _ _) fun _ => ρ.bind (hraise _ _) fun _ =>
      ρ.bind (embedChecked_related ρ _ _ _) fun _ => ρ.bind (h _ _ _ _ _ _) fun _ =>
        ρ.bind (ρ.ofExcept _) fun _ => ρ.pure _

/-- Checking a relation asks for the memory at its end. -/
theorem checkRelated_related (h : uow.Related ρ uow') (o : String) (current : Memory R)
    (related : Option (RelationType × UUID)) :
    ρ.Rel (checkRelated uow o current related) (checkRelated uow' o current related) := by
  cases related with
  | none => exact ρ.pure _
  | some target =>
    exact ρ.bind (raiseIf_related ρ _ _) fun _ => ρ.bind (h.get _ _ _) fun _ =>
      raiseIf_related ρ _ _

/-- Storing it asks for one insertion. -/
theorem storeRelation_related (h : uow.Related ρ uow') (svc : MemoryApplicationService R)
    (o : String) (i : UUID) (related : Option (RelationType × UUID)) :
    ρ.Rel (svc.storeRelation uow o i related) (svc.storeRelation uow' o i related) := by
  cases related with
  | none => exact ρ.pure _
  | some target =>
    exact ρ.bind (ρ.ofExcept _) fun _ => ρ.bind (ρ.ofExcept _) fun _ =>
      ρ.bind (h.addRelation _) fun _ => ρ.pure _

/-- The body of an update relates to itself. -/
theorem updateBody_related (h : uow.Related ρ uow') (svc : MemoryApplicationService R)
    (c : UpdateMemoryCommand R) : ρ.Rel (svc.updateBody uow c) (svc.updateBody uow' c) :=
  ρ.bind (currentAt_related h _ _ _ _ _) fun _ => ρ.bind (ρ.ofExcept _) fun _ =>
    ρ.bind (raiseIf_related ρ _ _) fun _ => ρ.bind (checkRelated_related h _ _ _) fun _ =>
      ρ.bind (ρ.ofExcept _) fun _ => ρ.bind (ρ.ofExcept _) fun _ =>
        ρ.bind (embedChecked_related ρ _ _ _) fun _ => ρ.bind (h.update _ _ _ _) fun _ =>
          ρ.bind (storeRelation_related h _ _ _ _) fun _ => ρ.pure _

/-- So does `update`, with the claim before it and the completion after it. -/
theorem update_related (h : uow.Related ρ uow') (svc : MemoryApplicationService R)
    (c : UpdateMemoryCommand R) : ρ.Rel (svc.update uow c) (svc.update uow' c) := by
  refine ρ.bind (ρ.ofExcept _) fun _ => ?_
  cases truthyKey c.idempotencyKey with
  | none => exact updateBody_related h _ _
  | some key =>
    refine ρ.bind (h.claim _ _ _ _) fun claim => ?_
    refine ρ.ite (replayVersion_related h _ _ _ _ _) ?_
    exact ρ.bind (updateBody_related h _ _) fun _ => ρ.bind (h.complete _ _ _ _) fun _ => ρ.pure _

/-- So does `forget`. -/
theorem forget_related (h : uow.Related ρ uow') (c : ForgetMemoryCommand) :
    ρ.Rel (MemoryApplicationService.forget uow c) (MemoryApplicationService.forget uow' c) := by
  refine ρ.bind (ρ.ofExcept _) fun _ => ?_
  cases truthyKey c.idempotencyKey with
  | none => exact ρ.bind (h.forget _ _ _) fun _ => ρ.pure _
  | some key =>
    refine ρ.bind (h.claim _ _ _ _) fun claim => ρ.ite (ρ.pure _) ?_
    exact ρ.bind (h.forget _ _ _) fun _ => ρ.bind (h.complete _ _ _ _) fun _ => ρ.pure _

/-- So does `relate`. -/
theorem relate_related (h : uow.Related ρ uow') (svc : MemoryApplicationService R)
    (c : RelateMemoriesCommand) : ρ.Rel (svc.relate uow c) (svc.relate uow' c) := by
  refine ρ.bind (ρ.ofExcept _) fun _ => ?_
  cases RelationType.ofValue c.relationType with
  | none => exact ρ.throw _
  | some relationType =>
    refine ρ.bind (raiseIf_related ρ _ _) fun _ => ρ.bind (h.get _ _ _) fun source =>
      ρ.bind (h.get _ _ _) fun target => ?_
    cases source with
    | none => exact ρ.throw _
    | some source =>
      cases target with
      | none => exact ρ.throw _
      | some target =>
        exact ρ.bind (ρ.ofExcept _) fun _ => ρ.bind (ρ.ofExcept _) fun _ => h.addRelation _

/-- Checking the ends of imported relations asks for one memory after the other. -/
theorem checkEndpoints_related (h : uow.Related ρ uow') (o : String) (ids endpoints : List UUID) :
    ρ.Rel (checkEndpoints uow o ids endpoints) (checkEndpoints uow' o ids endpoints) := by
  induction endpoints with
  | nil => exact ρ.pure _
  | cons endpoint rest ih =>
    unfold checkEndpoints
    exact ρ.ite ih (ρ.bind (h.get _ _ _) fun _ => ρ.bind (raiseIf_related ρ _ _) fun _ => ih)

/-- Which records are there is asked one after the other. -/
theorem existingRecords_related (h : uow.Related ρ uow') (o : String)
    (records : List (MemoryRecordDto R)) :
    ρ.Rel (existingRecords uow o records) (existingRecords uow' o records) := by
  induction records with
  | nil => exact ρ.pure _
  | cons record rest ih =>
    refine ρ.bind (h.exportMemory _ _ _) fun current => ?_
    cases current with
    | none =>
      exact ρ.bind (h.isTombstoned _ _ _) fun _ => ρ.bind (raiseIf_related ρ _ _) fun _ => ih
    | some current =>
      exact ρ.bind (raiseIf_related ρ _ _) fun _ => ρ.bind ih fun _ => ρ.pure _

/-- Preparing records asks the provider only. -/
theorem prepareRecords_related (ρ : MonadRel PyError m n) (svc : MemoryApplicationService R)
    (existing : List UUID) (records : List (MemoryRecordDto R)) :
    ρ.Rel (svc.prepareRecords existing records : m _) (svc.prepareRecords existing records) := by
  induction records with
  | nil => exact ρ.pure _
  | cons record rest ih =>
    unfold prepareRecords
    refine ρ.ite (ρ.bind ih fun _ => ρ.pure _) ?_
    cases record.memory.embedding with
    | none => exact ρ.throw _
    | some descriptor =>
      exact ρ.bind (ρ.ofExcept _) fun _ => ρ.bind (raiseIf_related ρ _ _) fun _ =>
        ρ.bind (embedChecked_related ρ _ _ _) fun _ => ρ.bind ih fun _ => ρ.pure _

/-- An import relates to itself. -/
theorem importMemories_related (h : uow.Related ρ uow') (svc : MemoryApplicationService R)
    (o : String) (records : List (MemoryRecordDto R)) :
    ρ.Rel (svc.importMemories uow o records) (svc.importMemories uow' o records) :=
  ρ.bind (ρ.ofExcept _) fun _ => ρ.bind (ρ.ofExcept _) fun _ =>
    ρ.bind (checkEndpoints_related h _ _ _) fun _ => ρ.bind (existingRecords_related h _ _) fun _ =>
      ρ.bind (prepareRecords_related ρ _ _ _) fun _ => h.importMemories _

/-- A call does the same on related units of work. -/
theorem execOn_related (h : uow.Related ρ uow') (svc : MemoryApplicationService R)
    (request : Request R) : ρ.Rel (request.execOn svc uow) (request.execOn svc uow') := by
  cases request with
  | write c => exact ρ.map _ (write_related h svc c)
  | capture c => exact ρ.map _ (capture_related h svc c)
  | listInbox c => exact ρ.map _ (listInbox_related h c)
  | confirmCandidate c => exact ρ.map _ (confirmCandidate_related h svc c)
  | pin c => exact ρ.map _ (pin_related h svc c)
  | discardCandidate c => exact ρ.map _ (discardCandidate_related h c)
  | «recall» c => exact ρ.map _ (recall_related h.searchCandidates svc c)
  | search c => exact ρ.map _ (search_related h.searchCandidates svc c)
  | update c => exact ρ.map _ (update_related h svc c)
  | forget c => exact ρ.map _ (forget_related h c)
  | relate c => exact ρ.map _ (relate_related h svc c)
  | exportMemories o e =>
    exact ρ.map _ (ρ.bind (ρ.ofExcept _) fun _ => h.exportMemories _ _)
  | importMemories o records => exact ρ.map _ (importMemories_related h svc o records)

end Services

end OpenMemory
