import OpenMemory.Application.Fakes

/-!
# Requests to the service and what each one can do

A `Request` is one call of `MemoryApplicationService` over the in-memory store and
`exec` runs it. The rest of the module inverts `exec`: for every operation, one
lemma says what a *successful* call has read and how the store it leaves differs
from the one it found. Nothing later unfolds a service body again.

The three operations that write under the idempotency ledger share a shape
(`Ledgered`): either the key was completed before with the same fingerprint and
the call reads back what was recorded, or the key was new, the body ran, and the
entry was completed.
-/

namespace OpenMemory

open Lib
open MonadExcept (ofExcept)

variable {R : Type} [Python R]

/-- One call of the service. -/
inductive Request (R : Type) [Python R]
  | write (command : WriteMemoryCommand R)
  | capture (command : CaptureMemoryCommand R)
  | listInbox (command : ListInboxCommand)
  | confirmCandidate (command : ConfirmCandidateCommand)
  | pin (command : PinMemoryCommand)
  | discardCandidate (command : DiscardCandidateCommand)
  | «recall» (command : RecallMemoryCommand R)
  | search (command : SearchMemoryCommand R)
  | update (command : UpdateMemoryCommand R)
  | forget (command : ForgetMemoryCommand)
  | relate (command : RelateMemoriesCommand)
  | exportMemories (ownerId : String) (includeEmbeddings : Bool)
  | importMemories (ownerId : String) (records : List (MemoryRecordDto R))

/-- What a call returns. -/
inductive Response (R : Type) [Python R]
  | written (result : WriteMemoryResult R)
  | inbox (result : InboxResult R)
  | memory (memory : Memory R)
  | forgotten (result : ForgetMemoryResult)
  | recalled (result : RecallResult R)
  | found (result : SearchMemoryResult R)
  | related (relation : Relation)
  | exported (records : List (MemoryRecordDto R))
  | imported (result : ImportResult)
  deriving DecidableEq

namespace Request

/-- The owner a call is made for. -/
def ownerId : Request R → String
  | write c => c.ownerId
  | capture c => c.ownerId
  | listInbox c => c.ownerId
  | confirmCandidate c => c.ownerId
  | pin c => c.ownerId
  | discardCandidate c => c.ownerId
  | «recall» c => c.ownerId
  | search c => c.ownerId
  | update c => c.ownerId
  | forget c => c.ownerId
  | relate c => c.ownerId
  | exportMemories o _ => o
  | importMemories o _ => o

/-- The memories a call brings in from outside. -/
def package : Request R → List (Memory R)
  | importMemories _ records => records.map MemoryRecordDto.memory
  | _ => []

/-- Does the call draw a `uuid4()`? -/
def drawsUuid : Request R → Bool
  | write _ => true
  | capture _ => true
  | _ => false

/-- Run a call in a unit of work. -/
def execOn {m : Type → Type} [Monad m] [MonadExceptOf PyError m]
    (svc : MemoryApplicationService R) (uow : UnitOfWork m R) : Request R → m (Response R)
  | write c => .written <$> svc.write uow c
  | capture c => .written <$> svc.capture uow c
  | listInbox c => .inbox <$> MemoryApplicationService.listInbox uow c
  | confirmCandidate c => .memory <$> svc.confirmCandidate uow c
  | pin c => .memory <$> svc.pin uow c
  | discardCandidate c => .forgotten <$> MemoryApplicationService.discardCandidate uow c
  | «recall» c => .recalled <$> svc.recall uow c
  | search c => .found <$> svc.search uow c
  | update c => .memory <$> svc.update uow c
  | forget c => .forgotten <$> MemoryApplicationService.forget uow c
  | relate c => .related <$> svc.relate uow c
  | exportMemories o e => .exported <$> MemoryApplicationService.exportMemories uow o e
  | importMemories o records => .imported <$> svc.importMemories uow o records

/-- Run a call on the in-memory store. -/
def exec (svc : MemoryApplicationService R) (request : Request R) : StoreTxn R (Response R) :=
  request.execOn svc (inMemoryUnitOfWork R)

end Request

/-! ## Single steps -/

/-- A check that passes changes nothing. -/
theorem raiseIf_ok {σ : Type} {c : Bool} {e : PyError} {u : Unit} {s s' : σ} :
    (raiseIf c e : Txn σ PyError Unit).run s = .ok (u, s') ↔ c = false ∧ s' = s := by
  unfold raiseIf
  cases c with
  | true =>
    simp only [if_true, Bool.true_eq_false, false_and, iff_false]
    exact fun h => nomatch h
  | false =>
    simp only [Bool.false_eq_true, if_false, true_and]
    exact Txn.pure_ok.trans ⟨fun h => h.2, fun h => ⟨rfl, h⟩⟩

theorem stateless_raiseIf {σ : Type} (c : Bool) (e : PyError) :
    Txn.Stateless (raiseIf c e : Txn σ PyError Unit) (raiseIf c e) := by
  intro s
  cases c <;> rfl

namespace InMemoryStore

/-- The store with one ledger entry assigned. -/
def record (s : InMemoryStore R) (key : OperationKey) (entry : StoredIdempotencyOperation) :
    InMemoryStore R :=
  { s with idempotencyOperations := s.idempotencyOperations.set key entry }

/-- The store with one relation assigned. -/
def addRelation (s : InMemoryStore R) (r : Relation) : InMemoryStore R :=
  { s with relations := s.relations.set r.key r }

/-- Every memory is stored under its own id. -/
def Keyed (s : InMemoryStore R) : Prop := ∀ i m, s.memories.get? i = some m → m.id = i

/-- A look-up finds a memory under the id, of the owner and, if one is given, of the tenant. -/
theorem lookup_eq_some {s : InMemoryStore R} {o : String} {i : UUID} {t : Option String}
    {m : Memory R} : s.lookup o i t = some m ↔
      s.memories.get? i = some m ∧ m.ownerId = o ∧ (t = none ∨ m.tenantId = t) := by
  unfold lookup addressable
  rw [Option.filter_eq_some_iff]
  simp [Option.isNone_iff_eq_none]

/-- What is found under a write key is a memory of the owner with that key. -/
theorem firstWithKey_eq_some {s : InMemoryStore R} {o k : String} {m : Memory R}
    (h : s.firstWithKey o k = some m) :
    (∃ i, s.memories.get? i = some m) ∧ m.ownerId = o ∧ m.idempotencyKey = some k := by
  refine ⟨(Dict.mem_values_iff _ _).mp (List.mem_of_find?_eq_some h), ?_⟩
  simpa using List.find?_some h

/-- Nothing is found exactly if no memory of the owner has the key. -/
theorem firstWithKey_eq_none {s : InMemoryStore R} {o k : String} :
    s.firstWithKey o k = none ↔
      ∀ i m, s.memories.get? i = some m → m.ownerId = o → m.idempotencyKey ≠ some k := by
  unfold firstWithKey
  rw [List.find?_eq_none]
  constructor
  · intro h i m hm ho hk
    exact h m ((Dict.mem_values_iff _ _).mpr ⟨i, hm⟩) (by simp [ho, hk])
  · intro h m hm
    obtain ⟨i, hi⟩ := (Dict.mem_values_iff _ _).mp hm
    have := h i m hi
    simpa using this

/-- What `get_version` reads. -/
def versionAt (s : InMemoryStore R) (ownerId : String) (memoryId : UUID) (version : Int)
    (tenantId : Option String) : Except PyError (Option (Memory R)) :=
  match s.lookup ownerId memoryId tenantId with
  | none => .ok none
  | some current =>
    if current.version = version then .ok (some current)
    else
      match ((s.historyByMemory.get? memoryId).getD []).find? fun v => decide (v.version = version)
      with
      | none => .ok none
      | some snapshot => (current.rebuild snapshot).map some

theorem getVersion_run (s : InMemoryStore R) (o : String) (i : UUID) (v : Int)
    (t : Option String) : (InMemoryMemoryRepository.getVersion o i v t).run s
      = (s.versionAt o i v t).map fun m => (m, s) := by
  show InMemoryMemoryRepository.getVersion o i v t s = _
  unfold InMemoryMemoryRepository.getVersion versionAt
  cases s.lookup o i t with
  | none => rfl
  | some current =>
    dsimp only
    by_cases hv : current.version = v
    · rw [if_pos hv, if_pos hv]
      rfl
    · rw [if_neg hv, if_neg hv]
      cases ((s.historyByMemory.get? i).getD []).find? fun w => decide (w.version = v) with
      | none => rfl
      | some snapshot => cases hr : current.rebuild snapshot <;> simp [hr, Except.map]

/-- The ledger holds a completed operation under this key and fingerprint. -/
structure Completed (s : InMemoryStore R) (key : OperationKey) (fingerprint : String)
    (prior : StoredIdempotencyOperation) : Prop where
  entry : s.idempotencyOperations.get? key = some prior
  fingerprint : prior.fingerprint = fingerprint
  status : prior.status = .completed

/-- What an operation under the idempotency ledger does: it answers from a
completed entry and changes nothing, or its key is new, its body runs, and a
completed entry is added. -/
inductive Ledgered (s : InMemoryStore R) (key : OperationKey) (fingerprint : String)
    (replay : StoredIdempotencyOperation → Prop)
    (body : InMemoryStore R → StoredIdempotencyOperation → Prop) : InMemoryStore R → Prop
  | replayed {prior : StoredIdempotencyOperation} (completed : s.Completed key fingerprint prior)
      (answer : replay prior) : Ledgered s key fingerprint replay body s
  | executed {s₁ : InMemoryStore R} {entry : StoredIdempotencyOperation}
      (new : s.idempotencyOperations.get? key = none) (ran : body s₁ entry)
      (recorded : entry.fingerprint = fingerprint) (status : entry.status = .completed) :
      Ledgered s key fingerprint replay body (s₁.record key entry)

/-- One new version of the memory at `memoryId`, evolved with `args`. -/
structure NewVersion (s : InMemoryStore R) (ownerId : String) (memoryId : UUID)
    (tenantId : Option String) (version : Int) (args : Memory.EvolveArgs R) (m m' : Memory R)
    (s' : InMemoryStore R) : Prop where
  live : s.lookup ownerId memoryId tenantId = some m
  version : m.version = version
  evolved : m.evolve args = .ok m'
  stored : ∃ history reason vector, s.historyByMemory.get? m'.id = some history ∧
    s' = s.putVersion m' history (m'.snapshot reason) vector

/-- The guards of `add_relation`. -/
structure Relatable (s : InMemoryStore R) (r : Relation) : Prop where
  source : (s.lookup r.ownerId r.sourceId none).isSome
  target : (s.lookup r.ownerId r.targetId none).isSome
  new : s.relations.get? r.key = none

end InMemoryStore

/-! ## Repositories -/

namespace InMemoryIdempotencyRepository

/-- What a claim returns: a new one, entered in the ledger, or the one that is there. -/
theorem claim_ok {o k fp : String} {op : IdempotencyOperationType} {c : IdempotencyClaim}
    {s s' : InMemoryStore R} (h : (claim o op k fp).run s = .ok (c, s')) :
    (c = { ownerId := o, operationType := op, idempotencyKey := k, fingerprint := fp,
           replay := false } ∧
      s.idempotencyOperations.get? (o, op, k) = none ∧
      s' = s.record (o, op, k) { fingerprint := fp }) ∨
    ∃ prior, s.Completed (o, op, k) fp prior ∧
      c = { ownerId := o, operationType := op, idempotencyKey := k, fingerprint := fp,
            replay := true, memoryId := prior.memoryId, resultVersion := prior.resultVersion,
            resultStatus := prior.resultStatus } ∧ s' = s := by
  replace h : claim o op k fp s = .ok (c, s') := h
  unfold claim at h
  dsimp only at h
  -- no entry: the claim is recorded in progress
  cases hprior : s.idempotencyOperations.get? (o, op, k) with
  | none =>
    rw [hprior] at h
    cases h
    exact .inl ⟨rfl, rfl, rfl⟩
  | some prior =>
    rw [hprior] at h
    dsimp only at h
    -- an entry: the fingerprint and the status decide
    by_cases hfp : prior.fingerprint = fp
    · by_cases hst : prior.status = .completed
      · rw [if_neg (not_not.mpr hfp), if_neg (not_not.mpr hst)] at h
        cases h
        exact .inr ⟨prior, ⟨hprior, hfp, hst⟩, rfl, rfl⟩
      · rw [if_neg (not_not.mpr hfp), if_pos hst] at h
        cases h
    · rw [if_pos hfp] at h
      cases h

/-- Completing a claim that was just made. -/
theorem complete_ok {c : IdempotencyClaim} {i : Option UUID} {v : Option Int} {st : String}
    {s s' : InMemoryStore R} {u : Unit}
    (hnew : s.idempotencyOperations.get? (c.ownerId, c.operationType, c.idempotencyKey)
      = some { fingerprint := c.fingerprint })
    (h : (complete c i v st).run s = .ok (u, s')) :
    s' = s.record (c.ownerId, c.operationType, c.idempotencyKey)
      { fingerprint := c.fingerprint, status := .completed, memoryId := i, resultVersion := v,
        resultStatus := some st } := by
  replace h : complete c i v st s = .ok (u, s') := h
  unfold complete at h
  dsimp only at h
  rw [hnew] at h
  dsimp only at h
  rw [if_neg (not_not.mpr rfl), if_neg (by decide)] at h
  cases h
  rfl

end InMemoryIdempotencyRepository

namespace InMemoryMemoryRepository

/-- A write key that is known has a fingerprint and a memory. -/
theorem findByIdempotencyKey_ok {o k : String} {r : Option (IdempotencyLookup R)}
    {s s' : InMemoryStore R} (h : (findByIdempotencyKey o k).run s = .ok (r, s')) :
    s' = s ∧ ((r = none ∧ s.fingerprints.get? (o, k) = none) ∨
      ∃ l, r = some l ∧ s.fingerprints.get? (o, k) = some l.fingerprint ∧
        s.firstWithKey o k = some l.memory) := by
  replace h : findByIdempotencyKey o k s = .ok (r, s') := h
  unfold findByIdempotencyKey at h
  cases hfp : s.fingerprints.get? (o, k) with
  | none =>
    rw [hfp] at h
    cases h
    exact ⟨rfl, .inl ⟨rfl, rfl⟩⟩
  | some fp =>
    rw [hfp] at h
    dsimp only at h
    cases hm : s.firstWithKey o k with
    | none =>
      rw [hm] at h
      cases h
    | some m =>
      rw [hm] at h
      cases h
      exact ⟨rfl, .inr ⟨_, rfl, rfl, rfl⟩⟩

/-- What `create` does: a new memory, or the one that the key leads to. -/
theorem create_ok {m : Memory R} {fp : String} {vector : List R} {r : WriteMemoryResult R}
    {s s' : InMemoryStore R} (h : (create m fp vector).run s = .ok (r, s')) :
    (r = { memory := m, created := true } ∧ s' = s.putNew m fp vector ∧
      ∀ k, m.idempotencyKey = some k → s.fingerprints.get? (m.ownerId, k) = none) ∨
    ∃ k, m.idempotencyKey = some k ∧ s.fingerprints.get? (m.ownerId, k) = some fp ∧
      s.firstWithKey m.ownerId k = some r.memory ∧ s' = s := by
  replace h : create m fp vector s = .ok (r, s') := h
  unfold create MemoryApplicationService.truthyKey at h
  cases hkey : m.idempotencyKey with
  | none =>
    rw [hkey] at h
    cases h
    exact .inl ⟨rfl, rfl, fun k hk => nomatch hk⟩
  | some k =>
    have hne : k ≠ "" := by
      rintro rfl
      exact m.idempotencyKey_ne_empty hkey
    rw [hkey, Option.filter_some, if_pos (by simpa using hne)] at h
    dsimp only at h
    -- the key has no fingerprint: the memory is created
    cases hfp : s.fingerprints.get? (m.ownerId, k) with
    | none =>
      rw [hfp] at h
      cases h
      refine .inl ⟨rfl, rfl, ?_⟩
      rintro k' ⟨⟩
      exact hfp
    | some prior =>
      rw [hfp] at h
      dsimp only at h
      -- the same fingerprint: the memory of the key is answered
      by_cases heq : prior = fp
      · rw [if_neg (not_not.mpr heq)] at h
        cases hfirst : s.firstWithKey m.ownerId k with
        | none =>
          rw [hfirst] at h
          cases h
        | some m₀ =>
          rw [hfirst] at h
          cases h
          exact .inr ⟨k, rfl, hfp.trans (congrArg some heq), hfirst, rfl⟩
      · rw [if_pos heq] at h
        cases h

/-- What `update` of the repository does: the next version of the owner's memory at the expected
one. -/
theorem update_ok {m : Memory R} {v : Int} {snapshot : MemoryVersion R} {vector : List R}
    {r : Memory R} {s s' : InMemoryStore R}
    (h : (update m v snapshot vector).run s = .ok (r, s')) :
    r = m ∧ ∃ current history, s.memories.get? m.id = some current ∧
      current.ownerId = m.ownerId ∧ current.version = v ∧
      s.historyByMemory.get? m.id = some history ∧
      s' = s.putVersion m history snapshot vector := by
  replace h : update m v snapshot vector s = .ok (r, s') := h
  unfold update at h
  cases hm : s.memories.get? m.id with
  | none =>
    rw [hm] at h
    cases h
  | some current =>
    rw [hm] at h
    dsimp only at h
    -- the compare-and-swap: owner, version, and the history to append to
    by_cases ho : current.ownerId = m.ownerId
    · by_cases hv : current.version = v
      · rw [if_neg (not_not.mpr ho), if_neg (not_not.mpr hv)] at h
        cases hh : s.historyByMemory.get? m.id with
        | none =>
          rw [hh] at h
          cases h
        | some history =>
          rw [hh] at h
          cases h
          exact ⟨rfl, current, history, rfl, ho, hv, rfl, rfl⟩
      · rw [if_neg (not_not.mpr ho), if_pos hv] at h
        cases h
    · rw [if_pos ho] at h
      cases h

/-- What `forget` of the repository does: nothing where the look-up finds nothing, else the memory
goes. -/
theorem forget_ok {o : String} {i : UUID} {t : Option String} {r : Bool}
    {s s' : InMemoryStore R} (h : (forget o i t).run s = .ok (r, s')) :
    (r = false ∧ s.lookup o i t = none ∧ s' = s) ∨
      ∃ m, r = true ∧ s.lookup o i t = some m ∧ s' = s.remove o m i := by
  replace h : forget o i t s = .ok (r, s') := h
  unfold forget at h
  cases hm : s.lookup o i t with
  | none =>
    rw [hm] at h
    cases h
    exact .inl ⟨rfl, rfl, rfl⟩
  | some m =>
    rw [hm] at h
    cases h
    exact .inr ⟨m, rfl, rfl, rfl⟩

/-- What `add_relation` does, given two memories of the owner and no such relation. -/
theorem addRelation_ok {relation r : Relation} {s s' : InMemoryStore R}
    (h : (addRelation relation).run s = .ok (r, s')) :
    r = relation ∧ s.Relatable relation ∧ s' = s.addRelation relation := by
  replace h : addRelation relation s = .ok (r, s') := h
  unfold addRelation at h
  -- both ends are live, and the relation is new
  cases hsrc : s.lookup relation.ownerId relation.sourceId none with
  | none =>
    rw [hsrc] at h
    cases h
  | some a =>
    cases htgt : s.lookup relation.ownerId relation.targetId none with
    | none =>
      rw [hsrc, htgt] at h
      cases h
    | some b =>
      rw [hsrc, htgt] at h
      dsimp only at h
      by_cases hc : s.relations.contains relation.key = true
      · rw [if_pos hc] at h
        cases h
      · rw [if_neg hc] at h
        cases h
        rw [Bool.not_eq_true, Dict.contains_eq_false_iff] at hc
        exact ⟨rfl, ⟨by simp [hsrc], by simp [htgt], hc⟩, rfl⟩

end InMemoryMemoryRepository

/-! ## Service operations -/

namespace MemoryApplicationService

open InMemoryStore

theorem truthyKey_eq_some {key : Option String} {k : String} :
    truthyKey key = some k ↔ key = some k ∧ k ≠ "" := by
  unfold truthyKey
  rw [Option.filter_eq_some_iff]
  simp

omit [Python R] in
/-- The clock is read, and its time has an offset. -/
theorem now_ok {σ : Type} {svc : MemoryApplicationService R} {n : Nat} {at_ : DateTime}
    {s s' : σ} (h : (svc.now n : Txn σ PyError DateTime).run s = .ok (at_, s')) :
    ensureAware (svc.clock n) "now" = .ok at_ ∧ s' = s :=
  Txn.ofExcept_ok.mp h

omit [Python R] in
/-- A text is embedded at the dimension of the profile. -/
theorem embedChecked_ok {σ : Type} {svc : MemoryApplicationService R} {text : String}
    {query : Bool} {vector : List R} {s s' : σ}
    (h : (svc.embedChecked text query : Txn σ PyError (List R)).run s = .ok (vector, s')) :
    svc.embeddingProvider.embed text query = .ok vector ∧
      (vector.length : Int) = svc.embeddingProvider.profile.dimension ∧ s' = s := by
  simp only [embedChecked, validateVector, Txn.bind_ok, Txn.ofExcept_ok, raiseIf_ok,
    Txn.pure_ok] at h
  obtain ⟨v, _, ⟨hv, rfl⟩, _, _, ⟨hdim, rfl⟩, rfl, rfl⟩ := h
  exact ⟨hv, by simpa using hdim, rfl⟩

/-- A text that the provider embeds at that dimension is embedded. -/
theorem embedChecked_run {svc : MemoryApplicationService R} {text : String} {query : Bool}
    {vector : List R} (h : svc.embeddingProvider.embed text query = .ok vector)
    (hdim : (vector.length : Int) = svc.embeddingProvider.profile.dimension)
    (s : InMemoryStore R) :
    (svc.embedChecked text query : StoreTxn R (List R)).run s = .ok (vector, s) := by
  unfold embedChecked validateVector
  rw [h, Txn.run_bind_of_ok (Txn.ofExcept_ok.mpr ⟨rfl, rfl⟩),
    Txn.run_bind_of_ok (a := ()) (raiseIf_ok.mpr ⟨by simpa using hdim, rfl⟩)]
  rfl

/-- What a write or capture under `key` has done: re-read the memory its key stands
for, or stored a new memory of its owner and tenant under the drawn id. -/
inductive WriteCases (svc : MemoryApplicationService R) (s : InMemoryStore R) (ownerId : String)
    (tenantId key : Option String) (fingerprint : String) (r : WriteMemoryResult R) :
    InMemoryStore R → Prop
  | reread {k : String} (isKey : key = some k)
      (same : s.fingerprints.get? (ownerId, k) = some fingerprint)
      (first : s.firstWithKey ownerId k = some r.memory) :
      WriteCases svc s ownerId tenantId key fingerprint r s
  | wrote {args : Memory.CreateArgs R} {vector : List R} (drawn : args.memoryId = svc.uuid4)
      (owner : args.ownerId = ownerId) (tenant : args.tenantId = tenantId)
      (isKey : args.idempotencyKey = key) (created : Memory.create args = .ok r.memory)
      (unused : ∀ k, r.memory.idempotencyKey = some k →
        s.fingerprints.get? (r.memory.ownerId, k) = none) :
      WriteCases svc s ownerId tenantId key fingerprint r
        (s.putNew r.memory fingerprint vector)

/-- What a successful `create` at the end of write or capture did. -/
theorem create_cases {svc : MemoryApplicationService R} {args : Memory.CreateArgs R}
    {fp : String} {vector : List R} {m : Memory R} {r : WriteMemoryResult R}
    {s s' : InMemoryStore R} (hid : args.memoryId = svc.uuid4) (hm : Memory.create args = .ok m)
    (h : (InMemoryMemoryRepository.create m fp vector).run s = .ok (r, s')) :
    WriteCases svc s args.ownerId args.tenantId args.idempotencyKey fp r s' := by
  obtain ⟨-, howner, -, -, hkey, -⟩ := Memory.create_ok hm
  rcases InMemoryMemoryRepository.create_ok h with ⟨rfl, rfl, hun⟩ | ⟨k, hk, hfp, hfirst, rfl⟩
  · exact .wrote hid rfl rfl rfl hm hun
  · rw [howner] at hfp hfirst
    exact .reread (hkey ▸ hk) hfp hfirst

/-- A key that is found with the same fingerprint is re-read. -/
theorem reread_cases {svc : MemoryApplicationService R} {o fp message : String}
    {t key : Option String} {k : String} {l : IdempotencyLookup R} {r : WriteMemoryResult R}
    {s s' : InMemoryStore R} (hkey : key = some k)
    (hfp : s.fingerprints.get? (o, k) = some l.fingerprint)
    (hfirst : s.firstWithKey o k = some l.memory)
    (h : (do
      raiseIf (decide (l.fingerprint ≠ fp)) (.omp .idempotencyConflictError message)
      pure { memory := l.memory, created := false } : StoreTxn R (WriteMemoryResult R)).run s
        = .ok (r, s')) : WriteCases svc s o t key fp r s' := by
  simp only [Txn.bind_ok, raiseIf_ok, Txn.pure_ok] at h
  obtain ⟨_, _, ⟨hsame, rfl⟩, rfl, rfl⟩ := h
  have hsame : l.fingerprint = fp := by simpa using hsame
  exact .reread hkey (hsame ▸ hfp) hfirst

/-- What a new write does. -/
theorem writeNew_ok {svc : MemoryApplicationService R} {c : WriteMemoryCommand R}
    {at_ : DateTime} {fp : String} {r : WriteMemoryResult R} {s s' : InMemoryStore R}
    (h : (svc.writeNew (inMemoryUnitOfWork R) c at_ fp).run s = .ok (r, s')) :
    WriteCases svc s c.ownerId c.tenantId c.idempotencyKey fp r s' := by
  simp only [writeNew, Txn.bind_ok, Txn.ofExcept_ok, inMemoryUnitOfWork] at h
  obtain ⟨vector, _, hvec, descriptor, _, ⟨-, rfl⟩, m, _, ⟨hm, rfl⟩, hcreate⟩ := h
  obtain ⟨-, -, rfl⟩ := embedChecked_ok hvec
  exact create_cases rfl hm hcreate

/-- A successful write re-read the memory of its key or stored a new one. -/
theorem write_ok {svc : MemoryApplicationService R} {c : WriteMemoryCommand R}
    {r : WriteMemoryResult R} {s s' : InMemoryStore R}
    (h : (svc.write (inMemoryUnitOfWork R) c).run s = .ok (r, s')) :
    WriteCases svc s c.ownerId c.tenantId c.idempotencyKey (fingerprintWriteCommand c) r s' := by
  simp only [write, Txn.bind_ok, Txn.ofExcept_ok] at h
  obtain ⟨_, _, ⟨-, rfl⟩, at_, _, hat, h⟩ := h
  obtain ⟨-, rfl⟩ := now_ok hat
  cases hkey : truthyKey c.idempotencyKey with
  | none =>
    rw [hkey] at h
    exact writeNew_ok h
  | some k =>
    rw [hkey] at h
    obtain ⟨prior, s₁, hfind, h⟩ := Txn.bind_ok.mp h
    obtain ⟨rfl, ⟨rfl, -⟩ | ⟨l, rfl, hfp, hfirst⟩⟩ :=
      InMemoryMemoryRepository.findByIdempotencyKey_ok hfind
    · exact writeNew_ok h
    · exact reread_cases (truthyKey_eq_some.mp hkey).1 hfp hfirst h

/-- A write that changes the store has made a memory that passes the checks of the domain. -/
theorem writeNew_created {svc : MemoryApplicationService R} {c : WriteMemoryCommand R}
    {at_ : DateTime} {fp : String} {r : WriteMemoryResult R} {s s' : InMemoryStore R}
    (h : (svc.writeNew (inMemoryUnitOfWork R) c at_ fp).run s = .ok (r, s')) :
    s' = s ∨ ∃ descriptor, Memory.create (svc.writeArgs c at_ descriptor) = .ok r.memory := by
  simp only [writeNew, Txn.bind_ok, Txn.ofExcept_ok, inMemoryUnitOfWork] at h
  obtain ⟨vector, _, hvec, descriptor, _, ⟨-, rfl⟩, m, _, ⟨hm, rfl⟩, hcreate⟩ := h
  obtain ⟨-, -, rfl⟩ := embedChecked_ok hvec
  rcases InMemoryMemoryRepository.create_ok hcreate with ⟨rfl, -, -⟩ | ⟨_, -, -, -, rfl⟩
  · exact .inr ⟨descriptor, hm⟩
  · exact .inl rfl

/-- A write that changes the store returns the memory that it asked for. -/
theorem write_created {svc : MemoryApplicationService R} {c : WriteMemoryCommand R}
    {r : WriteMemoryResult R} {s s' : InMemoryStore R}
    (h : (svc.write (inMemoryUnitOfWork R) c).run s = .ok (r, s')) :
    s' = s ∨ ∃ at_ descriptor, Memory.create (svc.writeArgs c at_ descriptor) = .ok r.memory := by
  simp only [write, Txn.bind_ok, Txn.ofExcept_ok] at h
  obtain ⟨_, _, ⟨-, rfl⟩, at_, _, hat, h⟩ := h
  obtain ⟨-, rfl⟩ := now_ok hat
  cases hkey : truthyKey c.idempotencyKey with
  | none =>
    rw [hkey] at h
    exact (writeNew_created h).imp_right fun hnew => ⟨at_, hnew⟩
  | some k =>
    rw [hkey] at h
    obtain ⟨prior, s₁, hfind, h⟩ := Txn.bind_ok.mp h
    obtain ⟨rfl, ⟨rfl, -⟩ | ⟨l, rfl, -, -⟩⟩ :=
      InMemoryMemoryRepository.findByIdempotencyKey_ok hfind
    · exact (writeNew_created h).imp_right fun hnew => ⟨at_, hnew⟩
    · simp only [Txn.bind_ok, raiseIf_ok, Txn.pure_ok] at h
      obtain ⟨_, _, ⟨-, rfl⟩, -, rfl⟩ := h
      exact .inl rfl

theorem validateCapture_ok {c : CaptureMemoryCommand R} {u : Unit} {s s' : InMemoryStore R}
    (h : (validateCapture c : StoreTxn R Unit).run s = .ok (u, s')) : s' = s := by
  simp only [validateCapture, validateScope, validateScopeValue, validateConnection,
    Txn.bind_ok, Txn.ofExcept_ok, raiseIf_ok] at h
  obtain ⟨_, _, ⟨-, rfl⟩, _, _, ⟨-, rfl⟩, _, _, ⟨-, rfl⟩, _, _, ⟨-, rfl⟩, _, _, ⟨-, rfl⟩,
    _, _, ⟨-, rfl⟩, _, _, ⟨-, rfl⟩, _, _, ⟨-, rfl⟩, _, _, ⟨-, rfl⟩, -, rfl⟩ := h
  rfl

/-- A successful capture re-read the memory of its key or stored a new candidate. -/
theorem capture_ok {svc : MemoryApplicationService R} {c : CaptureMemoryCommand R}
    {r : WriteMemoryResult R} {s s' : InMemoryStore R}
    (h : (svc.capture (inMemoryUnitOfWork R) c).run s = .ok (r, s')) :
    WriteCases svc s c.ownerId (some c.tenantId) (some c.idempotencyKey)
      (fingerprintCaptureCommand c) r s' := by
  obtain ⟨_, s₀, hval, hbody⟩ := Txn.bind_ok.mp h
  obtain rfl := validateCapture_ok hval
  obtain ⟨prior, s₁, hfind, hbody⟩ := Txn.bind_ok.mp hbody
  obtain ⟨rfl, ⟨rfl, -⟩ | ⟨l, rfl, hfp, hfirst⟩⟩ :=
    InMemoryMemoryRepository.findByIdempotencyKey_ok hfind
  · dsimp only at hbody
    simp only [Txn.bind_ok, Txn.ofExcept_ok, inMemoryUnitOfWork] at hbody
    obtain ⟨vector, _, hvec, descriptor, _, ⟨-, rfl⟩, at_, _, hat, m, _, ⟨hm, rfl⟩, hcreate⟩ :=
      hbody
    obtain ⟨-, rfl⟩ := now_ok hat
    obtain ⟨-, -, rfl⟩ := embedChecked_ok hvec
    exact create_cases rfl hm hcreate
  · exact reread_cases rfl hfp hfirst hbody

/-! ### Mutations under the ledger -/

/-- The memory is there, at the expected version. -/
theorem currentAt_ok {o : String} {t : Option String} {i : UUID} {v : Int}
    {message : Memory R → String} {m : Memory R} {s s' : InMemoryStore R}
    (h : (currentAt (inMemoryUnitOfWork R) o t i v message).run s = .ok (m, s')) :
    s.lookup o i t = some m ∧ m.version = v ∧ s' = s := by
  obtain ⟨current, s₁, hget, h⟩ := Txn.bind_ok.mp h
  replace hget : Except.ok (s.lookup o i t, s) = Except.ok (current, s₁) := hget
  cases hget
  cases hm : s.lookup o i t with
  | none =>
    rw [hm] at h
    cases h
  | some m₀ =>
    rw [hm] at h
    dsimp only at h
    simp only [Txn.bind_ok, raiseIf_ok, Txn.pure_ok] at h
    obtain ⟨_, _, ⟨hv, rfl⟩, rfl, rfl⟩ := h
    exact ⟨rfl, by simpa using hv, rfl⟩

/-- The version a replayed mutation reads. -/
def replayedVersion (prior : StoredIdempotencyOperation) (expectedVersion : Int) : Int :=
  (prior.resultVersion.filter fun v => decide (v ≠ 0)).getD expectedVersion

/-- What is replayed is a version that the store still has. -/
theorem replayVersion_ok {o : String} {t : Option String} {claim : IdempotencyClaim} {i : UUID}
    {v : Int} {m : Memory R} {s s' : InMemoryStore R}
    (h : (replayVersion (inMemoryUnitOfWork R) o t claim i v).run s = .ok (m, s')) :
    s.versionAt o (claim.memoryId.getD i)
      ((claim.resultVersion.filter fun v => decide (v ≠ 0)).getD v) t = .ok (some m) ∧ s' = s := by
  obtain ⟨found, s₁, hget, h⟩ := Txn.bind_ok.mp h
  replace hget : (InMemoryMemoryRepository.getVersion o (claim.memoryId.getD i)
    ((claim.resultVersion.filter fun v => decide (v ≠ 0)).getD v) t).run s
      = .ok (found, s₁) := hget
  rw [getVersion_run] at hget
  cases hv : s.versionAt o (claim.memoryId.getD i)
      ((claim.resultVersion.filter fun v => decide (v ≠ 0)).getD v) t with
  | error e =>
    rw [hv] at hget
    cases hget
  | ok found' =>
    rw [hv] at hget
    cases hget
    cases found with
    | none => cases h
    | some m₀ =>
      obtain ⟨rfl, rfl⟩ := Txn.pure_ok.mp h
      exact ⟨rfl, rfl⟩

/-- The scope is there. -/
theorem validateScope_ok {σ : Type} {scopes : Finset String} {required : String} {u : Unit}
    {s s' : σ} (h : (validateScope scopes required : Txn σ PyError Unit).run s = .ok (u, s')) :
    required ∈ scopes ∧ s' = s := by
  obtain ⟨hmem, rfl⟩ := raiseIf_ok.mp h
  exact ⟨by simpa using hmem, rfl⟩

/-- Tenant, owner and connection have been checked. -/
theorem validateMutationScope_ok {σ : Type} {tenantId ownerId : String} {revoked : Bool}
    {u : Unit} {s s' : σ}
    (h : (validateMutationScope tenantId ownerId revoked : Txn σ PyError Unit).run s
      = .ok (u, s')) :
    (isBlank tenantId = false ∧ revoked = false ∧ ∃ o, validateOwnerId ownerId = .ok o) ∧
      s' = s := by
  simp only [validateMutationScope, validateScopeValue, validateConnection, Txn.bind_ok,
    Txn.ofExcept_ok, raiseIf_ok] at h
  obtain ⟨_, _, ⟨htenant, rfl⟩, o, _, ⟨howner, rfl⟩, hrevoked, rfl⟩ := h
  exact ⟨⟨htenant, hrevoked, o, howner⟩, rfl⟩

end MemoryApplicationService

namespace InMemoryStore

variable {s s' : InMemoryStore R}

/-- A ledger entry does not affect what a new version reads and writes. -/
theorem NewVersion.of_record {o : String} {i : UUID} {t : Option String} {v : Int}
    {args : Memory.EvolveArgs R} {m m' : Memory R} {key : OperationKey}
    {entry : StoredIdempotencyOperation}
    (h : NewVersion (s.record key entry) o i t v args m m' s') :
    ∃ s₁, NewVersion s o i t v args m m' s₁ ∧ s' = s₁.record key entry := by
  obtain ⟨history, reason, vector, hh, rfl⟩ := h.stored
  exact ⟨s.putVersion m' history (m'.snapshot reason) vector,
    ⟨h.live, h.version, h.evolved, history, reason, vector, hh, rfl⟩, rfl⟩

/-- The later entry under a key of the ledger counts. -/
theorem record_record (s : InMemoryStore R) (key : OperationKey)
    (entry entry' : StoredIdempotencyOperation) :
    (s.record key entry).record key entry' = s.record key entry' := by
  simp [record]

theorem get?_record (s : InMemoryStore R) (key : OperationKey)
    (entry : StoredIdempotencyOperation) :
    (s.record key entry).idempotencyOperations.get? key = some entry :=
  Dict.get?_set_self _ _ _

/-- Completing the entry a claim left: the in-progress entry is overwritten. -/
theorem completed_record {s₁ s₂ : InMemoryStore R} {c : IdempotencyClaim} {i : Option UUID}
    {v : Option Int} {st : String} {u : Unit}
    (hs₁ : s₁ = s₂.record (c.ownerId, c.operationType, c.idempotencyKey)
      { fingerprint := c.fingerprint })
    (h : (InMemoryIdempotencyRepository.complete c i v st).run s₁ = .ok (u, s')) :
    s' = s₂.record (c.ownerId, c.operationType, c.idempotencyKey)
      { fingerprint := c.fingerprint, status := .completed, memoryId := i, resultVersion := v,
        resultStatus := some st } := by
  subst hs₁
  rw [InMemoryIdempotencyRepository.complete_ok (get?_record _ _ _) h, record_record]

/-- Storing what `evolve` returned. -/
theorem newVersion_of_update {o : String} {i : UUID} {t : Option String} {v v' : Int}
    {args : Memory.EvolveArgs R} {m m' r : Memory R} {reason : String} {vector : List R}
    (hlive : s.lookup o i t = some m) (hv : m.version = v) (hevolve : m.evolve args = .ok m')
    (h : (InMemoryMemoryRepository.update m' v' (m'.snapshot reason) vector).run s
      = .ok (r, s')) : r = m' ∧ NewVersion s o i t v args m m' s' := by
  obtain ⟨rfl, -, history, -, -, -, hh, rfl⟩ := InMemoryMemoryRepository.update_ok h
  exact ⟨rfl, hlive, hv, hevolve, history, reason, vector, hh, rfl⟩

end InMemoryStore

namespace MemoryApplicationService

open InMemoryStore

/-- What a confirm, pin or update under `key` has done. The entry it leaves names the
memory and version it returned. -/
abbrev Mutated (s : InMemoryStore R) (ownerId : String) (tenantId : Option String)
    (operationType : IdempotencyOperationType) (key fingerprint : String) (memoryId : UUID)
    (expectedVersion : Int) (body : Memory R → InMemoryStore R → Prop) (r : Memory R)
    (s' : InMemoryStore R) : Prop :=
  Ledgered s (ownerId, operationType, key) fingerprint
    (fun prior => s.versionAt ownerId (prior.memoryId.getD memoryId)
      (replayedVersion prior expectedVersion) tenantId = .ok (some r))
    (fun s₁ entry => body r s₁ ∧ entry.memoryId = some r.id ∧
      entry.resultVersion = some r.version) s'

/-- What `confirm_candidate` does, the first time and on a replay. -/
theorem confirmCandidate_ok {svc : MemoryApplicationService R} {c : ConfirmCandidateCommand}
    {r : Memory R} {s s' : InMemoryStore R}
    (h : (svc.confirmCandidate (inMemoryUnitOfWork R) c).run s = .ok (r, s')) :
    Mutated s c.ownerId (some c.tenantId) .confirm c.idempotencyKey (fingerprintConfirmCommand R c)
      c.memoryId c.expectedVersion
      (fun r s₁ => ∃ m at_ descriptor, svc.embeddingProvider.profile.descriptor = .ok descriptor ∧
        NewVersion s c.ownerId c.memoryId (some c.tenantId) c.expectedVersion
          { now := at_, state := some .confirmed, changeReason := c.actorReason,
            embedding := some (some descriptor), content := c.content,
            memoryType := c.memoryType, space := c.space.map some } m r s₁) r s' := by
  simp only [confirmCandidate, Txn.bind_ok, inMemoryUnitOfWork] at h
  obtain ⟨_, _, hscope, _, _, hmut, claim, s₁, hclaim, h⟩ := h
  obtain ⟨-, rfl⟩ := validateScope_ok hscope
  obtain ⟨-, rfl⟩ := validateMutationScope_ok hmut
  rcases InMemoryIdempotencyRepository.claim_ok hclaim with
    ⟨rfl, hnew, rfl⟩ | ⟨prior, hprior, rfl, rfl⟩
  -- first execution: the next version, and the completed claim
  · simp only [Bool.false_eq_true, if_false, Txn.bind_ok, raiseIf_ok, Txn.ofExcept_ok,
      Txn.pure_ok] at h
    obtain ⟨m, _, hcur, _, _, ⟨-, rfl⟩, at_, _, hat, descriptor, _, ⟨hdesc, rfl⟩, m', _,
      ⟨hevolve, rfl⟩, vector, _, hvec, persisted, s₂, hupd, _, _, hdone, rfl, rfl⟩ := h
    obtain ⟨hlive, hv, rfl⟩ := currentAt_ok hcur
    obtain ⟨-, rfl⟩ := now_ok hat
    obtain ⟨-, -, rfl⟩ := embedChecked_ok hvec
    obtain ⟨rfl, hver⟩ := newVersion_of_update hlive hv hevolve hupd
    obtain ⟨s₃, hver, hs₂⟩ := hver.of_record
    rw [completed_record hs₂ hdone]
    exact .executed hnew ⟨⟨m, at_, descriptor, hdesc, hver⟩, rfl, rfl⟩ rfl rfl
  -- replay
  · simp only [if_true] at h
    obtain ⟨hread, rfl⟩ := replayVersion_ok h
    exact .replayed hprior hread

/-- `pin` stores a new version, or finds the memory already in the target state. -/
theorem pin_ok {svc : MemoryApplicationService R} {c : PinMemoryCommand} {r : Memory R}
    {s s' : InMemoryStore R} (h : (svc.pin (inMemoryUnitOfWork R) c).run s = .ok (r, s')) :
    Mutated s c.ownerId (some c.tenantId) .pin c.idempotencyKey (fingerprintPinCommand R c)
      c.memoryId c.expectedVersion
      (fun r s₁ =>
        (s.lookup c.ownerId c.memoryId (some c.tenantId) = some r ∧ s₁ = s) ∨
        ∃ m args, args.embedding = none ∧
          NewVersion s c.ownerId c.memoryId (some c.tenantId) c.expectedVersion args m r s₁)
      r s' := by
  simp only [pin, Txn.bind_ok, inMemoryUnitOfWork] at h
  obtain ⟨_, _, hscope, _, _, hmut, claim, s₁, hclaim, h⟩ := h
  obtain ⟨-, rfl⟩ := validateScope_ok hscope
  obtain ⟨-, rfl⟩ := validateMutationScope_ok hmut
  rcases InMemoryIdempotencyRepository.claim_ok hclaim with
    ⟨rfl, hnew, rfl⟩ | ⟨prior, hprior, rfl, rfl⟩
  · simp only [Bool.false_eq_true, if_false, Txn.bind_ok, raiseIf_ok] at h
    obtain ⟨m, _, hcur, _, _, ⟨-, rfl⟩, h⟩ := h
    obtain ⟨hlive, hv, rfl⟩ := currentAt_ok hcur
    -- pinned already: only the claim is completed
    by_cases hst : m.state = if c.pinned then MemoryState.pinned else MemoryState.confirmed
    · simp only [hst, if_true, Txn.bind_ok, Txn.pure_ok] at h
      obtain ⟨_, _, hdone, rfl, rfl⟩ := h
      rw [completed_record rfl hdone]
      exact .executed hnew ⟨.inl ⟨hlive, rfl⟩, rfl, rfl⟩ rfl rfl
    -- otherwise the next version
    · simp only [hst, if_false, Txn.bind_ok, Txn.ofExcept_ok, Txn.pure_ok] at h
      obtain ⟨at_, _, hat, m', _, ⟨hevolve, rfl⟩, vector, _, hvec, persisted, s₂, hupd, _, _,
        hdone, rfl, rfl⟩ := h
      obtain ⟨-, rfl⟩ := now_ok hat
      obtain ⟨-, -, rfl⟩ := embedChecked_ok hvec
      obtain ⟨rfl, hver⟩ := newVersion_of_update hlive hv hevolve hupd
      obtain ⟨s₃, hver, hs₂⟩ := hver.of_record
      rw [completed_record hs₂ hdone]
      exact .executed hnew ⟨.inr ⟨m, _, rfl, hver⟩, rfl, rfl⟩ rfl rfl
  -- replay
  · simp only [if_true] at h
    obtain ⟨hread, rfl⟩ := replayVersion_ok h
    exact .replayed hprior hread

/-- The target of a relation is another memory of the owner. -/
theorem checkRelated_ok {o : String} {m : Memory R} {rel : Option (RelationType × UUID)}
    {u : Unit} {s s' : InMemoryStore R}
    (h : (checkRelated (inMemoryUnitOfWork R) o m rel).run s = .ok (u, s')) :
    s' = s ∧ ∀ p, rel = some p → p.2 ≠ m.id ∧ (s.lookup o p.2 none).isSome := by
  cases rel with
  | none =>
    obtain ⟨-, rfl⟩ := Txn.pure_ok.mp h
    exact ⟨rfl, fun p hp => nomatch hp⟩
  | some p =>
    obtain ⟨rt, target⟩ := p
    simp only [checkRelated, Txn.bind_ok, raiseIf_ok] at h
    obtain ⟨_, _, ⟨hne, rfl⟩, found, _, hget, hsome, rfl⟩ := h
    cases hget
    refine ⟨rfl, ?_⟩
    rintro p ⟨⟩
    exact ⟨by simpa using hne, by simpa [Option.isSome_iff_ne_none] using hsome⟩

/-- The relation an update asked for has been added, if it asked for one. -/
def RelationStored (ownerId : String) (sourceId : UUID) (rel : Option (RelationType × UUID))
    (s s' : InMemoryStore R) : Prop :=
  match rel with
  | none => s' = s
  | some (relationType, targetId) => ∃ r : Relation, r.ownerId = ownerId ∧ r.sourceId = sourceId ∧
      r.targetId = targetId ∧ r.relationType = relationType ∧ s.Relatable r ∧
      s' = s.addRelation r

/-- What storing the relation of an update does. -/
theorem storeRelation_ok {svc : MemoryApplicationService R} {o : String} {source : UUID}
    {rel : Option (RelationType × UUID)} {u : Unit} {s s' : InMemoryStore R}
    (h : (svc.storeRelation (inMemoryUnitOfWork R) o source rel).run s = .ok (u, s')) :
    RelationStored o source rel s s' := by
  cases rel with
  | none => exact (Txn.pure_ok.mp h).2
  | some p =>
    obtain ⟨rt, target⟩ := p
    simp only [storeRelation, Txn.bind_ok, Txn.ofExcept_ok, Txn.pure_ok, inMemoryUnitOfWork] at h
    obtain ⟨at_, _, hat, r, _, ⟨hr, rfl⟩, _, _, hadd, -, rfl⟩ := h
    obtain ⟨-, rfl⟩ := now_ok hat
    obtain ⟨-, hrel, rfl⟩ := InMemoryMemoryRepository.addRelation_ok hadd
    obtain hf := Relation.make_ok hr
    exact ⟨r, by rw [hf], by rw [hf], by rw [hf], by rw [hf], hrel, rfl⟩

/-- What the body of an update does: a new version, then the relation. -/
def Updated (svc : MemoryApplicationService R) (c : UpdateMemoryCommand R)
    (s : InMemoryStore R) (r : Memory R) (s' : InMemoryStore R) : Prop :=
  ∃ m at_ descriptor s₁, svc.embeddingProvider.profile.descriptor = .ok descriptor ∧
    NewVersion s c.ownerId c.memoryId none c.expectedVersion (updateArgs c at_ descriptor) m r s₁ ∧
    RelationStored c.ownerId r.id (requestedRelation c) s₁ s'

/-- What the body of an update does. -/
theorem updateBody_ok {svc : MemoryApplicationService R} {c : UpdateMemoryCommand R}
    {r : Memory R} {s s' : InMemoryStore R}
    (h : (svc.updateBody (inMemoryUnitOfWork R) c).run s = .ok (r, s')) :
    Updated svc c s r s' := by
  simp only [updateBody, Txn.bind_ok, Txn.ofExcept_ok, Txn.pure_ok, raiseIf_ok] at h
  obtain ⟨m, _, hcur, at_, _, hat, _, _, ⟨-, rfl⟩, _, _, hrel, descriptor, _, ⟨hdesc, rfl⟩, m', _,
    ⟨hevolve, rfl⟩, vector, _, hvec, persisted, s₂, hupd, _, _, hstore, rfl, rfl⟩ := h
  obtain ⟨hlive, hv, rfl⟩ := currentAt_ok hcur
  obtain ⟨-, rfl⟩ := now_ok hat
  obtain ⟨rfl, -⟩ := checkRelated_ok hrel
  obtain ⟨-, -, rfl⟩ := embedChecked_ok hvec
  obtain ⟨rfl, hver⟩ := newVersion_of_update hlive hv hevolve hupd
  exact ⟨m, at_, descriptor, s₂, hdesc, hver, storeRelation_ok hstore⟩

/-- An entry in the ledger does not matter to an update. -/
theorem Updated.of_record {svc : MemoryApplicationService R} {c : UpdateMemoryCommand R}
    {r : Memory R} {s s' : InMemoryStore R} {key : OperationKey}
    {entry : StoredIdempotencyOperation} (h : Updated svc c (s.record key entry) r s') :
    ∃ s₁, Updated svc c s r s₁ ∧ s' = s₁.record key entry := by
  obtain ⟨m, at_, descriptor, s₁, hdesc, hrec, hrel⟩ := h
  obtain ⟨s₂, hver, rfl⟩ := hrec.of_record
  unfold RelationStored at hrel
  cases hreq : requestedRelation c with
  | none =>
    rw [hreq] at hrel
    exact ⟨s₂, ⟨m, at_, descriptor, s₂, hdesc, hver, by rw [hreq]; rfl⟩, hrel⟩
  | some p =>
    rw [hreq] at hrel
    obtain ⟨q, h₁, h₂, h₃, h₄, hq, rfl⟩ := hrel
    refine ⟨s₂.addRelation q, ⟨m, at_, descriptor, s₂, hdesc, hver, ?_⟩, rfl⟩
    rw [hreq]
    exact ⟨q, h₁, h₂, h₃, h₄, ⟨hq.source, hq.target, hq.new⟩, rfl⟩

/-- A successful update without a key ran its body; under a key it may be a replay. -/
theorem update_ok {svc : MemoryApplicationService R} {c : UpdateMemoryCommand R} {r : Memory R}
    {s s' : InMemoryStore R} (h : (svc.update (inMemoryUnitOfWork R) c).run s = .ok (r, s')) :
    (truthyKey c.idempotencyKey = none ∧ Updated svc c s r s') ∨
    ∃ k, truthyKey c.idempotencyKey = some k ∧
      Mutated s c.ownerId none .update k (fingerprintUpdateCommand c) c.memoryId
        c.expectedVersion (Updated svc c s) r s' := by
  simp only [update, Txn.bind_ok, Txn.ofExcept_ok] at h
  obtain ⟨_, _, ⟨-, rfl⟩, h⟩ := h
  cases hkey : truthyKey c.idempotencyKey with
  | none =>
    rw [hkey] at h
    exact .inl ⟨rfl, updateBody_ok h⟩
  | some k =>
    rw [hkey] at h
    refine .inr ⟨k, rfl, ?_⟩
    obtain ⟨claim, s₁, hclaim, hrest⟩ := Txn.bind_ok.mp h
    rcases InMemoryIdempotencyRepository.claim_ok hclaim with
      ⟨rfl, hnew, rfl⟩ | ⟨prior, hprior, rfl, rfl⟩
    -- first execution, with the ledger entry carried through
    · simp only [Bool.false_eq_true, if_false, Txn.bind_ok, Txn.pure_ok] at hrest
      obtain ⟨persisted, s₂, hbody, _, _, hdone, rfl, rfl⟩ := hrest
      obtain ⟨s₃, hup, hs₂⟩ := (updateBody_ok hbody).of_record
      rw [completed_record hs₂ hdone]
      exact .executed hnew ⟨hup, rfl, rfl⟩ rfl rfl
    -- replay
    · simp only [if_true] at hrest
      obtain ⟨hread, rfl⟩ := replayVersion_ok hrest
      exact .replayed hprior hread

/-! ### Deletions -/

/-- What `forget` at the repository does: nothing, or the removal of a live memory. -/
def Forgot (s : InMemoryStore R) (ownerId : String) (memoryId : UUID) (tenantId : Option String)
    (forgotten : Bool) (s' : InMemoryStore R) : Prop :=
  (forgotten = false ∧ s.lookup ownerId memoryId tenantId = none ∧ s' = s) ∨
    ∃ m, forgotten = true ∧ s.lookup ownerId memoryId tenantId = some m ∧
      s' = s.remove ownerId m memoryId

/-- Nor to a removal. -/
theorem Forgot.of_record {s s' : InMemoryStore R} {o : String} {i : UUID} {t : Option String}
    {b : Bool} {key : OperationKey} {entry : StoredIdempotencyOperation}
    (h : Forgot (s.record key entry) o i t b s') :
    ∃ s₁, Forgot s o i t b s₁ ∧ s' = s₁.record key entry := by
  rcases h with ⟨rfl, hnone, rfl⟩ | ⟨m, rfl, hm, rfl⟩
  · exact ⟨s, .inl ⟨rfl, hnone, rfl⟩, rfl⟩
  · exact ⟨s.remove o m i, .inr ⟨m, rfl, hm, rfl⟩, rfl⟩

/-- What `discard_candidate` does, the first time and on a replay. -/
theorem discardCandidate_ok {c : DiscardCandidateCommand} {r : ForgetMemoryResult}
    {s s' : InMemoryStore R}
    (h : (discardCandidate (inMemoryUnitOfWork R) c).run s = .ok (r, s')) :
    Ledgered s (c.ownerId, .discard, c.idempotencyKey) (fingerprintDiscardCommand R c)
      (fun _ => True)
      (fun s₁ _ => r.memoryId = c.memoryId ∧
        Forgot s c.ownerId c.memoryId (some c.tenantId) r.forgotten s₁) s' := by
  simp only [discardCandidate, Txn.bind_ok, inMemoryUnitOfWork] at h
  obtain ⟨_, _, hscope, _, _, hmut, claim, s₁, hclaim, h⟩ := h
  obtain ⟨-, rfl⟩ := validateScope_ok hscope
  obtain ⟨-, rfl⟩ := validateMutationScope_ok hmut
  rcases InMemoryIdempotencyRepository.claim_ok hclaim with
    ⟨rfl, hnew, rfl⟩ | ⟨prior, hprior, rfl, rfl⟩
  · simp only [Bool.false_eq_true, if_false, Txn.bind_ok, raiseIf_ok, Txn.pure_ok] at h
    obtain ⟨m, _, hcur, _, _, ⟨-, rfl⟩, forgotten, s₂, hforget, _, _, hdone, rfl, rfl⟩ := h
    obtain ⟨-, -, rfl⟩ := currentAt_ok hcur
    obtain ⟨s₃, hforgot, hs₂⟩ :=
      Forgot.of_record (InMemoryMemoryRepository.forget_ok hforget)
    rw [completed_record hs₂ hdone]
    exact .executed hnew ⟨rfl, hforgot⟩ rfl rfl
  · simp only [if_true] at h
    obtain ⟨-, rfl⟩ := Txn.pure_ok.mp h
    exact .replayed hprior trivial

/-- A successful forget without a key deleted; under a key it may be a replay. -/
theorem forget_ok {c : ForgetMemoryCommand} {r : ForgetMemoryResult} {s s' : InMemoryStore R}
    (h : (forget (inMemoryUnitOfWork R) c).run s = .ok (r, s')) :
    (truthyKey c.idempotencyKey = none ∧
      Forgot s c.ownerId c.memoryId c.tenantId r.forgotten s') ∨
    ∃ k, truthyKey c.idempotencyKey = some k ∧
      Ledgered s (c.ownerId, .forget, k) (fingerprintForgetCommand R c) (fun _ => True)
        (fun s₁ _ => Forgot s c.ownerId c.memoryId c.tenantId r.forgotten s₁) s' := by
  simp only [forget, Txn.bind_ok, Txn.ofExcept_ok] at h
  obtain ⟨_, _, ⟨-, rfl⟩, h⟩ := h
  cases hkey : truthyKey c.idempotencyKey with
  | none =>
    rw [hkey] at h
    simp only [Txn.bind_ok, Txn.pure_ok] at h
    obtain ⟨forgotten, s₁, hforget, rfl, rfl⟩ := h
    exact .inl ⟨rfl, InMemoryMemoryRepository.forget_ok hforget⟩
  | some k =>
    rw [hkey] at h
    refine .inr ⟨k, rfl, ?_⟩
    obtain ⟨claim, s₁, hclaim, hrest⟩ := Txn.bind_ok.mp h
    rcases InMemoryIdempotencyRepository.claim_ok hclaim with
      ⟨rfl, hnew, rfl⟩ | ⟨prior, hprior, rfl, rfl⟩
    -- first execution: what is forgotten, and the completed claim
    · simp only [Bool.false_eq_true, if_false, Txn.bind_ok, Txn.pure_ok] at hrest
      obtain ⟨forgotten, s₂, hforget, _, _, hdone, rfl, rfl⟩ := hrest
      obtain ⟨s₃, hforgot, hs₂⟩ :=
        Forgot.of_record (InMemoryMemoryRepository.forget_ok hforget)
      rw [completed_record hs₂ hdone]
      exact .executed hnew hforgot rfl rfl
    -- replay
    · simp only [if_true] at hrest
      obtain ⟨-, rfl⟩ := Txn.pure_ok.mp hrest
      exact .replayed hprior trivial

/-! ### Relations -/

/-- What `relate` does. -/
theorem relate_ok {svc : MemoryApplicationService R} {c : RelateMemoriesCommand} {r : Relation}
    {s s' : InMemoryStore R} (h : (svc.relate (inMemoryUnitOfWork R) c).run s = .ok (r, s')) :
    r.ownerId = c.ownerId ∧ s.Relatable r ∧ s' = s.addRelation r := by
  simp only [relate, Txn.bind_ok, Txn.ofExcept_ok] at h
  obtain ⟨_, _, ⟨-, rfl⟩, h⟩ := h
  cases hrt : RelationType.ofValue c.relationType with
  | none =>
    rw [hrt] at h
    cases h
  | some rt =>
    rw [hrt] at h
    simp only [Txn.bind_ok, raiseIf_ok] at h
    obtain ⟨_, s₁, ⟨-, rfl⟩, source, _, hsource, target, _, htarget, h⟩ := h
    cases hsource
    cases htarget
    -- both memories are live
    cases hs : s₁.lookup c.ownerId c.sourceMemoryId none with
    | none =>
      rw [hs] at h
      cases h
    | some source =>
      cases ht : s₁.lookup c.ownerId c.targetMemoryId none with
      | none =>
        rw [hs, ht] at h
        cases h
      | some target =>
        rw [hs, ht] at h
        simp only [Txn.bind_ok, Txn.ofExcept_ok] at h
        obtain ⟨at_, _, hat, rel, _, ⟨hrel, rfl⟩, hadd⟩ := h
        obtain ⟨-, rfl⟩ := now_ok hat
        obtain ⟨rfl, hable, rfl⟩ := InMemoryMemoryRepository.addRelation_ok hadd
        exact ⟨by rw [Relation.make_ok hrel], hable, rfl⟩

/-! ### Reads -/

theorem readOnly_raiseIf (b : Bool) (e : PyError) :
    Txn.ReadOnly (raiseIf b e : StoreTxn R Unit) :=
  fun _ _ _ h => (raiseIf_ok.mp h).2

theorem readOnly_embedChecked (svc : MemoryApplicationService R) (text : String) (query : Bool) :
    Txn.ReadOnly (svc.embedChecked text query : StoreTxn R (List R)) :=
  fun _ _ _ h => (embedChecked_ok h).2.2

/-- A search ranks all candidates and cuts the list at the limit. -/
theorem searchCandidates_run (o : String) (t : Option String) (q : List R)
    (profile : EmbeddingProfile) (filters : SearchFilters R) (limit : Int)
    (s : InMemoryStore R) :
    (InMemoryMemoryRepository.searchCandidates o t q profile filters limit).run s
      = ((InMemoryMemoryRepository.collectCandidates s o t q profile filters s.memories.items).map
          fun cs => (cs.insertionSort fun a b =>
            InMemoryMemoryRepository.candidateLe a b = true).take limit.toNat).map
              fun cs => (cs, s) := by
  show InMemoryMemoryRepository.searchCandidates o t q profile filters limit s = _
  unfold InMemoryMemoryRepository.searchCandidates
  cases InMemoryMemoryRepository.collectCandidates s o t q profile filters s.memories.items <;> rfl

theorem readOnly_searchCandidates (o : String) (t : Option String) (q : List R)
    (profile : EmbeddingProfile) (filters : SearchFilters R) (limit : Int) :
    Txn.ReadOnly (InMemoryMemoryRepository.searchCandidates o t q profile filters limit) :=
  Txn.ReadOnly.of_run _ (searchCandidates_run o t q profile filters limit)

theorem readOnly_recallCandidates (svc : MemoryApplicationService R) (c : RecallMemoryCommand R)
    (q : List R) (spaces : List (Option String)) :
    Txn.ReadOnly (svc.recallCandidates (inMemoryUnitOfWork R) c q spaces) := by
  induction spaces with
  | nil => exact .pure _
  | cons space rest ih =>
    exact .bind (readOnly_searchCandidates _ _ _ _ _ _) fun _ => .bind ih fun _ => .pure _

/-- Listing the inbox changes nothing. -/
theorem readOnly_listInbox (c : ListInboxCommand) :
    Txn.ReadOnly (listInbox (inMemoryUnitOfWork R) c) :=
  .bind (readOnly_raiseIf _ _) fun _ => .bind (readOnly_raiseIf _ _) fun _ =>
    .bind (.ofExcept _) fun _ => .bind (readOnly_raiseIf _ _) fun _ =>
      .bind (readOnly_raiseIf _ _) fun _ => .bind (.of_run (fun _ => .ok _) fun _ => rfl)
        fun _ => .pure _

theorem stateless_validateRecall (c : RecallMemoryCommand R) :
    Txn.Stateless (validateRecall c : StoreTxn R Unit) (validateRecall c) :=
  .bind (stateless_raiseIf _ _) fun _ => .bind (stateless_raiseIf _ _) fun _ =>
    .bind (.ofExcept _) fun _ => .bind (stateless_raiseIf _ _) fun _ =>
      .bind (stateless_raiseIf _ _) fun _ => .bind (stateless_raiseIf _ _) fun _ =>
        .bind (stateless_raiseIf _ _) fun _ => stateless_raiseIf _ _

theorem stateless_embedChecked (svc : MemoryApplicationService R) (text : String) (query : Bool) :
    Txn.Stateless (svc.embedChecked text query : StoreTxn R (List R))
      (svc.embedChecked text query) :=
  .bind (.ofExcept _) fun _ => .bind (stateless_raiseIf _ _) fun _ => .pure _

/-- Nor does recalling. -/
theorem readOnly_recall (svc : MemoryApplicationService R) (c : RecallMemoryCommand R) :
    Txn.ReadOnly (svc.recall (inMemoryUnitOfWork R) c) :=
  .bind (.of_run _ (stateless_validateRecall c)) fun _ => .bind (readOnly_embedChecked _ _ _) fun _ =>
    .bind (readOnly_recallCandidates _ _ _ _) fun _ => .pure _

/-- Nor does searching. -/
theorem readOnly_search (svc : MemoryApplicationService R) (c : SearchMemoryCommand R) :
    Txn.ReadOnly (svc.search (inMemoryUnitOfWork R) c) :=
  .bind (.ofExcept _) fun _ => .bind (readOnly_raiseIf _ _) fun _ =>
    .bind (readOnly_raiseIf _ _) fun _ => .bind (readOnly_raiseIf _ _) fun _ =>
      .bind (readOnly_raiseIf _ _) fun _ => .bind (readOnly_embedChecked _ _ _) fun _ =>
        .bind (readOnly_searchCandidates _ _ _ _ _ _) fun _ => .bind (.ofExcept _) fun _ => .pure _

/-- Nor does exporting. -/
theorem readOnly_exportMemories (o : String) (e : Bool) :
    Txn.ReadOnly (exportMemories (inMemoryUnitOfWork R) o e) :=
  .bind (.ofExcept _) fun _ => .of_run (fun _ => .ok _) fun _ => rfl

/-! ## Import records -/

/-- What preparation makes of a record: nothing, or the vector that the provider computes of
the memory's content, when the memory is described by the provider's own profile. -/
inductive Prepared (svc : MemoryApplicationService R) :
    MemoryRecordDto R → MemoryRecordDto R → Prop
  | kept (record : MemoryRecordDto R) : Prepared svc record record
  | embedded {record : MemoryRecordDto R} {descriptor : EmbeddingDescriptor} {vector : List R}
      (hdescriptor : record.memory.embedding = some descriptor)
      (hours : svc.embeddingProvider.profile.descriptor = .ok descriptor)
      (hvector : svc.embeddingProvider.embed record.memory.content false = .ok vector) :
      Prepared svc record { record with embedding := some vector }

/-- Preparing records for an import changes nothing but the records. -/
theorem prepareRecords_ok {σ : Type} {svc : MemoryApplicationService R} {existing : List UUID}
    {records prepared : List (MemoryRecordDto R)} {s s' : σ}
    (h : (svc.prepareRecords existing records : Txn σ PyError _).run s = .ok (prepared, s')) :
    s' = s ∧ List.Forall₂ (Prepared svc) records prepared := by
  induction records generalizing prepared s' with
  | nil =>
    obtain ⟨rfl, rfl⟩ := Txn.pure_ok.mp h
    exact ⟨rfl, .nil⟩
  | cons record rest ih =>
    unfold prepareRecords at h
    -- kept as it is, or embedded under the profile of the provider
    by_cases hkeep : record.memory.id ∈ existing ∨ record.embedding.isSome
    · rw [if_pos hkeep] at h
      obtain ⟨more, s₁, hmore, h⟩ := Txn.bind_ok.mp h
      obtain ⟨rfl, rfl⟩ := Txn.pure_ok.mp h
      obtain ⟨rfl, hmap⟩ := ih hmore
      exact ⟨rfl, .cons (.kept record) hmap⟩
    · rw [if_neg hkeep] at h
      cases hd : record.memory.embedding with
      | none =>
        rw [hd] at h
        cases h
      | some descriptor =>
        rw [hd] at h
        simp only [Txn.bind_ok, Txn.ofExcept_ok, raiseIf_ok] at h
        obtain ⟨ours, _, ⟨hours, rfl⟩, _, _, ⟨heq, rfl⟩, vector, _, hvec, more, s₁, hmore, h⟩ := h
        obtain ⟨hvector, -, rfl⟩ := embedChecked_ok hvec
        obtain ⟨rfl, rfl⟩ := Txn.pure_ok.mp h
        obtain ⟨rfl, hmap⟩ := ih hmore
        obtain rfl : descriptor = ours := by simpa using heq
        exact ⟨rfl, .cons (.embedded hd hours hvector) hmap⟩

end MemoryApplicationService

end OpenMemory
