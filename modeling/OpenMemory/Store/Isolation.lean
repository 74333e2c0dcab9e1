import OpenMemory.Lib.Sorting
import OpenMemory.Store.Invariant

/-!
# Owner noninterference

`view o` cuts the store down to what belongs to owner `o`, order included. Memories,
fingerprints, relations, ledger entries and tombstones name their owner; vectors and
histories are keyed by id alone and belong to the owner of the memory under that id.

Two facts make the owners independent.

- A call for `o` acts on the whole store as it acts on the view of `o`
  (`exec_local`): same result or exception, and the view of what it leaves is what
  it leaves of the view. Two stores with one view therefore cannot be told apart.
- A call for `o` leaves every other view alone (`changes_view`), imports included. This
  is where the invariant is needed: `forget` filters the relations of all owners.
-/

namespace OpenMemory

open Lib MemoryApplicationService

namespace InMemoryStore

variable {R : Type} [Python R] {s s' : InMemoryStore R} {o : String}

/-- Is the memory under `i` one of `o`? -/
def owns (s : InMemoryStore R) (o : String) (i : UUID) : Bool :=
  (s.memories.get? i).any fun m => decide (m.ownerId = o)

/-- An owner owns the id of a memory of theirs. -/
theorem owns_iff {i : UUID} : s.owns o i = true ↔ ∃ m, s.memories.get? i = some m ∧ m.ownerId = o := by
  unfold owns
  cases s.memories.get? i <;> simp

/-- Everything that belongs to `o`. -/
def view (o : String) (s : InMemoryStore R) : InMemoryStore R where
  memories := s.memories.filter fun _ m => decide (m.ownerId = o)
  vectors := s.vectors.filter fun i _ => s.owns o i
  fingerprints := s.fingerprints.filter fun key _ => decide (key.1 = o)
  historyByMemory := s.historyByMemory.filter fun i _ => s.owns o i
  relations := s.relations.filter fun _ r => decide (r.ownerId = o)
  idempotencyOperations := s.idempotencyOperations.filter fun key _ => decide (key.1 = o)
  tombstones := s.tombstones.filter fun entry => entry.1 = o

/-! ## Reads -/

theorem get?_view_memories (i : UUID) : (view o s).memories.get? i
    = (s.memories.get? i).filter fun m => decide (m.ownerId = o) :=
  Dict.get?_filter _ _ _

/-- A look-up by the owner finds in their part what it finds in the store. -/
theorem lookup_view (i : UUID) (t : Option String) :
    (view o s).lookup o i t = s.lookup o i t := by
  unfold lookup
  rw [get?_view_memories, Option.filter_filter]
  congr 1
  funext m
  unfold addressable
  cases decide (m.ownerId = o) <;> rfl

/-- What a look-up by the owner finds is theirs. -/
theorem owns_of_lookup {i : UUID} {t : Option String} {m : Memory R}
    (h : s.lookup o i t = some m) : s.owns o i = true :=
  owns_iff.mpr ⟨m, (lookup_eq_some.mp h).1, (lookup_eq_some.mp h).2.1⟩

/-- The vector of a memory of the owner is in their part. -/
theorem get?_view_vectors {i : UUID} (h : s.owns o i = true) :
    (view o s).vectors.get? i = s.vectors.get? i := by
  refine (Dict.get?_filter _ _ _).trans ?_
  rw [h]
  cases s.vectors.get? i <;> rfl

/-- The history of a memory of the owner is in their part. -/
theorem get?_view_history {i : UUID} (h : s.owns o i = true) :
    (view o s).historyByMemory.get? i = s.historyByMemory.get? i := by
  refine (Dict.get?_filter _ _ _).trans ?_
  rw [h]
  cases s.historyByMemory.get? i <;> rfl

theorem get?_view_fingerprints (k : String) :
    (view o s).fingerprints.get? (o, k) = s.fingerprints.get? (o, k) := by
  refine (Dict.get?_filter _ _ _).trans ?_
  cases s.fingerprints.get? (o, k) <;> simp

theorem get?_view_ledger (op : IdempotencyOperationType) (k : String) :
    (view o s).idempotencyOperations.get? (o, op, k)
      = s.idempotencyOperations.get? (o, op, k) := by
  refine (Dict.get?_filter _ _ _).trans ?_
  cases s.idempotencyOperations.get? (o, op, k) <;> simp

/-- The memories in the part of an owner are their memories, in the order of the store. -/
theorem values_view : (view o s).memories.values
    = s.memories.values.filter fun m => decide (m.ownerId = o) :=
  Dict.values_filter _ _

/-- A write key of the owner is found in their part as in the store. -/
theorem firstWithKey_view (k : String) : (view o s).firstWithKey o k = s.firstWithKey o k := by
  unfold firstWithKey
  rw [values_view, List.find?_filter]
  congr 1
  funext m
  cases decide (m.ownerId = o) <;> simp

/-- A version that the owner asks for is found in their part as in the store. -/
theorem versionAt_view (i : UUID) (v : Int) (t : Option String) :
    (view o s).versionAt o i v t = s.versionAt o i v t := by
  unfold versionAt
  rw [lookup_view]
  cases hl : s.lookup o i t with
  | none => rfl
  | some current => rw [get?_view_history (owns_of_lookup hl)]

/-- The relations of a memory of the owner are all in their part. -/
theorem relationsOf_view (i : UUID) : InMemoryMemoryRepository.relationsOf (view o s) o i
    = InMemoryMemoryRepository.relationsOf s o i := by
  unfold InMemoryMemoryRepository.relationsOf
  have hvalues : (view o s).relations.values
      = s.relations.values.filter fun r => decide (r.ownerId = o) := Dict.values_filter _ _
  rw [hvalues, List.filter_filter]
  refine List.filter_congr fun r _ => ?_
  cases decide (r.ownerId = o) <;> simp

/-! ## The repositories act on the view -/

/-- What the repositories rely on: no vector or history without its memory, and relations
under their own keys. -/
structure Tidy (s : InMemoryStore R) : Prop where
  vectors : ∀ i v, s.vectors.get? i = some v → s.memories.contains i = true
  histories : ∀ i h, s.historyByMemory.get? i = some h → s.memories.contains i = true
  relations : ∀ key r, s.relations.get? key = some r → key = r.key

theorem Inv.tidy (hinv : Inv s) : Tidy s where
  vectors i v h := by
    rw [← hinv.vectors]
    exact (Dict.contains_iff _ _).mpr ⟨v, h⟩
  histories i history h := by
    rw [← hinv.histories]
    exact (Dict.contains_iff _ _).mpr ⟨history, h⟩
  relations key r h := (hinv.relations key r h).1

/-- The body does on the view of `o` what it does on the store. -/
abbrev Local {α : Type} (o : String) (x : StoreTxn R α) (P : InMemoryStore R → Prop)
    (Q : α → InMemoryStore R → Prop) : Prop :=
  Txn.Commutes (view o) P x Q

variable {P : InMemoryStore R → Prop}

theorem local_raiseIf (c : Bool) (e : PyError) :
    Local o (raiseIf c e : StoreTxn R Unit) P fun _ s => P s ∧ True :=
  (Txn.Commutes.stateless (stateless_raiseIf c e)).mono (fun _ h => h) fun _ _ h => ⟨h.1, trivial⟩

/-- Reading a memory reads the part of its owner, and returns what is theirs. -/
theorem local_get (i : UUID) (t : Option String) :
    Local o (InMemoryMemoryRepository.get o i t) P
      fun r s => P s ∧ ∀ m, r = some m → m.ownerId = o := by
  refine (Txn.Commutes.read (fun s : InMemoryStore R => .ok (s.lookup o i t)) (fun _ => rfl)
    fun s _ => congrArg Except.ok (lookup_view i t)).mono (fun _ h => h) ?_
  rintro r s ⟨hs, hr⟩
  refine ⟨hs, ?_⟩
  rintro m rfl
  exact (lookup_eq_some.mp (Except.ok.inj hr)).2.1

/-- So does reading one of its versions. -/
theorem local_getVersion (i : UUID) (v : Int) (t : Option String) :
    Local o (InMemoryMemoryRepository.getVersion o i v t) P fun _ s => P s :=
  (Txn.Commutes.read (fun s => s.versionAt o i v t) (fun s => getVersion_run s o i v t)
    fun _ _ => versionAt_view i v t).mono (fun _ h => h) fun _ _ h => h.1

/-- So does looking for a write key. -/
theorem local_findByIdempotencyKey (k : String) :
    Local o (InMemoryMemoryRepository.findByIdempotencyKey o k : StoreTxn R _) P
      fun _ s => P s where
  run s _ := by
    show InMemoryMemoryRepository.findByIdempotencyKey o k (view o s)
      = (InMemoryMemoryRepository.findByIdempotencyKey o k s).map _
    unfold InMemoryMemoryRepository.findByIdempotencyKey
    rw [get?_view_fingerprints, firstWithKey_view]
    cases s.fingerprints.get? (o, k) with
    | none => rfl
    | some fp => cases s.firstWithKey o k <;> rfl
  post s r s' hs h := by
    obtain ⟨rfl, -⟩ := InMemoryMemoryRepository.findByIdempotencyKey_ok h
    exact hs

/-! ### The updates and the view -/

/-- A memory stored with its vector and history, whichever path it came by. -/
def put (s : InMemoryStore R) (m : Memory R) (vector : List R) (history : List (MemoryVersion R))
    (fingerprints : Dict (String × String) String) : InMemoryStore R :=
  { s with
    memories := s.memories.set m.id m
    vectors := s.vectors.set m.id vector
    historyByMemory := s.historyByMemory.set m.id history
    fingerprints := fingerprints }

/-- Storing a memory changes nobody's hold on another id. -/
theorem owns_put_of_ne {m : Memory R} {vector : List R} {history : List (MemoryVersion R)}
    {fingerprints : Dict (String × String) String} (i : UUID) (hi : i ≠ m.id) :
    (s.put m vector history fingerprints).owns o i = s.owns o i := by
  unfold owns put
  rw [Dict.get?_set_of_ne _ _ hi]

/-- A stored memory is its owner's. -/
theorem owns_put_self {m : Memory R} {vector : List R} {history : List (MemoryVersion R)}
    {fingerprints : Dict (String × String) String} :
    (s.put m vector history fingerprints).owns o m.id = decide (m.ownerId = o) := by
  unfold owns put
  rw [Dict.get?_set_self]
  rfl

/-- Storing a memory of the owner stores it in their part, unless its id was somebody else's. -/
theorem view_put {m : Memory R} {vector : List R} {history : List (MemoryVersion R)}
    {fingerprints : Dict (String × String) String} (htidy : Tidy s) (howner : m.ownerId = o)
    (hold : ∀ m₀, s.memories.get? m.id = some m₀ → m₀.ownerId = o) :
    view o (s.put m vector history fingerprints) = (view o s).put m vector history
      (fingerprints.filter fun key _ => decide (key.1 = o)) := by
  have hself : (s.put m vector history fingerprints).owns o m.id = true := by
    rw [owns_put_self]
    simpa using howner
  have howned : s.memories.contains m.id = true → s.owns o m.id = true := by
    intro h
    obtain ⟨m₀, hm₀⟩ := (Dict.contains_iff _ _).mp h
    exact owns_iff.mpr ⟨m₀, hm₀, hold m₀ hm₀⟩
  unfold view
  congr 1
  · exact Dict.filter_set_of_pos (by simpa using howner) fun w hw => by simpa using hold w hw
  · exact Dict.filterKeys_set_of_pos owns_put_of_ne hself
      fun w hw => howned (htidy.vectors _ w hw)
  · exact Dict.filterKeys_set_of_pos owns_put_of_ne hself
      fun w hw => howned (htidy.histories _ w hw)

/-- What is stored for another owner is not in the view. -/
theorem view_put_of_ne {m : Memory R} {vector : List R} {history : List (MemoryVersion R)}
    {fingerprints : Dict (String × String) String} (howner : m.ownerId ≠ o)
    (hold : ∀ m₀, s.memories.get? m.id = some m₀ → m₀.ownerId ≠ o)
    (hfp : (fingerprints.filter fun key _ => decide (key.1 = o))
      = s.fingerprints.filter fun key _ => decide (key.1 = o)) :
    view o (s.put m vector history fingerprints) = view o s := by
  have hself : (s.put m vector history fingerprints).owns o m.id = false := by
    rw [owns_put_self]
    simpa using howner
  have hbefore : s.owns o m.id = false := by
    rw [Bool.eq_false_iff]
    intro h
    obtain ⟨m₀, hm₀, ho⟩ := owns_iff.mp h
    exact hold m₀ hm₀ ho
  unfold view
  congr 1
  · exact Dict.filter_set_of_neg (by simpa using howner) fun w hw => by simpa using hold w hw
  · exact Dict.filterKeys_set_of_neg owns_put_of_ne hself hbefore
  · exact Dict.filterKeys_set_of_neg owns_put_of_ne hself hbefore

theorem owns_remove_of_ne {o' : String} {m : Memory R} {i : UUID} (j : UUID) (hj : j ≠ i) :
    (s.remove o' m i).owns o j = s.owns o j := by
  unfold owns remove
  rw [Dict.get?_pop_of_ne _ hj]

/-- Removing a memory of the owner removes it from their part. -/
theorem view_remove {m : Memory R} {i : UUID} :
    view o (s.remove o m i) = (view o s).remove o m i := by
  unfold view
  congr 1
  · exact Dict.filter_pop _ _ _
  · exact Dict.filterKeys_pop owns_remove_of_ne
  · unfold remove
    dsimp only
    cases m.idempotencyKey with
    | none => rfl
    | some k =>
      dsimp only
      by_cases hk : k = ""
      · rw [if_pos hk, if_pos hk]
      · rw [if_neg hk, if_neg hk]
        exact Dict.filter_pop _ _ _
  · exact Dict.filterKeys_pop owns_remove_of_ne
  · unfold remove
    rw [Dict.filter_filter, Dict.filter_filter]
    exact Dict.filter_congr fun _ _ _ => Bool.and_comm _ _
  · unfold remove
    rw [Finset.filter_insert, if_pos rfl]

/-- A relation of the owner is added to their part. -/
theorem view_addRelation {r : Relation} (htidy : Tidy s) (howner : r.ownerId = o) :
    view o (s.addRelation r) = (view o s).addRelation r := by
  unfold view addRelation
  congr 1
  refine Dict.filter_set_of_pos (by simpa using howner) fun r₀ hr₀ => ?_
  have hkey : r.ownerId = r₀.ownerId := congrArg Prod.fst (htidy.relations _ _ hr₀)
  simpa [← hkey] using howner

/-- An entry of the owner in the ledger is made in their part. -/
theorem view_record (key : OperationKey) (entry : StoredIdempotencyOperation) (hkey : key.1 = o) :
    view o (s.record key entry) = (view o s).record key entry := by
  unfold view record
  congr 1
  exact Dict.filter_set_of_pos (by simpa using hkey) fun _ _ => by simpa using hkey

/-- Claiming an operation reads and writes the ledger of the owner alone. -/
theorem local_claim (op : IdempotencyOperationType) (k fp : String) :
    Local o (InMemoryIdempotencyRepository.claim o op k fp : StoreTxn R _) Tidy
      fun c s => Tidy s ∧ c.ownerId = o where
  run s _ := by
    show InMemoryIdempotencyRepository.claim o op k fp (view o s)
      = (InMemoryIdempotencyRepository.claim o op k fp s).map _
    unfold InMemoryIdempotencyRepository.claim
    dsimp only
    rw [get?_view_ledger]
    cases s.idempotencyOperations.get? (o, op, k) with
    | none => exact congrArg (fun x => Except.ok (_, x)) (view_record (o, op, k) _ rfl).symm
    | some prior =>
      dsimp only
      by_cases hfp : prior.fingerprint = fp
      · by_cases hst : prior.status = .completed <;> simp [hfp, hst, Except.map]
      · simp [hfp, Except.map]
  post s c s' hs h := by
    rcases InMemoryIdempotencyRepository.claim_ok h with ⟨rfl, -, rfl⟩ | ⟨prior, -, rfl, rfl⟩
    · exact ⟨⟨hs.vectors, hs.histories, hs.relations⟩, rfl⟩
    · exact ⟨hs, rfl⟩

theorem local_complete {c : IdempotencyClaim} (hc : c.ownerId = o) (i : Option UUID)
    (v : Option Int) (st : String) :
    Local o (InMemoryIdempotencyRepository.complete c i v st : StoreTxn R _) P fun _ _ => True where
  run s _ := by
    show InMemoryIdempotencyRepository.complete c i v st (view o s)
      = (InMemoryIdempotencyRepository.complete c i v st s).map _
    unfold InMemoryIdempotencyRepository.complete
    dsimp only
    rw [hc, get?_view_ledger]
    cases s.idempotencyOperations.get? (o, c.operationType, c.idempotencyKey) with
    | none => rfl
    | some operation =>
      dsimp only
      by_cases hfp : operation.fingerprint = c.fingerprint
      · by_cases hst : operation.status = .completed
        · simp [hfp, hst, Except.map]
        · simp only [hfp, ne_eq, not_true_eq_false, if_false, hst, Except.map]
          exact congrArg (fun x => Except.ok ((), x))
            (view_record (o, c.operationType, c.idempotencyKey) _ rfl).symm
      · simp [hfp, Except.map]
  post _ _ _ _ _ := trivial

/-- No memory stands under the id. -/
def Vacant (i : UUID) (s : InMemoryStore R) : Prop := Tidy s ∧ s.memories.get? i = none

/-- A new memory of the owner is new in their part, if nothing is stored under its id. -/
theorem view_putNew {m : Memory R} {fp : String} {vector : List R} (hvacant : Vacant m.id s)
    (howner : m.ownerId = o) :
    view o (s.putNew m fp vector) = (view o s).putNew m fp vector := by
  have hput : ∀ s : InMemoryStore R, s.putNew m fp vector
      = s.put m vector [m.snapshot "created"] (s.putNew m fp vector).fingerprints := fun _ => rfl
  rw [hput s, view_put hvacant.1 howner fun m₀ hm₀ => ?_, hput (view o s)]
  · congr 1
    unfold putNew
    dsimp only
    cases m.idempotencyKey with
    | none => rfl
    | some k =>
      dsimp only
      by_cases hk : k = ""
      · rw [if_pos hk, if_pos hk]
        rfl
      · rw [if_neg hk, if_neg hk]
        exact Dict.filter_set_of_pos (by simpa using howner) fun _ _ => by simpa using howner
  · rw [hvacant.2] at hm₀
    cases hm₀

/-- Creating a memory under a vacant id acts on the part of its owner. -/
theorem local_create {m : Memory R} (howner : m.ownerId = o) (fp : String) (vector : List R) :
    Local o (InMemoryMemoryRepository.create m fp vector) (Vacant m.id) fun _ _ => True where
  run s hs := by
    show InMemoryMemoryRepository.create m fp vector (view o s)
      = (InMemoryMemoryRepository.create m fp vector s).map _
    unfold InMemoryMemoryRepository.create
    have hnew : view o (s.putNew m fp vector) = (view o s).putNew m fp vector :=
      view_putNew hs howner
    cases truthyKey m.idempotencyKey with
    | none => exact congrArg (fun x => Except.ok (_, x)) hnew.symm
    | some k =>
      dsimp only
      rw [howner, get?_view_fingerprints, firstWithKey_view]
      cases s.fingerprints.get? (o, k) with
      | none => exact congrArg (fun x => Except.ok (_, x)) hnew.symm
      | some prior =>
        dsimp only
        by_cases hfp : prior = fp
        · rw [if_neg (not_not.mpr hfp), if_neg (not_not.mpr hfp)]
          cases s.firstWithKey o k <;> rfl
        · rw [if_pos hfp, if_pos hfp]
          rfl
  post _ _ _ _ _ := trivial

/-- A new version keeps vectors and histories to ids that have a memory. -/
theorem Tidy.putVersion {m : Memory R} {history : List (MemoryVersion R)}
    {snapshot : MemoryVersion R} {vector : List R} (hs : Tidy s) :
    Tidy (s.putVersion m history snapshot vector) where
  vectors i v h := by
    replace h : (s.vectors.set m.id vector).contains i = true :=
      (Dict.contains_iff _ _).mpr ⟨v, h⟩
    show (s.memories.set m.id m).contains i = true
    rw [Dict.contains_set, Bool.or_eq_true] at h ⊢
    refine h.imp_right fun hv => ?_
    obtain ⟨w, hw⟩ := (Dict.contains_iff _ _).mp hv
    exact hs.vectors i w hw
  histories i v h := by
    replace h : (s.historyByMemory.set m.id (history ++ [snapshot])).contains i = true :=
      (Dict.contains_iff _ _).mpr ⟨v, h⟩
    show (s.memories.set m.id m).contains i = true
    rw [Dict.contains_set, Bool.or_eq_true] at h ⊢
    refine h.imp_right fun hv => ?_
    obtain ⟨w, hw⟩ := (Dict.contains_iff _ _).mp hv
    exact hs.histories i w hw
  relations := hs.relations

/-- Updating a memory acts on the part of its owner. -/
theorem local_update {m : Memory R} (howner : m.ownerId = o) (v : Int)
    (snapshot : MemoryVersion R) (vector : List R) :
    Local o (InMemoryMemoryRepository.update m v snapshot vector) Tidy
      fun r s => Tidy s ∧ r = m where
  run s hs := by
    show InMemoryMemoryRepository.update m v snapshot vector (view o s)
      = (InMemoryMemoryRepository.update m v snapshot vector s).map _
    unfold InMemoryMemoryRepository.update
    rw [get?_view_memories]
    cases hm : s.memories.get? m.id with
    | none => rfl
    | some current =>
      by_cases ho : current.ownerId = o
      · have howns : s.owns o m.id = true := owns_iff.mpr ⟨current, hm, ho⟩
        have hsame : current.ownerId = m.ownerId := ho.trans howner.symm
        rw [Option.filter_some, if_pos (by simpa using ho), get?_view_history howns]
        dsimp only
        rw [if_neg (not_not.mpr hsame), if_neg (not_not.mpr hsame)]
        by_cases hv : current.version = v
        · rw [if_neg (not_not.mpr hv), if_neg (not_not.mpr hv)]
          cases s.historyByMemory.get? m.id with
          | none => rfl
          | some history =>
            refine congrArg (fun x => Except.ok (m, x)) ?_
            refine ((view_put hs howner fun m₀ hm₀ => ?_).trans rfl).symm
            rw [hm] at hm₀
            cases hm₀
            exact ho
        · rw [if_pos hv, if_pos hv]
          rfl
      · have hne : current.ownerId ≠ m.ownerId := fun h => ho (h.trans howner)
        rw [Option.filter_some, if_neg (by simpa using ho)]
        dsimp only
        rw [if_pos hne]
        rfl
  post s r s' hs h := by
    obtain ⟨rfl, current, history, -, -, -, -, rfl⟩ := InMemoryMemoryRepository.update_ok h
    exact ⟨hs.putVersion, rfl⟩

theorem local_forget (i : UUID) (t : Option String) :
    Local o (InMemoryMemoryRepository.forget o i t : StoreTxn R _) P fun _ _ => True where
  run s _ := by
    show InMemoryMemoryRepository.forget o i t (view o s)
      = (InMemoryMemoryRepository.forget o i t s).map _
    unfold InMemoryMemoryRepository.forget
    rw [lookup_view]
    cases s.lookup o i t with
    | none => rfl
    | some m => exact congrArg (fun x => Except.ok (true, x)) view_remove.symm
  post _ _ _ _ _ := trivial

/-- Whether a relation of the owner is there shows in their part. -/
theorem contains_view_relations {r : Relation} (htidy : Tidy s) (howner : r.ownerId = o) :
    (view o s).relations.contains r.key = s.relations.contains r.key := by
  unfold Dict.contains
  refine congrArg Option.isSome ((Dict.get?_filter _ _ _).trans ?_)
  cases hr : s.relations.get? r.key with
  | none => rfl
  | some r₀ =>
    have hkey : r.ownerId = r₀.ownerId := congrArg Prod.fst (htidy.relations _ _ hr)
    simp [← hkey, howner]

theorem local_addRelation {r : Relation} (howner : r.ownerId = o) :
    Local o (InMemoryMemoryRepository.addRelation r : StoreTxn R _) Tidy fun _ _ => True where
  run s hs := by
    show InMemoryMemoryRepository.addRelation r (view o s)
      = (InMemoryMemoryRepository.addRelation r s).map _
    unfold InMemoryMemoryRepository.addRelation
    rw [howner, lookup_view, lookup_view, contains_view_relations hs howner]
    cases s.lookup o r.sourceId none with
    | none => rfl
    | some a =>
      cases s.lookup o r.targetId none with
      | none => rfl
      | some b =>
        dsimp only
        by_cases hc : s.relations.contains r.key = true
        · rw [if_pos hc, if_pos hc]
          rfl
        · rw [if_neg hc, if_neg hc]
          exact congrArg (fun x => Except.ok (r, x)) (view_addRelation hs howner).symm
  post _ _ _ _ _ := trivial

/-! ### Lists -/

/-- A memory of the owner is judged by what their part has of it. -/
theorem candidateOf_view {i : UUID} (howns : s.owns o i = true) (t : Option String) (q : List R)
    (profile : EmbeddingProfile) (filters : SearchFilters R) (m : Memory R) :
    InMemoryMemoryRepository.candidateOf (view o s) o t q profile filters i m
      = InMemoryMemoryRepository.candidateOf s o t q profile filters i m := by
  unfold InMemoryMemoryRepository.candidateOf
  rw [get?_view_vectors howns]

/-- A memory of somebody else is no candidate. -/
theorem candidateOf_of_ne {m : Memory R} (hne : m.ownerId ≠ o) (i : UUID) (t : Option String)
    (q : List R) (profile : EmbeddingProfile) (filters : SearchFilters R) :
    InMemoryMemoryRepository.candidateOf s o t q profile filters i m = .ok none :=
  if_pos hne

/-- The search loop passes over the entries of other owners. -/
theorem collectCandidates_view (t : Option String) (q : List R) (profile : EmbeddingProfile)
    (filters : SearchFilters R) (items : List (UUID × Memory R))
    (hitems : ∀ e ∈ items, s.memories.get? e.1 = some e.2) :
    InMemoryMemoryRepository.collectCandidates (view o s) o t q profile filters
        (items.filter fun e => decide (e.2.ownerId = o))
      = InMemoryMemoryRepository.collectCandidates s o t q profile filters items := by
  induction items with
  | nil => rfl
  | cons e rest ih =>
    obtain ⟨he, hrest⟩ := List.forall_mem_cons.mp hitems
    by_cases ho : e.2.ownerId = o
    · rw [List.filter_cons_of_pos (by simpa using ho)]
      unfold InMemoryMemoryRepository.collectCandidates
      rw [candidateOf_view (owns_iff.mpr ⟨e.2, he, ho⟩), ih hrest]
    · rw [List.filter_cons_of_neg (by simpa using ho), ih hrest]
      conv_rhs => unfold InMemoryMemoryRepository.collectCandidates
      rw [candidateOf_of_ne ho]
      cases InMemoryMemoryRepository.collectCandidates s o t q profile filters rest <;> rfl

/-- A search ranks what the part of the owner has. -/
theorem local_searchCandidates (t : Option String) (q : List R) (profile : EmbeddingProfile)
    (filters : SearchFilters R) (limit : Int) :
    Local o (InMemoryMemoryRepository.searchCandidates o t q profile filters limit) P
      fun _ s => P s ∧ True := by
  refine (Txn.Commutes.read _ (searchCandidates_run o t q profile filters limit)
    fun s _ => ?_).mono (fun _ h => h) fun _ _ h => ⟨h.1, trivial⟩
  exact congrArg _ (collectCandidates_view t q profile filters s.memories.items fun e he =>
    (Dict.mem_items_iff _ _ _).mp he)

/-- The inbox lists what the part of the owner has. -/
theorem local_listCandidates (t : Option String) (space : Option String) (limit : Int) :
    Local o (InMemoryMemoryRepository.listCandidates o t space limit : StoreTxn R _) P
      fun _ s => P s ∧ True where
  run s _ := by
    show InMemoryMemoryRepository.listCandidates o t space limit (view o s)
      = (InMemoryMemoryRepository.listCandidates o t space limit s).map _
    unfold InMemoryMemoryRepository.listCandidates
    have hvalues : ((view o s).memories.values.filter fun m =>
        addressable o t m && decide (m.state = .candidate) &&
          (space.isNone || decide (m.space = space)))
        = s.memories.values.filter fun m => addressable o t m && decide (m.state = .candidate) &&
          (space.isNone || decide (m.space = space)) := by
      rw [values_view, List.filter_filter]
      refine List.filter_congr fun m _ => ?_
      unfold addressable
      cases decide (m.ownerId = o) <;> simp
    dsimp only
    rw [hvalues]
    rfl
  post s r s' hs h := by
    cases h
    exact ⟨hs, trivial⟩

/-- A memory of the owner is exported with what their part has of it. -/
theorem recordOf_view {i : UUID} (howns : s.owns o i = true) (e : Bool) (m : Memory R) :
    InMemoryMemoryAdminRepository.recordOf (view o s) o i e m
      = InMemoryMemoryAdminRepository.recordOf s o i e m := by
  unfold InMemoryMemoryAdminRepository.recordOf
  rw [get?_view_history howns, relationsOf_view, get?_view_vectors howns]
  congr 1
  cases m.idempotencyKey with
  | none => rfl
  | some k => exact get?_view_fingerprints k

instance : IsTrans (Memory R) fun a b => a.id.str ≤ b.id.str := ⟨fun _ _ _ => le_trans⟩

instance : Std.Total (α := Memory R) fun a b => a.id.str ≤ b.id.str := ⟨fun _ _ => le_total _ _⟩

theorem local_exportMemories (e : Bool) :
    Local o (InMemoryMemoryAdminRepository.exportMemories o e : StoreTxn R _) P
      fun _ s => P s ∧ True where
  run s _ := by
    show InMemoryMemoryAdminRepository.exportMemories o e (view o s)
      = (InMemoryMemoryAdminRepository.exportMemories o e s).map _
    unfold InMemoryMemoryAdminRepository.exportMemories
    dsimp only
    rw [values_view, filter_insertionSort, filter_insertionSort, List.filter_filter]
    have hrecords : (fun m : Memory R => ((view o s).lookup o m.id none).map
        (InMemoryMemoryAdminRepository.recordOf (view o s) o m.id e))
        = fun m => (s.lookup o m.id none).map
          (InMemoryMemoryAdminRepository.recordOf s o m.id e) := by
      funext m
      rw [lookup_view]
      cases hl : s.lookup o m.id none with
      | none => rfl
      | some m₀ => exact congrArg some (recordOf_view (owns_of_lookup hl) e m₀)
    rw [hrecords]
    simp [Except.map]
  post s r s' hs h := by
    cases h
    exact ⟨hs, trivial⟩

/-! ## The services act on the view -/

theorem local_embedChecked (svc : MemoryApplicationService R) (text : String) (query : Bool) :
    Local o (svc.embedChecked text query : StoreTxn R (List R)) P fun _ s => P s ∧ True :=
  (Txn.Commutes.stateless (stateless_embedChecked svc text query)).mono (fun _ h => h)
    fun _ _ h => ⟨h.1, trivial⟩

theorem local_now (svc : MemoryApplicationService R) (n : Nat) :
    Local o (svc.now n : StoreTxn R DateTime) P fun at_ s => P s ∧ ensureAware (svc.clock n) "now"
      = .ok at_ :=
  .ofExcept _

theorem local_validateMutationScope (tenantId ownerId : String) (revoked : Bool) :
    Local o (validateMutationScope tenantId ownerId revoked : StoreTxn R Unit) P
      fun _ s => P s ∧ True :=
  .andThen (local_raiseIf _ _) fun _ _ => .andThen (.ofExcept _) fun _ _ => local_raiseIf _ _

theorem local_validateCapture (c : CaptureMemoryCommand R) :
    Local o (validateCapture c : StoreTxn R Unit) P fun _ s => P s ∧ True :=
  .andThen (local_raiseIf _ _) fun _ _ => .andThen (local_raiseIf _ _) fun _ _ =>
    .andThen (local_raiseIf _ _) fun _ _ => .andThen (.ofExcept _) fun _ _ =>
      .andThen (local_raiseIf _ _) fun _ _ => .andThen (local_raiseIf _ _) fun _ _ =>
        .andThen (local_raiseIf _ _) fun _ _ => .andThen (local_raiseIf _ _) fun _ _ =>
          .andThen (local_raiseIf _ _) fun _ _ => local_raiseIf _ _

/-- The checks on the current version read the part of the owner. -/
theorem local_currentAt (t : Option String) (i : UUID) (v : Int) (message : Memory R → String) :
    Local o (currentAt (inMemoryUnitOfWork R) o t i v message) P
      fun m s => P s ∧ m.ownerId = o := by
  refine .andThen (local_get i t) fun found hfound => ?_
  cases found with
  | none => exact .throw _
  | some m =>
    refine .andThen (local_raiseIf _ _) fun _ _ => (Txn.Commutes.pure m).mono (fun _ h => h) ?_
    rintro a s ⟨hs, rfl⟩
    exact ⟨hs, hfound a rfl⟩

/-- A replayed version is read from the part of the owner. -/
theorem local_replayVersion (t : Option String) (claim : IdempotencyClaim) (i : UUID) (v : Int) :
    Local o (replayVersion (inMemoryUnitOfWork R) o t claim i v) P fun _ _ => True := by
  refine .bind (local_getVersion _ _ _) fun found => ?_
  cases found with
  | none => exact .throw _
  | some m => exact (Txn.Commutes.pure (P := P) m).mono (fun _ h => h) fun _ _ _ => trivial

/-- The end of a mutation: complete the claim and return. -/
theorem local_completed {α : Type} {c : IdempotencyClaim} (hc : c.ownerId = o) (i : Option UUID)
    (v : Option Int) (st : String) (a : α) :
    Local o (do
      InMemoryIdempotencyRepository.complete c i v st
      pure a : StoreTxn R α) P fun _ _ => True :=
  .bind (local_complete hc i v st) fun _ =>
    (Txn.Commutes.pure (P := fun _ => True) a).mono (fun _ h => h) fun _ _ _ => trivial

/-- A new write acts on the part of its owner, if its id is vacant. -/
theorem local_writeNew (svc : MemoryApplicationService R) (c : WriteMemoryCommand R)
    (ho : c.ownerId = o) (at_ : DateTime) (fp : String) :
    Local o (svc.writeNew (inMemoryUnitOfWork R) c at_ fp) (Vacant svc.uuid4)
      fun _ _ => True := by
  refine .andThen (local_embedChecked _ _ _) fun vector _ => .andThen (.ofExcept _) fun _ _ =>
    .andThen (.ofExcept _) fun m hm => ?_
  obtain ⟨hid, howner, -⟩ := Memory.create_ok hm
  have hcreate := local_create (R := R) (howner.trans ho) fp vector
  rw [hid] at hcreate
  exact hcreate

/-- The same for `write`, replays included. -/
theorem local_write (svc : MemoryApplicationService R) (c : WriteMemoryCommand R)
    (ho : c.ownerId = o) :
    Local o (svc.write (inMemoryUnitOfWork R) c) (Vacant svc.uuid4) fun _ _ => True := by
  refine .andThen (.ofExcept _) fun _ _ => .andThen (local_now svc 0) fun at_ _ => ?_
  dsimp only
  cases truthyKey c.idempotencyKey with
  | none => exact local_writeNew svc c ho at_ _
  | some k =>
    subst ho
    refine .bind (local_findByIdempotencyKey k) fun prior => ?_
    cases prior with
    | none => exact local_writeNew svc c rfl at_ _
    | some prior =>
      exact .andThen (local_raiseIf _ _) fun _ _ =>
        (Txn.Commutes.pure _).mono (fun _ h => h) fun _ _ _ => trivial

theorem local_capture (svc : MemoryApplicationService R) (c : CaptureMemoryCommand R)
    (ho : c.ownerId = o) :
    Local o (svc.capture (inMemoryUnitOfWork R) c) (Vacant svc.uuid4) fun _ _ => True := by
  subst ho
  refine .andThen (local_validateCapture c) fun _ _ => ?_
  refine .bind (local_findByIdempotencyKey c.idempotencyKey) fun prior => ?_
  cases prior with
  | some prior =>
    exact .andThen (local_raiseIf _ _) fun _ _ =>
      (Txn.Commutes.pure _).mono (fun _ h => h) fun _ _ _ => trivial
  | none =>
    refine .andThen (local_embedChecked _ _ _) fun vector _ => .andThen (.ofExcept _) fun _ _ =>
      .andThen (local_now svc 0) fun _ _ => .andThen (.ofExcept _) fun m hm => ?_
    obtain ⟨hid, howner, -⟩ := Memory.create_ok hm
    have hcreate := local_create (R := R) howner (fingerprintCaptureCommand c) vector
    rw [hid] at hcreate
    exact hcreate

theorem local_confirmCandidate (svc : MemoryApplicationService R) (c : ConfirmCandidateCommand)
    (ho : c.ownerId = o) :
    Local o (svc.confirmCandidate (inMemoryUnitOfWork R) c) Tidy fun _ _ => True := by
  subst ho
  refine .andThen (local_raiseIf _ _) fun _ _ =>
    .andThen (local_validateMutationScope _ _ _) fun _ _ => .andThen (local_claim _ _ _) fun cl hc => ?_
  cases cl.replay with
  | true => exact local_replayVersion _ _ _ _
  | false =>
    refine .andThen (local_currentAt _ _ _ _) fun m hm => .andThen (local_raiseIf _ _) fun _ _ =>
      .andThen (local_now svc 0) fun _ _ => .andThen (.ofExcept _) fun _ _ =>
        .andThen (.ofExcept _) fun m' hm' => .andThen (local_embedChecked _ _ _) fun _ _ =>
          .andThen (local_update ?_ _ _ _) fun _ _ => local_completed hc _ _ _ _
    exact (Memory.evolve_ok hm').identity.ownerId.trans hm

theorem local_pin (svc : MemoryApplicationService R) (c : PinMemoryCommand)
    (ho : c.ownerId = o) : Local o (svc.pin (inMemoryUnitOfWork R) c) Tidy fun _ _ => True := by
  subst ho
  refine .andThen (local_raiseIf _ _) fun _ _ =>
    .andThen (local_validateMutationScope _ _ _) fun _ _ => .andThen (local_claim _ _ _) fun cl hc => ?_
  cases cl.replay with
  | true => exact local_replayVersion _ _ _ _
  | false =>
    refine .andThen (local_currentAt _ _ _ _) fun m hm => .andThen (local_raiseIf _ _) fun _ _ => ?_
    by_cases hst : m.state = if c.pinned then MemoryState.pinned else MemoryState.confirmed
    · rw [if_pos hst]
      exact local_completed hc _ _ _ _
    · rw [if_neg hst]
      refine .andThen (local_now svc 0) fun _ _ => .andThen (.ofExcept _) fun m' hm' =>
        .andThen (local_embedChecked _ _ _) fun _ _ =>
          .andThen (local_update ?_ _ _ _) fun _ _ => local_completed hc _ _ _ _
      exact (Memory.evolve_ok hm').identity.ownerId.trans hm

theorem local_discardCandidate (c : DiscardCandidateCommand) (ho : c.ownerId = o) :
    Local o (discardCandidate (inMemoryUnitOfWork R) c) Tidy fun _ _ => True := by
  subst ho
  refine .andThen (local_raiseIf _ _) fun _ _ =>
    .andThen (local_validateMutationScope _ _ _) fun _ _ => .andThen (local_claim _ _ _) fun cl hc => ?_
  cases cl.replay with
  | true => exact (Txn.Commutes.pure _).mono (fun _ h => h) fun _ _ _ => trivial
  | false =>
    exact .andThen (local_currentAt _ _ _ _) fun _ _ => .andThen (local_raiseIf _ _) fun _ _ =>
      .bind (local_forget _ _) fun _ => local_completed hc _ _ _ _

theorem local_forgetMemory (c : ForgetMemoryCommand) (ho : c.ownerId = o) :
    Local o (forget (inMemoryUnitOfWork R) c) Tidy fun _ _ => True := by
  subst ho
  refine .andThen (.ofExcept _) fun _ _ => ?_
  cases truthyKey c.idempotencyKey with
  | none =>
    exact .bind (local_forget _ _) fun _ =>
      (Txn.Commutes.pure _).mono (fun _ h => h) fun _ _ _ => trivial
  | some k =>
    refine .andThen (local_claim _ _ _) fun cl hc => ?_
    cases cl.replay with
    | true => exact (Txn.Commutes.pure _).mono (fun _ h => h) fun _ _ _ => trivial
    | false => exact .bind (local_forget _ _) fun _ => local_completed hc _ _ _ _

/-- The target of a relation is looked for among the memories of the owner. -/
theorem local_checkRelated (m : Memory R) (rel : Option (RelationType × UUID)) :
    Local o (checkRelated (inMemoryUnitOfWork R) o m rel) P fun _ s => P s ∧ True := by
  cases rel with
  | none => exact (Txn.Commutes.pure ()).mono (fun _ h => h) fun _ _ h => ⟨h.1, trivial⟩
  | some p =>
    exact .andThen (local_raiseIf _ _) fun _ _ => .andThen (local_get _ _) fun _ _ =>
      local_raiseIf _ _

/-- Its relation is stored in the part of the owner. -/
theorem local_storeRelation (svc : MemoryApplicationService R) (source : UUID)
    (rel : Option (RelationType × UUID)) :
    Local o (svc.storeRelation (inMemoryUnitOfWork R) o source rel) Tidy fun _ _ => True := by
  cases rel with
  | none => exact (Txn.Commutes.pure ()).mono (fun _ h => h) fun _ _ _ => trivial
  | some p =>
    refine .andThen (local_now svc 1) fun _ _ => .andThen (.ofExcept _) fun r hr =>
      .bind (local_addRelation ?_) fun _ =>
        (Txn.Commutes.pure ()).mono (fun _ h => h) fun _ _ _ => trivial
    rw [Relation.make_ok hr]

/-- The body of an update acts on the part of its owner. -/
theorem local_updateBody (svc : MemoryApplicationService R) (c : UpdateMemoryCommand R)
    (ho : c.ownerId = o) :
    Local o (svc.updateBody (inMemoryUnitOfWork R) c) Tidy fun _ _ => True := by
  subst ho
  refine .andThen (local_currentAt _ _ _ _) fun m hm => .andThen (local_now svc 0) fun _ _ =>
    .andThen (local_raiseIf _ _) fun _ _ => .andThen (local_checkRelated _ _) fun _ _ =>
      .andThen (.ofExcept _) fun _ _ => .andThen (.ofExcept _) fun m' hm' =>
        .andThen (local_embedChecked _ _ _) fun _ _ =>
          .andThen (local_update ?_ _ _ _) fun _ _ =>
            .bind (local_storeRelation svc _ _) fun _ =>
              (Txn.Commutes.pure _).mono (fun _ h => h) fun _ _ _ => trivial
  exact (Memory.evolve_ok hm').identity.ownerId.trans hm

theorem local_updateMemory (svc : MemoryApplicationService R) (c : UpdateMemoryCommand R)
    (ho : c.ownerId = o) : Local o (svc.update (inMemoryUnitOfWork R) c) Tidy fun _ _ => True := by
  refine .andThen (.ofExcept _) fun _ _ => ?_
  cases truthyKey c.idempotencyKey with
  | none => exact local_updateBody svc c ho
  | some k =>
    subst ho
    refine .andThen (local_claim _ _ _) fun cl hc => ?_
    cases cl.replay with
    | true => exact local_replayVersion _ _ _ _
    | false =>
      exact .bind (local_updateBody svc c rfl) fun _ => local_completed hc _ _ _ _

/-- So does `relate`. -/
theorem local_relate (svc : MemoryApplicationService R) (c : RelateMemoriesCommand)
    (ho : c.ownerId = o) : Local o (svc.relate (inMemoryUnitOfWork R) c) Tidy fun _ _ => True := by
  subst ho
  refine .andThen (.ofExcept _) fun _ _ => ?_
  cases RelationType.ofValue c.relationType with
  | none => exact .throw _
  | some rt =>
    refine .andThen (local_raiseIf _ _) fun _ _ => .andThen (local_get _ _) fun source _ =>
      .andThen (local_get _ _) fun target _ => ?_
    cases source with
    | none => exact .throw _
    | some source =>
      cases target with
      | none => exact .throw _
      | some target =>
        refine .andThen (local_now svc 0) fun _ _ => .andThen (.ofExcept _) fun r hr =>
          local_addRelation ?_
        rw [Relation.make_ok hr]

theorem local_listInbox (c : ListInboxCommand) (ho : c.ownerId = o) :
    Local o (listInbox (inMemoryUnitOfWork R) c) P fun _ _ => True := by
  subst ho
  exact .andThen (local_raiseIf _ _) fun _ _ => .andThen (local_raiseIf _ _) fun _ _ =>
    .andThen (.ofExcept _) fun _ _ => .andThen (local_raiseIf _ _) fun _ _ =>
      .andThen (local_raiseIf _ _) fun _ _ => .andThen (local_listCandidates _ _ _) fun _ _ =>
        (Txn.Commutes.pure _).mono (fun _ h => h) fun _ _ _ => trivial

/-- Candidates are collected from the part of the owner, space by space. -/
theorem local_recallCandidates (svc : MemoryApplicationService R) (c : RecallMemoryCommand R)
    (ho : c.ownerId = o) (q : List R) (spaces : List (Option String)) :
    Local o (svc.recallCandidates (inMemoryUnitOfWork R) c q spaces) P fun _ s => P s ∧ True := by
  subst ho
  induction spaces with
  | nil => exact (Txn.Commutes.pure []).mono (fun _ h => h) fun _ _ h => ⟨h.1, trivial⟩
  | cons space rest ih =>
    exact .andThen (local_searchCandidates _ _ _ _ _) fun _ _ => .andThen ih fun _ _ =>
      (Txn.Commutes.pure _).mono (fun _ h => h) fun _ _ h => ⟨h.1, trivial⟩

theorem local_recall (svc : MemoryApplicationService R) (c : RecallMemoryCommand R)
    (ho : c.ownerId = o) : Local o (svc.recall (inMemoryUnitOfWork R) c) P fun _ _ => True :=
  .andThen (.stateless (stateless_validateRecall c)) fun _ _ =>
    .andThen (local_embedChecked _ _ _) fun _ _ =>
      .andThen (local_recallCandidates svc c ho _ _) fun _ _ =>
        (Txn.Commutes.pure _).mono (fun _ h => h) fun _ _ _ => trivial

theorem local_search (svc : MemoryApplicationService R) (c : SearchMemoryCommand R)
    (ho : c.ownerId = o) : Local o (svc.search (inMemoryUnitOfWork R) c) P fun _ _ => True := by
  subst ho
  exact .andThen (.ofExcept _) fun _ _ => .andThen (local_raiseIf _ _) fun _ _ =>
    .andThen (local_raiseIf _ _) fun _ _ => .andThen (local_raiseIf _ _) fun _ _ =>
      .andThen (local_raiseIf _ _) fun _ _ => .andThen (local_embedChecked _ _ _) fun _ _ =>
        .andThen (local_searchCandidates _ _ _ _ _) fun _ _ => .andThen (.ofExcept _) fun _ _ =>
          (Txn.Commutes.pure _).mono (fun _ h => h) fun _ _ _ => trivial

/-- Every call but an import acts on the view of its owner. -/
theorem exec_local (svc : MemoryApplicationService R) (req : Request R) (ho : req.ownerId = o)
    (hreq : ∀ o records, req ≠ .importMemories o records) :
    Local o (req.exec svc) (fun s => Tidy s ∧ (req.drawsUuid = true → s.Fresh svc.uuid4))
      fun _ _ => True := by
  have hvacant : ∀ s : InMemoryStore R, Tidy s ∧ (true = true → s.Fresh svc.uuid4) →
      Vacant svc.uuid4 s := fun s hs => ⟨hs.1, (hs.2 rfl).1⟩
  cases req with
  | write c => exact ((local_write svc c ho).map _).mono hvacant fun _ _ h => h
  | capture c => exact ((local_capture svc c ho).map _).mono hvacant fun _ _ h => h
  | listInbox c => exact (local_listInbox c ho).map _
  | confirmCandidate c =>
    exact ((local_confirmCandidate svc c ho).map _).mono (fun _ h => h.1) fun _ _ h => h
  | pin c => exact ((local_pin svc c ho).map _).mono (fun _ h => h.1) fun _ _ h => h
  | discardCandidate c =>
    exact ((local_discardCandidate c ho).map _).mono (fun _ h => h.1) fun _ _ h => h
  | «recall» c => exact (local_recall svc c ho).map _
  | search c => exact (local_search svc c ho).map _
  | update c => exact ((local_updateMemory svc c ho).map _).mono (fun _ h => h.1) fun _ _ h => h
  | forget c => exact ((local_forgetMemory c ho).map _).mono (fun _ h => h.1) fun _ _ h => h
  | relate c => exact ((local_relate svc c ho).map _).mono (fun _ h => h.1) fun _ _ h => h
  | exportMemories o' e =>
    obtain rfl : o' = o := ho
    exact (Txn.Commutes.andThen (.ofExcept _) fun _ _ => local_exportMemories e).map _
  | importMemories o' records => exact absurd rfl (hreq o' records)

/-! ## Other owners -/

section Frame

variable {o' : String} {package : List (Memory R)}

/-- Other owners do not see a new memory. -/
theorem view_putNew_of_ne {m : Memory R} {fp : String} {vector : List R} (hne : m.ownerId ≠ o')
    (habsent : s.memories.get? m.id = none) : view o' (s.putNew m fp vector) = view o' s := by
  show view o' (s.put m vector [m.snapshot "created"] (s.putNew m fp vector).fingerprints) = _
  refine view_put_of_ne hne (fun m₀ hm₀ => ?_) ?_
  · rw [habsent] at hm₀
    cases hm₀
  · unfold putNew
    cases m.idempotencyKey with
    | none => rfl
    | some k =>
      dsimp only
      by_cases hk : k = ""
      · rw [if_pos hk]
      · rw [if_neg hk]
        exact Dict.filter_set_of_neg (by simpa using hne) fun _ _ => by simpa using hne

/-- Nor do they see one that is imported. -/
theorem view_storeRecord_of_ne {record : MemoryRecordDto R} {vector : List R}
    (hne : record.memory.ownerId ≠ o') (habsent : s.memories.get? record.memory.id = none) :
    view o' (InMemoryMemoryAdminRepository.storeRecord s record vector) = view o' s := by
  show view o' (s.put record.memory vector record.history
    (InMemoryMemoryAdminRepository.storeRecord s record vector).fingerprints) = _
  refine view_put_of_ne hne (fun m₀ hm₀ => ?_) ?_
  · rw [habsent] at hm₀
    cases hm₀
  · unfold InMemoryMemoryAdminRepository.storeRecord
    cases record.memory.idempotencyKey with
    | none => rfl
    | some k => exact Dict.filter_set_of_neg (by simpa using hne) fun _ _ => by simpa using hne

/-- Relations that go with a memory are its owner's: nobody else loses one. -/
theorem view_remove_of_ne {m : Memory R} {i : UUID} (hinv : Inv s)
    (hlive : s.memories.get? i = some m) (howner : m.ownerId = o) (hne : o ≠ o') :
    view o' (s.remove o m i) = view o' s := by
  have hother : s.owns o' i = false := by
    rw [Bool.eq_false_iff]
    intro h
    obtain ⟨m₀, hm₀, ho⟩ := owns_iff.mp h
    rw [hlive] at hm₀
    cases hm₀
    exact hne (howner.symm.trans ho)
  have hend : ∀ j, (s.lookup o' j none).isSome → j ≠ i := by
    rintro j hj rfl
    obtain ⟨m₀, hm₀⟩ := Option.isSome_iff_exists.mp hj
    rw [owns_of_lookup hm₀] at hother
    cases hother
  unfold view
  congr 1
  · refine (Dict.filter_pop _ _ _).trans (Dict.pop_of_get?_eq_none ?_)
    rw [Dict.get?_filter, hlive, Option.filter_some, if_neg]
    simpa [howner] using hne
  · exact Dict.filterKeys_pop_of_neg owns_remove_of_ne hother
  · unfold remove
    cases m.idempotencyKey with
    | none => rfl
    | some k =>
      dsimp only
      by_cases hk : k = ""
      · rw [if_pos hk]
      · rw [if_neg hk]
        refine (Dict.filter_pop _ _ _).trans (Dict.pop_of_get?_eq_none ?_)
        rw [Dict.get?_filter]
        cases s.fingerprints.get? (o, k) <;> simp [hne]
  · exact Dict.filterKeys_pop_of_neg owns_remove_of_ne hother
  · unfold remove
    rw [Dict.filter_filter]
    refine Dict.filter_congr fun key r hr => ?_
    obtain ⟨-, -, hsource, htarget⟩ := hinv.relations key r hr
    by_cases ho : r.ownerId = o'
    · rw [ho] at hsource htarget
      simp [hend _ hsource, hend _ htarget]
    · simp [ho]
  · unfold remove
    rw [Finset.filter_insert, if_neg hne]

/-- An elementary change made for one owner is not seen by another. -/
theorem Change.view_of_ne (hinv : Inv s) (h : Change o package s s') (hne : o ≠ o') :
    view o' s' = view o' s := by
  cases h with
  | created howner _ hfresh _ => exact view_putNew_of_ne (howner ▸ hne) hfresh.1
  | @versioned _ m' history reason vector hlive howner hsame _ _ =>
    have howner' : m'.ownerId = o := hsame.ownerId.trans howner
    show view o' (s.put m' vector (history ++ [m'.snapshot reason]) s.fingerprints) = _
    refine view_put_of_ne (howner' ▸ hne) (fun m₀ hm₀ => ?_) rfl
    rw [hsame.id, hlive] at hm₀
    obtain rfl := Option.some.inj hm₀
    exact howner ▸ hne
  | removed _ hlive howner => exact view_remove_of_ne hinv hlive howner hne
  | related howner hable =>
    unfold view addRelation
    congr 1
    refine Dict.filter_set_of_neg (by simpa [howner] using hne) fun r₀ hr₀ => ?_
    rw [hable.new] at hr₀
    cases hr₀
  | restored _ hvalid habsent _ => exact view_storeRecord_of_ne (hvalid.owner ▸ hne) habsent
  | recorded howner _ _ =>
    unfold view record
    congr 1
    exact Dict.filter_set_of_neg (by simpa [howner] using hne)
      fun _ _ => by simpa [howner] using hne

/-- A call of one owner leaves the parts of the others as they are. -/
theorem changes_view (hinv : Inv s) (h : Changes o package s s') (hne : o ≠ o') :
    view o' s' = view o' s := by
  have hboth : Inv s' ∧ view o' s' = view o' s := by
    refine Reaches.kept (I := fun s₁ => Inv s₁ ∧ view o' s₁ = view o' s) h ?_ ⟨hinv, rfl⟩
    rintro s₁ s₂ hch ⟨hinv₁, hsame⟩
    exact ⟨hinv₁.change hch, (hch.view_of_ne hinv₁ hne).trans hsame⟩
  exact hboth.2

end Frame

/-- Owners do not interfere: on two well-formed stores that agree on what belongs to `o`, a
call for `o` gives one outcome and leaves stores that agree on `o`; and no call for `o`,
imports included, changes what belongs to another owner. -/
theorem owner_noninterference {t : InMemoryStore R} (hs : Inv s) (ht : Inv t)
    (hagree : view o s = view o t) :
    (∀ call : Call R, call.request.ownerId = o →
      (∀ o' records, call.request ≠ .importMemories o' records) →
      call.DrawsFresh s → call.DrawsFresh t →
      (call.attempt s).1 = (call.attempt t).1 ∧
        view o (call.attempt s).2 = view o (call.attempt t).2) ∧
    ∀ call : Call R, call.request.ownerId = o → call.DrawsFresh s →
      ∀ o', o' ≠ o → view o' (call.attempt s).2 = view o' s := by
  constructor
  · intro call ho hno hfs hft
    have hlocal := exec_local call.service call.request ho hno
    have hcs : call.attempt (view o s) = ((call.attempt s).1, view o (call.attempt s).2) :=
      hlocal.attempt_eq ⟨hs.tidy, hfs⟩
    have hct : call.attempt (view o t) = ((call.attempt t).1, view o (call.attempt t).2) :=
      hlocal.attempt_eq ⟨ht.tidy, hft⟩
    rw [hagree, hct] at hcs
    exact ⟨(congrArg Prod.fst hcs).symm, (congrArg Prod.snd hcs).symm⟩
  · rintro call rfl hfresh o' hne
    exact changes_view hs (call.attempt_changes hs.keyed hfresh) hne.symm

/-- `bob` writes a note under the key `alice` uses. -/
def bobNote : Call ℚ where
  service := serviceOn 2 8
  request := .write (noteCommand "bob" "tea at five" (some "k1") none)

/-- `alice` repeats her first write. -/
def repeatNote : Call ℚ := { firstNote with service := serviceOn 3 9 }

/-- Whether bob has noted something in between does not show to alice. -/
theorem owner_noninterference_bobNote :
    (repeatNote.attempt (firstNote.attempt {}).2).1
        = (repeatNote.attempt (bobNote.attempt (firstNote.attempt {}).2).2).1 ∧
      view "alice" (bobNote.attempt (firstNote.attempt {}).2).2
        = view "alice" (firstNote.attempt {}).2 := by
  have hs : Inv (firstNote.attempt {}).2 :=
    inv_empty.attempt fun _ => fresh_of_no_tombstone rfl rfl
  have hbob : bobNote.DrawsFresh (firstNote.attempt {}).2 :=
    fun _ => fresh_of_no_tombstone (by decide +kernel) (by decide +kernel)
  have hframe := (owner_noninterference hs hs rfl).2 bobNote rfl hbob "alice" (by decide)
  refine ⟨((owner_noninterference hs (hs.attempt hbob) hframe.symm).1 repeatNote rfl nofun ?_ ?_).1,
    hframe⟩
  · exact fun _ => fresh_of_no_tombstone (by decide +kernel) (by decide +kernel)
  · exact fun _ => fresh_of_no_tombstone (by decide +kernel) (by decide +kernel)

end InMemoryStore

end OpenMemory
