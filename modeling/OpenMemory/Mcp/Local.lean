import OpenMemory.Cloud.Failures
import OpenMemory.Lib.Lockstep
import OpenMemory.Mcp.LocalFiles
import OpenMemory.Mcp.Updates

/-!
# The local service across restarts (`adapters/mcp/local.py`)

The service answers from three maps: the records, the ids of the memories under the idempotency keys
that created them, and what was asked to be forgotten. `_save` writes the records only, so a service
that is constructed on the file has the records and two empty maps.

A run is a list of calls and restarts. It is compared with the run of a service that is never
closed, on the same ids and clock readings (`Draw`) and without ids and timestamps in the answers
(`aside`). What a restart has lost and no call has brought back is kept with the service that goes
on (`Lost`). `restarts_transparent_iff`: the answers agree exactly if no write comes with a key that
was lost, and no forget, already asked for before the restart, meets a memory of its owner. For the
first an ordinary retry is enough, the second takes a `uuid4` that repeats an id.

The members of a record are in the order of the dict here and by name in the file, which no reader
of a dict can tell. Ids are texts.
-/

namespace OpenMemory.Mcp

open Lib
open MemoryApplicationService (truthyKey truthyKey_eq_some)
open Cloud (PyObj PyDict PyKey)

variable {R : Type} [Python R]

/-! ## The service -/

/-- `PersistentLocalMemoryService`, with the maps of its base class. -/
structure PersistentLocalMemoryService (R : Type) extends InMemoryMemoryService R where
  idempotency : Dict (String × String × String) String := ∅
  forgetKeys : Finset (String × String) := ∅

/-- What a write draws: `uuid4().hex` and `_now()`. -/
structure Draw where
  hex : String
  now : String

/-- `(owner, "write", idem)`. -/
def WriteRequest.key (request : WriteRequest R) : String × String × String :=
  (request.ownerId.val, "write", request.idempotencyKey.val)

/-- `(payload["owner_id"], payload["id"])`. -/
def ForgetRequest.key (request : ForgetRequest) : String × String :=
  (request.ownerId.val, request.id.val)

/-- The record of a write. -/
def newRecord (draw : Draw) (request : WriteRequest R) : PyDict R :=
  [(.str "id", .str ("mem_" ++ draw.hex)), (.str "owner_id", .str request.ownerId.val),
    (.str "content", .str request.content.val), (.str "type", .str request.type.value),
    (.str "space", (request.space.map fun space => .str space.val).getD .none),
    (.str "importance", .float request.importance.val),
    (.str "confidence", .float request.confidence.val), (.str "state", .str "active"),
    (.str "version", .int 1), (.str "created_at", .str draw.now),
    (.str "updated_at", .str draw.now), (.str "occurred_at", .none),
    (.str "provenance", .dict (provenanceItems request.provenance))]

namespace PersistentLocalMemoryService

/-- `write` of the base class. -/
def write (draw : Draw) (request : WriteRequest R) (s : PersistentLocalMemoryService R) :
    Except PyError (WriteStatus × PyDict R) × PersistentLocalMemoryService R :=
  match truthyKey (s.idempotency.get? request.key) with
  | some previous =>
    match s.records.get? previous with
    | none => (.error .keyError, s)
    | some record => (.ok (.alreadyExists, record), s)
  | none =>
    let memoryId := "mem_" ++ draw.hex
    let record := newRecord draw request
    (.ok (.created, record),
      { s with
        records := s.records.set memoryId record
        idempotency := s.idempotency.set request.key memoryId })

/-- `update` of the base class. -/
def update (now : String) (request : UpdateRequest R) (s : PersistentLocalMemoryService R) :
    Except PyError (PyDict R) × PersistentLocalMemoryService R :=
  let (result, base) := InMemoryMemoryService.update now request s.toInMemoryMemoryService
  (result, { s with toInMemoryMemoryService := base })

/-- `forget` of the base class. -/
def forget (request : ForgetRequest) (s : PersistentLocalMemoryService R) :
    Except PyError ForgetStatus × PersistentLocalMemoryService R :=
  let noted := { s with forgetKeys := insert request.key s.forgetKeys }
  if request.key ∈ s.forgetKeys then (.ok .alreadyAbsent, s)
  else
    match s.records.get? request.id.val with
    | none => (.ok .alreadyAbsent, noted)
    | some record =>
      if (record.get "owner_id").isNone then (.error .keyError, s)
      else if record.getText "owner_id" ≠ some request.ownerId.val then
        (.ok .alreadyAbsent, noted)
      else (.ok .forgotten, { noted with records := s.records.pop request.id.val })

end PersistentLocalMemoryService

def ofFakeError : FakeError → PyError
  | .keyError _ => .keyError
  | .typeError => typeError
  | .attributeError => .foreign "AttributeError" none

/-! ## Sessions -/

/-- The records of a file that lists dicts with ids; `equal` is `==` on dicts. -/
def dictRecords (equal : PyDict R → PyDict R → Bool) : Incoming (PyDict R) String (PyDict R) where
  id record :=
    match record.get "id" with
    | none => .error .keyError
    | some (.str id) => .ok id
    | some _ => .error typeError
  equal := equal
  dict record := record

/-- What comes of reading the file; `none` where there is none. -/
abbrev LocalFile (R : Type) : Type := Option (Except PyError (Option (List (PyDict R))))

/-- `PersistentLocalMemoryService.__init__`. -/
def construct (equal : PyDict R → PyDict R → Bool) (file : LocalFile R) :
    Except PyError (PersistentLocalMemoryService R) :=
  (load (dictRecords equal) file).map fun records => { records := records }

/-- A service and its file. -/
structure Session (R : Type) where
  service : PersistentLocalMemoryService R
  file : LocalFile R

/-- A call, with what it draws. -/
inductive ServiceCall (R : Type) [Python R]
  | write (draw : Draw) (request : WriteRequest R)
  | search (request : SearchRequest R)
  | update (now : String) (request : UpdateRequest R)
  | forget (request : ForgetRequest)

/-- What a call returns. -/
inductive CallResult (R : Type)
  | write (status : WriteStatus) (memory : PyDict R)
  | search (hits : List (FakeHit R))
  | update (memory : PyDict R)
  | forget (status : ForgetStatus)

/-- A call of the service, or its end and the construction of another on the file. -/
inductive Event (R : Type) [Python R]
  | call (call : ServiceCall R)
  | restart

namespace Session

/-- The rest of an operation that has returned: `_save`. One that raised has saved nothing. -/
def saved {α : Type} (s : Session R) (f : α → CallResult R) :
    Except PyError α × PersistentLocalMemoryService R → Except PyError (CallResult R) × Session R
  | (.ok a, service) => (.ok (f a), { service, file := some (.ok (some service.records.values)) })
  | (.error e, service) => (.error e, { s with service })

variable (unicode : UnicodeDatabase)

/-- A call. -/
def call (s : Session R) : ServiceCall R → Except PyError (CallResult R) × Session R
  | .write draw request =>
    s.saved (fun result => .write result.1 result.2) (s.service.write draw request)
  | .search request =>
    (match s.service.search unicode request with
      | .ok hits => .ok (.search hits)
      | .error e => .error (ofFakeError e), s)
  | .update now request => s.saved .update (s.service.update now request)
  | .forget request => s.saved .forget (s.service.forget request)

/-- The service that is never closed. -/
def afterAlone (s : Session R) : Event R → Session R
  | .call c => (s.call unicode c).2
  | .restart => s

/-- What a call answers; a service that is never closed does not answer a restart. -/
def answerAlone (s : Session R) : Event R → Option (Except PyError (CallResult R))
  | .call c => some (s.call unicode c).1
  | .restart => none

variable (equal : PyDict R → PyDict R → Bool)

/-- The service that is closed and constructed again. -/
def after (s : Session R) : Event R → Session R
  | .call c => (s.call unicode c).2
  | .restart =>
    match construct equal s.file with
    | .ok service => { s with service }
    | .error _ => s

/-- What a call answers, and what a constructor raises. -/
def answer (s : Session R) : Event R → Option (Except PyError (CallResult R))
  | .call c => some (s.call unicode c).1
  | .restart =>
    match construct equal s.file with
    | .ok _ => none
    | .error e => some (.error e)

end Session

/-! ## What is compared -/

/-- A record without its id and its timestamps. -/
def withoutStamps (record : PyDict R) : PyDict R :=
  record.filter fun e => decide (e.1 ∉ [PyKey.str "id", .str "created_at", .str "updated_at"])

/-- Ids and timestamps aside. -/
def CallResult.aside : CallResult R → CallResult R
  | .write status memory => .write status (withoutStamps memory)
  | .search hits => .search (hits.map fun hit => { hit with memory := withoutStamps hit.memory })
  | .update memory => .update (withoutStamps memory)
  | .forget status => .forget status

def aside (answer : Option (Except PyError (CallResult R))) :
    Option (Except PyError (CallResult R)) :=
  answer.map fun result => result.map CallResult.aside

/-! ## What a restart loses -/

/-- The keys that the service has lost and that no call since has brought back. -/
structure Lost where
  writes : Finset (String × String × String) := ∅
  forgets : Finset (String × String) := ∅

/-- A session that is never interrupted, and what one that was has lost. -/
structure Watched (R : Type) extends Session R where
  lost : Lost := {}

/-- No memory of the owner is under the id. -/
def AbsentFor (request : ForgetRequest) (records : Dict String (PyDict R)) : Prop :=
  ∀ record, records.get? request.id.val = some record →
    (record.get "owner_id").isSome = true ∧
      record.getText "owner_id" ≠ some request.ownerId.val

namespace Watched

/-- A restart loses all keys; a forget notes its key again. -/
def after (unicode : UnicodeDatabase) (w : Watched R) (event : Event R) : Watched R where
  toSession := w.toSession.afterAlone unicode event
  lost :=
    match event with
    | .call (.forget request) => { w.lost with forgets := w.lost.forgets.erase request.key }
    | .call _ => w.lost
    | .restart => ⟨w.service.idempotency.keys.toFinset, w.service.forgetKeys⟩

/-- The event needs nothing that was lost. -/
def Independent (w : Watched R) : Event R → Prop
  | .call (.write _ request) => request.key ∉ w.lost.writes
  | .call (.forget request) =>
    request.key ∈ w.lost.forgets → AbsentFor request w.service.records
  | _ => True

end Watched

/-- No write of the run comes with a key that an earlier one had before the last restart, and no
forget that was asked for before it meets a memory of its owner. -/
def Undisturbed (unicode : UnicodeDatabase) (s : Session R) (events : List (Event R)) : Prop :=
  Along (Watched.after unicode) Watched.Independent { toSession := s } events

/-! ## The records are what the file has -/

/-- Every record has the id that it is under. -/
def OwnIds (records : Dict String (PyDict R)) : Prop :=
  ∀ e ∈ records.items, e.2.get "id" = some (.str e.1)

section Files

variable {equal : PyDict R → PyDict R → Bool}

omit [Python R] in
/-- A record's id is the text under `id`. -/
theorem dictRecords_ok {record : PyDict R} {id : String} :
    (dictRecords equal).id record = .ok id ↔ record.get "id" = some (.str id) := by
  unfold dictRecords
  dsimp only
  constructor
  · intro h
    split at h
    · cases h
    · rename_i id' hid
      cases h
      exact hid
    · cases h
  · intro h
    rw [h]

omit [Python R] in
/-- The store that is made of a list of records. -/
theorem nameAll_values (equal : PyDict R → PyDict R → Bool) {records : Dict String (PyDict R)}
    (h : OwnIds records) :
    nameAll (dictRecords equal).id versionConflictError [] records.values = .ok records.keys := by
  refine nameAll_ok.mpr ⟨?_, records.nodup, fun _ _ => List.not_mem_nil⟩
  unfold Dict.values Dict.keys
  rw [List.forall₂_map_left_iff, List.forall₂_map_right_iff, List.forall₂_same]
  exact fun e he => dictRecords_ok.mpr (h e he)

omit [Python R] in
/-- A saved file gives back the records. -/
theorem construct_saved {records : Dict String (PyDict R)} (h : OwnIds records) :
    construct equal (some (.ok (some records.values))) = .ok { records := records } := by
  have hall := nameAll_values equal h
  obtain ⟨hnames, hnodup, -⟩ := nameAll_ok.mp hall
  unfold construct
  rw [load_listed, hall]
  have hitems := items_imported hnames hnodup
  have hvalues : records.values.map (dictRecords equal).dict = records.values := List.map_id _
  rw [hvalues] at hitems
  have hsame : Dict.setAll (records.keys.zip records.values) ∅ = records := by
    refine Dict.ext (hitems.trans ?_)
    exact (List.zip_of_prod rfl rfl).symm
  rw [hvalues]
  dsimp only
  rw [hsame]
  rfl

omit [Python R] in
theorem ownIds_empty : OwnIds (∅ : Dict String (PyDict R)) := fun _ he => absurd he List.not_mem_nil

omit [Python R] in
/-- What a constructor returns has nothing but records, each under its id. -/
theorem construct_ownIds {file : LocalFile R} {service : PersistentLocalMemoryService R}
    (h : construct equal file = .ok service) :
    service = { records := service.records } ∧ OwnIds service.records := by
  obtain ⟨records, hload, rfl⟩ : ∃ records, load (dictRecords equal) file = .ok records ∧
      { records := records } = service := by
    unfold construct at h
    cases hload : load (dictRecords equal) file with
    | error e =>
      rw [hload] at h
      cases h
    | ok records =>
      rw [hload] at h
      exact ⟨records, rfl, Except.ok.inj h⟩
  refine ⟨rfl, ?_⟩
  dsimp only
  -- no file, an unreadable one, or one without the format: a fresh service
  match file, hload with
  | none, hload =>
    cases hload
    exact ownIds_empty
  | some (.error e), hload =>
    unfold load at hload
    dsimp only [bind, Except.bind] at hload
    split_ifs at hload
    cases hload
    exact ownIds_empty
  | some (.ok none), hload =>
    cases hload
    exact ownIds_empty
  -- a list of memories: the id of each is its key
  | some (.ok (some listed)), hload =>
    rw [load_listed] at hload
    cases hall : nameAll (dictRecords equal).id versionConflictError [] listed with
    | error e =>
      rw [hall] at hload
      dsimp only at hload
      split_ifs at hload
      cases hload
      exact ownIds_empty
    | ok names =>
      rw [hall] at hload
      cases hload
      -- each name is the id of its dict
      obtain ⟨hnames, hnodup, -⟩ := nameAll_ok.mp hall
      intro e he
      rw [items_imported hnames hnodup] at he
      have hmap : listed.map (dictRecords equal).dict = listed := List.map_id _
      rw [hmap] at he
      have hpair : (e.2, e.1) ∈ listed.zip names := by
        rw [← List.zip_swap]
        exact List.mem_map.mpr ⟨e, he, rfl⟩
      exact dictRecords_ok.mp ((List.forall₂_iff_zip.mp hnames).2 hpair)

end Files

/-! ## What a call does to the records -/

omit [Python R] in
/-- Setting a record under its own id keeps all records under theirs. -/
theorem ownIds_set {records : Dict String (PyDict R)} (h : OwnIds records) {id : String}
    {record : PyDict R} (hid : record.get "id" = some (.str id)) :
    OwnIds (records.set id record) := by
  rintro ⟨k, v⟩ he
  rw [Dict.mem_items_iff, Dict.get?_set] at he
  split_ifs at he with hk
  · cases he
    rw [hk]
    exact hid
  · exact h (k, v) ((Dict.mem_items_iff _ _ _).mpr he)

omit [Python R] in
theorem ownIds_pop {records : Dict String (PyDict R)} (h : OwnIds records) (id : String) :
    OwnIds (records.pop id) :=
  fun e he => h e (List.mem_of_mem_filter he)

omit [Python R] in
/-- Assigning to other keys leaves a key alone. -/
theorem get_assignItems {items record : PyDict R} {key : String}
    (h : PyKey.str key ∉ items.map Prod.fst) :
    (assignItems items record).get key = record.get key := by
  induction items generalizing record with
  | nil => rfl
  | cons e items ih =>
    rw [List.map_cons, List.mem_cons, not_or] at h
    show (assignItems items (Dict.setItems e.1 e.2 record)).get key = _
    rw [ih h.2]
    unfold PyDict.get
    rw [Dict.lookup_setItems, if_neg h.1]

omit [Python R] in
theorem notMem_item {key key' : String} (h : key ≠ key') (value : Option (PyObj R)) :
    PyKey.str key ∉ (item key' value).map Prod.fst := by
  cases value with
  | none => exact List.not_mem_nil
  | some value =>
    intro hmem
    have heq : PyKey.str key = .str key' := List.mem_singleton.mp hmem
    cases heq
    exact h rfl

/-- A patch has no id. -/
theorem get_id_patched (request : UpdateRequest R) (record : PyDict R) :
    (patched request record).get "id" = record.get "id" := by
  unfold patched
  rw [get_assignItems (notMem_item (by decide) _), get_assignItems]
  unfold patchItems
  simp only [List.map_append, List.mem_append, not_or]
  exact ⟨⟨⟨⟨⟨⟨notMem_item (by decide) _, notMem_item (by decide) _⟩, notMem_item (by decide) _⟩,
    notMem_item (by decide) _⟩, notMem_item (by decide) _⟩, notMem_item (by decide) _⟩,
    notMem_item (by decide) _⟩

/-- An update raises and changes nothing, or assigns to a record in place. -/
theorem local_update_cases (now : String) (request : UpdateRequest R)
    (s : InMemoryMemoryService R) :
    (∃ e, InMemoryMemoryService.update now request s = (.error e, s)) ∨
      ∃ record record', s.records.get? request.id.val = some record ∧
        record'.get "id" = record.get "id" ∧
        InMemoryMemoryService.update now request s =
          (.ok record', { s with records := s.records.set request.id.val record' }) := by
  unfold InMemoryMemoryService.update
  cases hrecord : s.records.get? request.id.val with
  | none => exact .inl ⟨_, rfl⟩
  | some record =>
    dsimp only
    split_ifs with hnone howner
    · exact .inl ⟨_, rfl⟩
    · exact .inl ⟨_, rfl⟩
    cases hversion : record.get "version" with
    | none => exact .inl ⟨_, rfl⟩
    | some version =>
      dsimp only
      split_ifs with hstale
      · exact .inl ⟨_, rfl⟩
      obtain ⟨next, hnext⟩ := Cloud.exists_succ (by simpa using hstale)
      rw [hnext]
      refine .inr ⟨record, _, rfl, ?_, rfl⟩
      rw [Cloud.get_set, if_neg (by decide), Cloud.get_set, if_neg (by decide), get_id_patched]

omit [Python R] in
/-- Asked for before, or nothing of the owner's there: the key is noted. -/
theorem forget_absent {request : ForgetRequest} {s : PersistentLocalMemoryService R}
    (h : request.key ∈ s.forgetKeys ∨ AbsentFor request s.records) :
    s.forget request =
      (.ok .alreadyAbsent, { s with forgetKeys := insert request.key s.forgetKeys }) := by
  unfold PersistentLocalMemoryService.forget
  dsimp only
  by_cases hkey : request.key ∈ s.forgetKeys
  · rw [if_pos hkey, Finset.insert_eq_of_mem hkey]
  · rw [if_neg hkey]
    have habsent := h.resolve_left hkey
    cases hrecord : s.records.get? request.id.val with
    | none => rfl
    | some record =>
      obtain ⟨hsome, hother⟩ := habsent record hrecord
      dsimp only
      have hnot : ¬(record.get "owner_id").isNone = true := by
        rw [Option.isNone_iff_eq_none]
        exact Option.isSome_iff_ne_none.mp hsome
      rw [if_neg hnot, if_pos hother]

omit [Python R] in
/-- A record under the id that is the owner's, or that has no owner. -/
theorem exists_record_of_not_absentFor {request : ForgetRequest}
    {records : Dict String (PyDict R)} (h : ¬AbsentFor request records) :
    ∃ record, records.get? request.id.val = some record ∧
      ((record.get "owner_id").isNone = true ∨
        record.getText "owner_id" = some request.ownerId.val) := by
  obtain ⟨record, h⟩ := not_forall.mp h
  obtain ⟨hrecord, howner⟩ := Classical.not_imp.mp h
  refine ⟨record, hrecord, ?_⟩
  cases hget : record.get "owner_id" with
  | none => exact .inl rfl
  | some value => exact .inr (not_not.mp (not_and.mp howner (by rw [hget]; rfl)))

omit [Python R] in
/-- A record that is the owner's goes; one that has no owner raises. -/
theorem forget_present {request : ForgetRequest} {s : PersistentLocalMemoryService R}
    {record : PyDict R} (hkey : request.key ∉ s.forgetKeys)
    (hrecord : s.records.get? request.id.val = some record) :
    ((record.get "owner_id").isNone = true → s.forget request = (.error .keyError, s)) ∧
      ((record.get "owner_id").isNone = false →
        record.getText "owner_id" = some request.ownerId.val →
        s.forget request = (.ok .forgotten,
          { s with
            records := s.records.pop request.id.val
            forgetKeys := insert request.key s.forgetKeys })) := by
  unfold PersistentLocalMemoryService.forget
  dsimp only
  rw [if_neg hkey, hrecord]
  dsimp only
  constructor
  · intro hnone
    rw [if_pos hnone]
  · intro hsome howner
    rw [if_neg (by simp [hsome]), if_neg (not_not.mpr howner)]

/-! ## In lockstep -/

/-- The interrupted service has the records of the other, and what it lost is on record. -/
structure Beside (w : Watched R) (t : Session R) : Prop where
  records : t.service.records = w.service.records
  writes : ∀ k, t.service.idempotency.get? k =
    if k ∈ w.lost.writes then none else w.service.idempotency.get? k
  forgets : ∀ k, k ∈ t.service.forgetKeys ↔ k ∈ w.service.forgetKeys ∧ k ∉ w.lost.forgets
  had : ∀ k ∈ w.lost.writes, ∃ id, w.service.idempotency.get? k = some id
  noted : ∀ k ∈ w.lost.forgets, k ∈ w.service.forgetKeys
  named : ∀ k id, w.service.idempotency.get? k = some id → id ≠ ""
  ownIds : OwnIds w.service.records

/-- And the file of both gives the records back. -/
structure Lockstep (equal : PyDict R → PyDict R → Bool) (w : Watched R) (t : Session R) : Prop
    extends Beside w t where
  file : t.file = w.file
  reload : construct equal w.file = .ok { records := w.service.records }

omit [Python R] in
/-- The two services hold the same records. -/
theorem Beside.base {w : Watched R} {t : Session R} (h : Beside w t) :
    t.service.toInMemoryMemoryService = w.service.toInMemoryMemoryService :=
  congrArg InMemoryMemoryService.mk h.records

omit [Python R] in
/-- Both have saved: the files agree, and give the records back. -/
theorem Beside.saved {equal : PyDict R → PyDict R → Bool} {w : Watched R} {t : Session R}
    (h : Beside w t) :
    Lockstep equal
      { w with file := some (.ok (some w.service.records.values)) }
      { t with file := some (.ok (some t.service.records.values)) } where
  records := h.records
  writes := h.writes
  forgets := h.forgets
  had := h.had
  noted := h.noted
  named := h.named
  ownIds := h.ownIds
  file := by rw [h.records]
  reload := construct_saved h.ownIds

namespace Lockstep

variable (unicode : UnicodeDatabase) {equal : PyDict R → PyDict R → Bool} {w : Watched R}
  {t : Session R}

/-- Restarting: what is constructed has the records, and everything else is lost. -/
theorem restart (h : Lockstep equal w t) :
    t.answer unicode equal .restart = w.toSession.answerAlone unicode .restart ∧
      Lockstep equal (w.after unicode .restart) (t.after unicode equal .restart) := by
  -- the file holds what the service has
  have hreload : construct equal t.file = .ok { records := w.service.records } := by
    rw [h.file]
    exact h.reload
  constructor
  · unfold Session.answer Session.answerAlone
    dsimp only
    rw [hreload]
  · have hafter : t.after unicode equal .restart =
        { t with service := { records := w.service.records } } := by
      unfold Session.after
      dsimp only
      rw [hreload]
    rw [hafter]
    refine { records := rfl, writes := fun k => ?_, forgets := fun k => ?_, had := fun k hk => ?_,
             noted := fun k hk => hk, named := h.named, ownIds := h.ownIds, file := h.file,
             reload := h.reload }
    -- the lost keys are all that were there
    · show none = ite (k ∈ w.service.idempotency.keys.toFinset) none _
      split_ifs with hk
      · rfl
      · rw [List.mem_toFinset, Dict.mem_keys_iff, not_exists] at hk
        exact (Option.eq_none_iff_forall_ne_some.mpr hk).symm
    · exact iff_of_false (Finset.notMem_empty k) fun hboth => hboth.2 hboth.1
    · exact (Dict.mem_keys_iff _ _).mp (List.mem_toFinset.mp hk)

omit [Python R] in
theorem memoryId_ne_empty (hex : String) : "mem_" ++ hex ≠ "" := by
  intro h
  have hlength := congrArg String.length h
  rw [String.length_append] at hlength
  exact absurd hlength (by simp)

/-- A write with a key that was not lost. -/
theorem write (h : Lockstep equal w t) (draw : Draw) {request : WriteRequest R}
    (hkey : request.key ∉ w.lost.writes) :
    (t.call unicode (.write draw request)).1 = (w.call unicode (.write draw request)).1 ∧
      Lockstep equal (w.after unicode (.call (.write draw request)))
        (t.call unicode (.write draw request)).2 := by
  -- a key that is not lost gives the same answer
  have hsame : t.service.idempotency.get? request.key = w.service.idempotency.get? request.key := by
    rw [h.writes, if_neg hkey]
  unfold Watched.after Session.afterAlone Session.call PersistentLocalMemoryService.write
  dsimp only
  rw [hsame, h.records]
  cases truthyKey (w.service.idempotency.get? request.key) with
  | some previous =>
    dsimp only
    cases w.service.records.get? previous with
    | none => exact ⟨rfl, h⟩
    | some record => exact ⟨rfl, h.toBeside.saved⟩
  | none =>
    refine ⟨rfl, ?_⟩
    suffices hbeside : Beside
        { service :=
            { w.service with
              records := w.service.records.set ("mem_" ++ draw.hex) (newRecord draw request)
              idempotency := w.service.idempotency.set request.key ("mem_" ++ draw.hex) }
          file := w.file
          lost := w.lost }
        { service :=
            { t.service with
              records := w.service.records.set ("mem_" ++ draw.hex) (newRecord draw request)
              idempotency := t.service.idempotency.set request.key ("mem_" ++ draw.hex) }
          file := t.file } from hbeside.saved
    constructor
    case records => rfl
    case writes =>
      -- the new key is in both, the others as before
      intro k
      dsimp only
      rw [Dict.get?_set, Dict.get?_set, h.writes]
      by_cases hk : k = request.key
      · rw [if_pos hk, if_pos hk, if_neg (hk ▸ hkey)]
      · rw [if_neg hk, if_neg hk]
    case forgets => exact h.forgets
    case had =>
      intro k hk
      have hne : k ≠ request.key := fun heq => hkey (heq ▸ hk)
      obtain ⟨id, hid⟩ := h.had k hk
      exact ⟨id, (Dict.get?_set_of_ne _ _ hne).trans hid⟩
    case noted => exact h.noted
    -- a drawn id is not empty
    case named =>
      intro k id hid
      dsimp only at hid
      rw [Dict.get?_set] at hid
      split_ifs at hid with hk
      · cases hid
        exact memoryId_ne_empty draw.hex
      · exact h.named k id hid
    case ownIds => exact ownIds_set h.ownIds rfl

/-- A write with a key that was lost is a replay of one service and creates for the other. -/
theorem write_differs (h : Lockstep equal w t) (draw : Draw) {request : WriteRequest R}
    (hkey : request.key ∈ w.lost.writes) :
    (t.call unicode (.write draw request)).1.map CallResult.aside ≠
      (w.call unicode (.write draw request)).1.map CallResult.aside := by
  obtain ⟨previous, hprevious⟩ := h.had _ hkey
  have hlost : t.service.idempotency.get? request.key = none := by
    rw [h.writes, if_pos hkey]
  have hreplay : truthyKey (w.service.idempotency.get? request.key) = some previous :=
    truthyKey_eq_some.mpr ⟨hprevious, h.named _ _ hprevious⟩
  unfold Session.call PersistentLocalMemoryService.write
  dsimp only
  rw [hlost, hreplay]
  dsimp only
  cases w.service.records.get? previous with
  | none => nofun
  | some record => nofun

/-- A search reads the records only. -/
theorem search (h : Lockstep equal w t) (request : SearchRequest R) :
    (t.call unicode (.search request)).1 = (w.call unicode (.search request)).1 ∧
      Lockstep equal (w.after unicode (.call (.search request)))
        (t.call unicode (.search request)).2 := by
  refine ⟨?_, h⟩
  have hsame := h.base
  unfold Session.call
  dsimp only
  rw [hsame]

/-- An update reads and changes the records only. -/
theorem update (h : Lockstep equal w t) (now : String) (request : UpdateRequest R) :
    (t.call unicode (.update now request)).1 = (w.call unicode (.update now request)).1 ∧
      Lockstep equal (w.after unicode (.call (.update now request)))
        (t.call unicode (.update now request)).2 := by
  have hsame := h.base
  unfold Watched.after Session.afterAlone Session.call PersistentLocalMemoryService.update
  dsimp only
  rw [hsame]
  -- an error leaves both as they are
  rcases local_update_cases now request w.service.toInMemoryMemoryService with
    ⟨e, he⟩ | ⟨record, record', hrecord, hid, hok⟩
  · rw [he, ← hsame]
    refine ⟨rfl, ?_⟩
    dsimp only [Session.saved]
    rw [hsame]
    exact { h with records := rfl }
  -- the record is replaced in both, and saved
  · rw [hok]
    refine ⟨rfl, ?_⟩
    suffices hbeside : Beside
        { service :=
            { w.service with records := w.service.records.set request.id.val record' }
          file := w.file
          lost := w.lost }
        { service :=
            { t.service with records := w.service.records.set request.id.val record' }
          file := t.file } from hbeside.saved
    refine { h.toBeside with records := rfl, ownIds := ownIds_set h.ownIds (hid.trans ?_) }
    exact h.ownIds _ ((Dict.mem_items_iff _ _ _).mpr hrecord)

omit [Python R] in
/-- Noting a key, whatever becomes of the records. -/
theorem noting (h : Lockstep equal w t) {records : Dict String (PyDict R)} (hown : OwnIds records)
    (k : String × String) :
    Beside
      { service := { w.service with records, forgetKeys := insert k w.service.forgetKeys }
        file := w.file
        lost := { w.lost with forgets := w.lost.forgets.erase k } }
      { service := { t.service with records, forgetKeys := insert k t.service.forgetKeys }
        file := t.file } := by
  refine { h.toBeside with
    records := rfl, forgets := fun k' => ?_, noted := fun k' hk' => ?_, ownIds := hown }
  · dsimp only
    rw [Finset.mem_insert, Finset.mem_insert, Finset.mem_erase, h.forgets]
    by_cases hk : k' = k
    · simp [hk]
    · simp [hk]
  · exact Finset.mem_insert_of_mem (h.noted k' (Finset.mem_of_mem_erase hk'))

/-- A forget that was not asked for before the restart, or finds nothing of the owner's. -/
theorem forget (h : Lockstep equal w t) {request : ForgetRequest}
    (hlost : request.key ∈ w.lost.forgets → AbsentFor request w.service.records) :
    (t.call unicode (.forget request)).1 = (w.call unicode (.forget request)).1 ∧
      Lockstep equal (w.after unicode (.call (.forget request)))
        (t.call unicode (.forget request)).2 := by
  unfold Watched.after Session.afterAlone Session.call
  dsimp only
  -- noted, or nothing to forget: both answer the same
  by_cases habsent : request.key ∈ w.service.forgetKeys ∨ AbsentFor request w.service.records
  · have habsent' : request.key ∈ t.service.forgetKeys ∨ AbsentFor request t.service.records := by
      rw [h.records, h.forgets]
      -- a lost key is harmless where the record is absent
      by_cases hkey : request.key ∈ w.lost.forgets
      · exact .inr (hlost hkey)
      · exact habsent.imp_left fun hnoted => ⟨hnoted, hkey⟩
    rw [forget_absent habsent, forget_absent habsent', h.base]
    exact ⟨rfl, (h.noting h.ownIds request.key).saved⟩
  -- the record is there, and the key is noted in neither
  · obtain ⟨hkey, hpresent⟩ := not_or.mp habsent
    have hkey' : request.key ∉ t.service.forgetKeys := fun hin => hkey ((h.forgets _).mp hin).1
    obtain ⟨record, hrecord, howner⟩ := exists_record_of_not_absentFor hpresent
    have hrecord' : t.service.records.get? request.id.val = some record := by
      rw [h.records]
      exact hrecord
    obtain ⟨hbroken, hthere⟩ := forget_present hkey hrecord
    obtain ⟨hbroken', hthere'⟩ := forget_present hkey' hrecord'
    -- a record without owner raises, before anything changes
    cases hnone : (record.get "owner_id").isNone with
    | true =>
      rw [hbroken hnone, hbroken' hnone]
      have hsame : w.lost.forgets.erase request.key = w.lost.forgets :=
        Finset.erase_eq_of_notMem fun hin => hkey (h.noted _ hin)
      rw [hsame]
      exact ⟨rfl, h⟩
    | false =>
      have howner := howner.resolve_left (by simp [hnone])
      rw [hthere hnone howner, hthere' hnone howner, h.records]
      exact ⟨rfl, (h.noting (ownIds_pop h.ownIds _) request.key).saved⟩

/-- A forget that was asked for before the restart and finds the owner's memory. -/
theorem forget_differs (h : Lockstep equal w t) {request : ForgetRequest}
    (hkey : request.key ∈ w.lost.forgets) (hpresent : ¬AbsentFor request w.service.records) :
    (t.call unicode (.forget request)).1.map CallResult.aside ≠
      (w.call unicode (.forget request)).1.map CallResult.aside := by
  obtain ⟨record, hrecord, howner⟩ := exists_record_of_not_absentFor hpresent
  have hkey' : request.key ∉ t.service.forgetKeys := fun hin => ((h.forgets _).mp hin).2 hkey
  have hrecord' : t.service.records.get? request.id.val = some record := by
    rw [h.records]
    exact hrecord
  obtain ⟨hbroken, hthere⟩ := forget_present hkey' hrecord'
  unfold Session.call
  dsimp only
  rw [forget_absent (.inl (h.noted _ hkey))]
  cases hnone : (record.get "owner_id").isNone with
  | true =>
    rw [hbroken hnone]
    nofun
  | false =>
    rw [hthere hnone (howner.resolve_left (by simp [hnone]))]
    nofun

end Lockstep

/-! ## Whole runs -/

omit [Python R] in
/-- A service on a file that it was constructed on, with nothing lost yet. -/
theorem lockstep_constructed {equal : PyDict R → PyDict R → Bool} {file : LocalFile R}
    {service : PersistentLocalMemoryService R} (h : construct equal file = .ok service) :
    Lockstep equal { service, file } { service, file } := by
  obtain ⟨hservice, hown⟩ := construct_ownIds h
  refine { records := rfl, writes := fun k => ?_, forgets := fun k => ?_, had := fun k hk => ?_,
           noted := fun k hk => ?_, named := fun k id hid => ?_, ownIds := hown, file := rfl,
           reload := hservice ▸ h }
  · exact (if_neg (Finset.notMem_empty k)).symm
  · exact (and_iff_left (Finset.notMem_empty k)).symm
  · exact absurd hk (Finset.notMem_empty k)
  · exact absurd hk (Finset.notMem_empty k)
  · rw [hservice] at hid
    cases hid

/-- Keeping book does not change what is answered. -/
theorem answers_watched (unicode : UnicodeDatabase) (w : Watched R) (events : List (Event R)) :
    answers (Watched.after unicode) (fun w event => w.answerAlone unicode event) w events =
      answers (Session.afterAlone unicode) (Session.answerAlone unicode) w.toSession events := by
  refine answers_part Watched.toSession ?_ ?_ w events
  · exact fun _ _ => rfl
  · exact fun _ _ => rfl

/-- Restarting a service, at whatever points of a run, shows in its answers exactly if the run needs
what a restart has lost. -/
theorem restarts_transparent_iff (unicode : UnicodeDatabase) (equal : PyDict R → PyDict R → Bool)
    {file : LocalFile R} {service : PersistentLocalMemoryService R}
    (h : construct equal file = .ok service) (events : List (Event R)) :
    (answers (Session.after unicode equal) (Session.answer unicode equal) ⟨service, file⟩
        events).map aside =
      (answers (Session.afterAlone unicode) (Session.answerAlone unicode) ⟨service, file⟩
        events).map aside ↔
      Undisturbed unicode ⟨service, file⟩ events := by
  have halone := answers_watched unicode { service, file } events
  rw [← halone]
  refine answers_eq_iff (Lockstep equal) aside ?_ ?_ (lockstep_constructed h) events
  -- undisturbed steps are answered alike
  · rintro w t (c | _) hstep hind
    · cases c with
      | write draw request =>
        obtain ⟨hanswer, hnext⟩ := hstep.write unicode draw hind
        exact ⟨congrArg some hanswer, hnext⟩
      | search request =>
        obtain ⟨hanswer, hnext⟩ := hstep.search unicode request
        exact ⟨congrArg some hanswer, hnext⟩
      | update now request =>
        obtain ⟨hanswer, hnext⟩ := hstep.update unicode now request
        exact ⟨congrArg some hanswer, hnext⟩
      | forget request =>
        obtain ⟨hanswer, hnext⟩ := hstep.forget unicode hind
        exact ⟨congrArg some hanswer, hnext⟩
    · exact hstep.restart unicode
  -- the first disturbed one is not
  · rintro w t (c | _) hstep hind
    · cases c with
      | write draw request =>
        exact fun heq => hstep.write_differs unicode draw (not_not.mp hind) (Option.some.inj heq)
      | search request => exact absurd trivial hind
      | update now request => exact absurd trivial hind
      | forget request =>
        obtain ⟨hkey, hpresent⟩ := Classical.not_imp.mp hind
        exact fun heq => hstep.forget_differs unicode hkey hpresent (Option.some.inj heq)
    · exact absurd trivial hind

/-! ### A retry -/

theorem firstMorning_nonneg : (0 : Int) ≤ 63902844000000000 := by decide

theorem firstMorning_lt : (63902844000000000 : Int) < maxWall := by decide

def firstMorning : DateTime where
  wall := 63902844000000000
  offset := some 0
  wall_nonneg := firstMorning_nonneg
  wall_lt := firstMorning_lt
  offset_lt := utc_offset_lt

theorem firstMorning_utc : ∃ d : DateTime, d.offset = some 0 ∧ d.zulu = firstMorning.zulu :=
  ⟨firstMorning, rfl, rfl⟩

theorem trimBoth_tea : trimBoth isTrimmed "tea" = "tea" := by decide

theorem length_tea : 1 ≤ "tea".length ∧ "tea".length ≤ maxContentLength := by decide

theorem tea_not_blank : isBlank "tea" = false := by decide

/-- `alice` writes a note, under the key `u1`. -/
def teaWrite : WriteRequest ℚ where
  content := ⟨"tea", trimBoth_tea, length_tea⟩
  content_not_blank := tea_not_blank
  type := .fact
  ownerId := ⟨"alice", trimBoth_alice, length_alice⟩
  space := none
  importance := ⟨1, inUnit_one⟩
  confidence := ⟨1, inUnit_one⟩
  provenance :=
    { sourceType := .user, capturedAt := ⟨firstMorning.zulu, firstMorning_utc⟩, sourceId := none
      sourceModel := none, evidence := none }
  idempotencyKey := ⟨"u1", trimBoth_raiseKey, length_raiseKey⟩
  timeoutMs := ⟨2500, defaultTimeout_admitted⟩

theorem trimBoth_firstId : trimBoth isTrimmed "mem_1" = "mem_1" := by decide

theorem length_firstId : 1 ≤ "mem_1".length ∧ "mem_1".length ≤ 128 := by decide

/-- She has it forgotten. -/
def teaForget : ForgetRequest where
  id := ⟨"mem_1", trimBoth_firstId, length_firstId⟩
  ownerId := ⟨"alice", trimBoth_alice, length_alice⟩
  idempotencyKey := ⟨"u1", trimBoth_raiseKey, length_raiseKey⟩
  reason := none
  timeoutMs := ⟨2500, defaultTimeout_admitted⟩

/-- The value of a number or of a boolean. -/
def numberOf : PyObj R → Option R
  | .bool b => some (Python.ofInt (if b then 1 else 0))
  | .int n => some (Python.ofInt n)
  | .float x => some x
  | _ => none

mutual

/-- `a == b` on plain data: numbers by value, items of a dict in any order. -/
def sameObj : PyObj R → PyObj R → Bool
  | .none, .none => true
  | .str a, .str b => decide (a = b)
  | .bytes a, .bytes b => decide (a = b)
  | .list items, .list items' => sameList items items'
  | .dict items, .dict items' => decide (items.length = items'.length) && sameDict items items'
  | a, b =>
    match numberOf a, numberOf b with
    | some x, some y => Python.numEq x y
    | _, _ => false

def sameList : List (PyObj R) → List (PyObj R) → Bool
  | [], [] => true
  | a :: items, b :: items' => sameObj a b && sameList items items'
  | _, _ => false

def sameDict : PyDict R → PyDict R → Bool
  | [], _ => true
  | (key, a) :: items, items' =>
    (match items'.lookup key with
      | none => false
      | some b => sameObj a b) && sameDict items items'

end

/-- `current == incoming` on dicts. -/
def equalDicts (current incoming : PyDict R) : Bool := sameObj (.dict current) (.dict incoming)

/-- A database that knows the letters and digits of ASCII. -/
def asciiLetters : UnicodeDatabase where
  casefold text := String.ofList (text.toList.map Char.toLower)
  isWord c := c.isAlphanum || decide (c = '_')

/-- A restart between the two shows in no answer. -/
theorem restarts_transparent_iff_teaForget :
    (answers (Session.after asciiLetters (equalDicts (R := ℚ)))
        (Session.answer asciiLetters equalDicts) ⟨{}, none⟩
        [.call (.write ⟨"1", "t1"⟩ teaWrite), .restart, .call (.forget teaForget)]).map aside =
      (answers (Session.afterAlone asciiLetters) (Session.answerAlone asciiLetters) ⟨{}, none⟩
        [.call (.write ⟨"1", "t1"⟩ teaWrite), .restart, .call (.forget teaForget)]).map aside := by
  have hempty : construct (equalDicts (R := ℚ)) none = .ok {} := rfl
  refine (restarts_transparent_iff asciiLetters equalDicts hempty _).mpr ⟨?_, trivial, ?_, trivial⟩
  · exact Finset.notMem_empty _
  · exact fun hlost => absurd hlost (Finset.notMem_empty _)

/-- The note is written, the service restarted, and the write sent again. -/
def retried : List (Event ℚ) :=
  [.call (.write ⟨"1", "t1"⟩ teaWrite), .restart, .call (.write ⟨"2", "t2"⟩ teaWrite)]

/-- The status of a write. -/
def writeStatus : Option (Except PyError (CallResult R)) → Option WriteStatus
  | some (.ok (.write status _)) => some status
  | _ => none

/-- The retry creates a second record, where the service that goes on answers `already_exists`. -/
theorem retry_creates_again :
    construct (equalDicts (R := ℚ)) none = .ok {} ∧
      (answers (Session.after asciiLetters (equalDicts (R := ℚ)))
        (Session.answer asciiLetters equalDicts) ⟨{}, none⟩ retried).map writeStatus =
          [some .created, none, some .created] ∧
      (answers (Session.afterAlone asciiLetters) (Session.answerAlone asciiLetters) ⟨{}, none⟩
        retried).map writeStatus = [some .created, none, some .alreadyExists] ∧
      (play (Session.after asciiLetters (equalDicts (R := ℚ))) ⟨{}, none⟩
        retried).service.records.keys = ["mem_1", "mem_2"] ∧
      (answers (Session.after asciiLetters (equalDicts (R := ℚ)))
        (Session.answer asciiLetters equalDicts) ⟨{}, none⟩ retried).map aside ≠
          (answers (Session.afterAlone asciiLetters) (Session.answerAlone asciiLetters) ⟨{}, none⟩
            retried).map aside := by
  refine ⟨rfl, rfl, rfl, rfl, fun hsame => ?_⟩
  have hstatus : [some WriteStatus.created, none, some .created] =
      [some .created, none, some .alreadyExists] := congrArg (List.map writeStatus) hsame
  exact absurd hstatus (by decide)

end OpenMemory.Mcp
