import OpenMemory.Application.Codec
import OpenMemory.Cloud.Security
import OpenMemory.Lib.Naming
import OpenMemory.Lib.Nesting

/-!
# The file of the local service (`_load`, `import_records`)

`PersistentLocalMemoryService` reads its file when it is constructed. `_load` answers `OSError`,
`ValueError` and `TypeError` with an empty store, and hands the listed records to `import_records`,
which has exceptions of its own: `KeyError` for a record without an id, and `VersionConflictError`
for an id that comes twice. Neither is caught, nor is the `RecursionError` of a text that nests too
deeply. The import is a definition over any kind of records (`Incoming`): all it asks of a record is
its id, which may be any value that can be a key.

`load_harmless_iff` says for which files the constructor returns. The bytes are decoded strictly, but
the texts of the payload are texts of code points: a file may escape half a surrogate pair.
-/

namespace OpenMemory.Mcp

open Lib
open Cloud (Bytes decodeText decodeText_encodeText)

/-! ## Importing -/

/-- What the import does with a record `V`, for a store of `D` under keys `K`. -/
structure Incoming (V K D : Type) where
  /-- `incoming["id"]`, as a key. -/
  id : V → Except PyError K
  /-- `current == incoming`. -/
  equal : D → V → Bool
  /-- `dict(incoming)`. -/
  dict : V → D

abbrev versionConflictError : PyError := .foreign "VersionConflictError" none

abbrev typeError : PyError := .foreign "TypeError" none

abbrev recursionError : PyError := .foreign "RecursionError" none

section Import

variable {V K D : Type} [DecidableEq K] (incoming : Incoming V K D)

/-- The first loop of `import_records`; `incomingIds` are those of the records before. -/
def checkIncoming (records : Dict K D) : List K → List V → Except PyError Unit
  | _, [] => .ok ()
  | incomingIds, record :: rest =>
    match incoming.id record with
    | .error e => .error e
    | .ok memoryId =>
      if memoryId ∈ incomingIds then .error versionConflictError
      else
        match records.get? memoryId with
        | none => checkIncoming records (memoryId :: incomingIds) rest
        | some current =>
          if incoming.equal current record then
            checkIncoming records (memoryId :: incomingIds) rest
          else .error versionConflictError

/-- The second loop: the store, and how many records are new in it. -/
def insertIncoming : List V → Dict K D × Nat → Except PyError (Dict K D × Nat)
  | [], done => .ok done
  | record :: rest, (records, imported) =>
    match incoming.id record with
    | .error e => .error e
    | .ok memoryId =>
      if (records.get? memoryId).any fun current => incoming.equal current record then
        insertIncoming rest (records, imported)
      else insertIncoming rest (records.set memoryId (incoming.dict record), imported + 1)

/-- `import_records`. -/
def importRecords (listed : List V) (records : Dict K D) : Except PyError (Dict K D × Nat) := do
  checkIncoming incoming records [] listed
  insertIncoming incoming listed (records, 0)

/-- `except (OSError, ValueError, TypeError)` catches it. -/
def loadCatches : PyError → Bool
  | .valueError _ => true
  | .pydanticValidationError => true
  | .connectionError => true
  | .timeoutError => true
  | .foreign name _ => decide (name ∈ ["OSError", "TypeError"])
  | _ => false

/-- `_load`, of what comes of reading the file: the records that the payload lists, if it lists any;
`none` for no file. -/
def load (file : Option (Except PyError (Option (List V)))) : Except PyError (Dict K D) :=
  match file with
  | none => .ok ∅
  | some reading =>
    match (do
      match ← reading with
      | none => pure ∅
      | some listed =>
        let (records, _) ← importRecords incoming listed ∅
        pure records) with
    | .ok records => .ok records
    | .error e => if loadCatches e then .ok ∅ else .error e

variable {incoming}

/-- An empty store has nothing that a record could disagree with. -/
theorem checkIncoming_empty (incomingIds : List K) (listed : List V) :
    checkIncoming incoming ∅ incomingIds listed =
      (nameAll incoming.id versionConflictError incomingIds listed).map fun _ => () := by
  induction listed generalizing incomingIds with
  | nil => rfl
  | cons record rest ih =>
    rw [checkIncoming, nameAll]
    cases incoming.id record with
    | error e => rfl
    | ok memoryId =>
      dsimp only
      split_ifs
      · rfl
      · have hnone : (∅ : Dict K D).get? memoryId = none := rfl
        rw [hnone]
        dsimp only
        rw [ih]
        cases nameAll incoming.id versionConflictError (memoryId :: incomingIds) rest <;> rfl

/-- Records with ids of their own that are not in the store are appended. -/
theorem insertIncoming_new {listed : List V} {names : List K}
    (hnames : List.Forall₂ (fun record k => incoming.id record = .ok k) listed names)
    (hnodup : names.Nodup) (records : Dict K D) (imported : Nat)
    (hnew : ∀ k ∈ names, records.get? k = none) :
    insertIncoming incoming listed (records, imported) =
      .ok (Dict.setAll (names.zip (listed.map incoming.dict)) records,
        imported + listed.length) := by
  induction hnames generalizing records imported with
  | nil => rfl
  | @cons record k rest names hid _ ih =>
    obtain ⟨hk, hnodup⟩ := List.nodup_cons.mp hnodup
    rw [insertIncoming, hid]
    dsimp only
    rw [hnew k List.mem_cons_self, if_neg (by simp)]
    rw [ih hnodup _ _ fun k' hk' => by
      have hne : k' ≠ k := fun heq => hk (heq ▸ hk')
      rw [Dict.get?_set_of_ne _ _ hne]
      exact hnew k' (List.mem_cons_of_mem _ hk')]
    rw [List.length_cons, Nat.add_assoc, Nat.add_comm 1]
    rfl

/-- The import into an empty store: as far as the ids go, and then everything. -/
theorem importRecords_empty (listed : List V) :
    importRecords incoming listed ∅ =
      (nameAll incoming.id versionConflictError [] listed).map fun names =>
        (Dict.setAll (names.zip (listed.map incoming.dict)) ∅, listed.length) := by
  unfold importRecords
  rw [checkIncoming_empty]
  cases hall : nameAll incoming.id versionConflictError [] listed with
  | error e => rfl
  | ok names =>
    obtain ⟨hnames, hnodup, -⟩ := nameAll_ok.mp hall
    have hinsert := insertIncoming_new hnames hnodup ∅ 0 fun _ _ => rfl
    rw [Nat.zero_add] at hinsert
    exact hinsert

/-- The items of the store that an import into an empty one makes. -/
theorem items_imported {listed : List V} {names : List K}
    (hnames : List.Forall₂ (fun record k => incoming.id record = .ok k) listed names)
    (hnodup : names.Nodup) :
    (Dict.setAll (names.zip (listed.map incoming.dict)) ∅).items =
      names.zip (listed.map incoming.dict) := by
  have hkeys : (names.zip (listed.map incoming.dict)).map Prod.fst = names := by
    rw [List.map_fst_zip]
    rw [List.length_map]
    exact hnames.length_eq.ge
  rw [Dict.items_setAll_of_new (by rwa [hkeys]) fun _ _ => rfl]
  rfl

/-- Whatever the file holds, the import comes to an end unless what it raises escapes. -/
theorem load_listed (listed : List V) :
    load incoming (some (.ok (some listed))) =
      match nameAll incoming.id versionConflictError [] listed with
      | .ok names => .ok (Dict.setAll (names.zip (listed.map incoming.dict)) ∅)
      | .error e => if loadCatches e then .ok ∅ else .error e := by
  unfold load
  dsimp only [except_ok_bind]
  rw [importRecords_empty]
  cases nameAll incoming.id versionConflictError [] listed <;> rfl

end Import

/-! ## What a file says -/

variable {R : Type} [Python R] [Conversions R] [DecidableEq R]

/-- A value that `json.loads` returns. -/
abbrev FileValue (R : Type) : Type := JsonTree CodePoints (Number R)

/-- The members of a dict. -/
abbrev Members (R : Type) : Type := List (CodePoints × FileValue R)

/-- `members[key]`, if it is there. -/
def fieldOf (members : Members R) (key : String) : Option (FileValue R) :=
  members.lookup (.ofString key)

/-- A value as a key of a dict or a member of a set: a boolean is an integer, and so is a float that
equals one. -/
inductive HashKey (R : Type)
  | none
  | int (n : Int)
  | float (x : Number R)
  | str (s : CodePoints)
  deriving DecidableEq

/-- The key of a value, `none` where it has no hash. -/
def hashKey : FileValue R → Option (HashKey R)
  | .null => some .none
  | .bool b => some (.int (if b then 1 else 0))
  | .int n => some (.int n)
  | .float (.finite x) =>
    let n := Conversions.trunc x
    some (if Python.numEq x (Python.ofInt n) then .int n else .float (.finite x))
  | .float x => some (.float x)
  | .str s => some (.str s)
  | .arr _ => Option.none
  | .obj _ => Option.none

/-- `incoming["id"]`, as a key. -/
def recordId : FileValue R → Except PyError (HashKey R)
  | .obj members =>
    match fieldOf members "id" with
    | none => .error .keyError
    | some id =>
      match hashKey id with
      | none => .error typeError
      | some key => .ok key
  | _ => .error typeError

/-- The records of a file; `equal` is `==` on dicts. -/
def jsonRecords (equal : Members R → FileValue R → Bool) :
    Incoming (FileValue R) (HashKey R) (Members R) where
  id := recordId
  equal := equal
  dict
    | .obj members => members
    | _ => []

/-- The records that a payload lists. -/
def listedIn : FileValue R → Option (List (FileValue R))
  | .obj members =>
    match fieldOf members "format" with
    | some (.str format) =>
      if format ≠ .ofString "omp.local.v0" then none
      else
        match fieldOf members "memories" with
        | none => some []
        | some (.arr records) => some records
        | some _ => none
    | _ => none
  | _ => none

/-! ## Reading -/

mutual

/-- The value of a JSON text; of two members with one name the later counts. -/
def loadedOf : ScannedJson → Except ReadFailure (FileValue R)
  | .null => .ok .null
  | .bool b => .ok (.bool b)
  | .int n => .ok (.int n)
  | .float literal =>
    if literal = "NaN" then .ok (.float .nan)
    else if literal = "Infinity" then .ok (.float (.infinity false))
    else if literal = "-Infinity" then .ok (.float (.infinity true))
    else (orValueError (Conversions.parseFloat literal)).map .float
  | .str s => .ok (.str s)
  | .arr items => (loadedItems items).map .arr
  | .obj members => (loadedMembers members []).map .obj

def loadedItems : List ScannedJson → Except ReadFailure (List (FileValue R))
  | [] => .ok []
  | item :: items => do
    let value ← loadedOf item
    let values ← loadedItems items
    pure (value :: values)

def loadedMembers :
    List (CodePoints × ScannedJson) → Members R → Except ReadFailure (Members R)
  | [], done => .ok done
  | (key, item) :: members, done => do
    let value ← loadedOf item
    loadedMembers members (Dict.setItems key value done)

end

/-- `json.loads(path.read_text(encoding="utf-8"))`, of the bytes of the file. -/
def loadsFile (R : Type) [Python R] [Conversions R] (limits : ReadLimits) (data : Bytes) :
    Except ReadFailure (FileValue R) := do
  let text ← orValueError (decodeText data)
  let value ← ScannedJson.loadsWithin limits (.ofString text)
  loadedOf value

def raisedReading : ReadFailure → PyError
  | .valueError => .valueError ""
  | .recursionError => recursionError

/-- `PersistentLocalMemoryService.__init__` on a file: the records of the service. -/
def loadFile (equal : Members R → FileValue R → Bool) (limits : ReadLimits) (file : Option Bytes) :
    Except PyError (Dict (HashKey R) (Members R)) :=
  load (jsonRecords equal) (file.map fun data =>
    match loadsFile R limits data with
    | .error e => .error (raisedReading e)
    | .ok payload => .ok (listedIn payload))

/-! ## Harmless files -/

/-- A dict with an id that can be a key. -/
def Named (record : FileValue R) (key : HashKey R) : Prop :=
  ∃ members id, record = .obj members ∧ fieldOf members "id" = some id ∧ hashKey id = some key

/-- A dict without an id. -/
def LacksId (record : FileValue R) : Prop :=
  ∃ members, record = .obj members ∧ fieldOf members "id" = none

/-- The file lists the records. -/
def Lists (limits : ReadLimits) (data : Bytes) (listed : List (FileValue R)) : Prop :=
  ∃ payload, loadsFile R limits data = .ok payload ∧ listedIn payload = some listed

/-- The constructor returns a service, which has the listed records, each under its id, or none. -/
def Harmless (limits : ReadLimits) (data : Bytes)
    (constructed : Except PyError (Dict (HashKey R) (Members R))) : Prop :=
  ∃ records, constructed = .ok records ∧
    (records = ∅ ∨ ∃ listed, Lists limits data listed ∧
      List.Forall₂ (fun record item => record = .obj item.2 ∧ Named record item.1) listed
        records.items)

/-- Going through the records from the first, as long as each has an id that can be a key, one comes
to no dict without an id and to no id for the second time. -/
def WellListed (listed : List (FileValue R)) : Prop :=
  ∀ pre record post, listed = pre ++ record :: post → (∀ earlier ∈ pre, ∃ key, Named earlier key) →
    ¬LacksId record ∧ ∀ key, Named record key → ∀ earlier ∈ pre, ¬Named earlier key

variable {equal : Members R → FileValue R → Bool}

omit [DecidableEq R] in
theorem recordId_ok {record : FileValue R} {key : HashKey R} :
    recordId record = .ok key ↔ Named record key := by
  constructor
  · intro h
    cases record with
    | obj members =>
      dsimp only [recordId] at h
      split at h
      · cases h
      · rename_i id hid
        split at h
        · cases h
        · rename_i key' hkey
          cases h
          exact ⟨members, id, rfl, hid, hkey⟩
    | _ => cases h
  · rintro ⟨members, id, rfl, hid, hkey⟩
    dsimp only [recordId]
    rw [hid]
    dsimp only
    rw [hkey]

omit [DecidableEq R] in
/-- Only a missing id escapes; a record of another type, and an id without a hash, are caught. -/
theorem recordId_contained {record : FileValue R} :
    (∀ e, recordId record = .error e → loadCatches e = true) ↔ ¬LacksId record := by
  constructor
  · rintro h ⟨members, rfl, hid⟩
    have hraises : recordId (.obj members) = .error .keyError := by
      dsimp only [recordId]
      rw [hid]
    exact absurd (h _ hraises) (by decide)
  · intro h e he
    cases record with
    | obj members =>
      dsimp only [recordId] at he
      split at he
      · rename_i hid
        exact absurd ⟨members, rfl, hid⟩ h
      · split at he
        · cases he
          rfl
        · cases he
    | _ =>
      cases he
      rfl

/-- The import of a list into an empty store returns, or ends in an exception that is caught. -/
theorem nameAll_contained_iff (listed : List (FileValue R)) :
    (∀ e, nameAll recordId versionConflictError [] listed = .error e →
      loadCatches e = true) ↔ WellListed listed := by
  rw [nameAll_contained (by decide)]
  unfold WellListed
  simp only [recordId_ok, recordId_contained, List.not_mem_nil, not_false_eq_true, true_and, ne_eq]

omit [DecidableEq R] in
/-- What the import enters: each record, under its id. -/
theorem entered {listed : List (FileValue R)} {names : List (HashKey R)}
    (h : List.Forall₂ (fun record key => recordId record = .ok key) listed names) :
    List.Forall₂ (fun record item => record = .obj item.2 ∧ Named record item.1) listed
      (names.zip (listed.map (jsonRecords equal).dict)) := by
  induction h with
  | nil => exact .nil
  | cons hid _ ih =>
    have hnamed := recordId_ok.mp hid
    obtain ⟨members, -, rfl, -, -⟩ := recordId_ok.mp hid
    exact .cons ⟨rfl, hnamed⟩ ih

/-- Files that list records are harmless where the import into an empty store is. -/
theorem load_listed_harmless_iff {limits : ReadLimits} {data : Bytes} {listed : List (FileValue R)}
    (hlists : Lists limits data listed) :
    Harmless limits data (load (jsonRecords equal) (some (.ok (some listed)))) ↔
      WellListed listed := by
  have hid : (jsonRecords equal).id = recordId := rfl
  rw [← nameAll_contained_iff, load_listed, hid]
  cases hall : nameAll recordId versionConflictError [] listed with
  | error e =>
    dsimp only
    constructor
    · rintro ⟨records, h, -⟩ e' he'
      cases he'
      by_contra hescapes
      rw [if_neg hescapes] at h
      cases h
    · intro h
      exact ⟨∅, if_pos (h e rfl), .inl rfl⟩
  | ok names =>
    refine ⟨fun _ e he => (nomatch he), fun _ => ⟨_, rfl, .inr ⟨listed, hlists, ?_⟩⟩⟩
    obtain ⟨hnames, hnodup, -⟩ := nameAll_ok.mp hall
    rw [items_imported hnames hnodup]
    exact entered hnames

/-- The constructor is harmless on a file exactly if its text nests no deeper than the interpreter
goes, and no record that the import reaches lacks an id or has that of an earlier one. -/
theorem load_harmless_iff (equal : Members R → FileValue R → Bool) (limits : ReadLimits)
    (data : Bytes) :
    Harmless limits data (loadFile equal limits (some data)) ↔
      loadsFile R limits data ≠ .error .recursionError ∧
        ∀ listed, Lists (R := R) limits data listed → WellListed listed := by
  unfold loadFile
  dsimp only [Option.map_some]
  cases hread : loadsFile R limits data with
  | error e =>
    have hnone : ∀ listed : List (FileValue R), ¬Lists limits data listed := by
      rintro listed ⟨payload, hpayload, -⟩
      rw [hread] at hpayload
      cases hpayload
    cases e with
    | valueError =>
      exact ⟨fun _ => ⟨nofun, fun listed h => absurd h (hnone listed)⟩,
        fun _ => ⟨∅, rfl, .inl rfl⟩⟩
    | recursionError =>
      refine ⟨?_, fun h => absurd rfl h.1⟩
      rintro ⟨records, h, -⟩
      cases h
  | ok payload =>
    dsimp only
    have hlists : ∀ listed, Lists limits data listed ↔ listedIn payload = some listed := by
      intro listed
      constructor
      · rintro ⟨payload', hpayload, hlisted⟩
        rw [hread] at hpayload
        cases hpayload
        exact hlisted
      · exact fun h => ⟨payload, hread, h⟩
    cases hlisted : listedIn payload with
    | none =>
      refine ⟨fun _ => ⟨nofun, fun listed h => ?_⟩, fun _ => ⟨∅, rfl, .inl rfl⟩⟩
      rw [hlists, hlisted] at h
      cases h
    | some listed =>
      rw [load_listed_harmless_iff ((hlists listed).mpr hlisted)]
      refine ⟨fun h => ⟨nofun, fun listed' h' => ?_⟩, fun h => h.2 listed ?_⟩
      · rw [hlists, hlisted] at h'
        cases h'
        exact h
      · exact (hlists listed).mpr hlisted

/-! ## Files that are not -/

/-- The limits of an interpreter as it comes. -/
def defaultLimits : ReadLimits where
  nesting := 1000
  digits := 4300

/-- The ids of the records that a text lists. -/
def namesIn (R : Type) [Python R] [Conversions R] [DecidableEq R] (limits : ReadLimits)
    (text : String) : Option (Except PyError (List (HashKey R))) :=
  (((ScannedJson.loadsWithin limits (.ofString text)).bind loadedOf).toOption.bind listedIn).map
    (nameAll recordId versionConflictError [])

/-- An id may escape half a surrogate pair, and the import goes on to the next record. -/
example : namesIn ℚ defaultLimits
    "\x7b\"format\":\"omp.local.v0\",\"memories\":[\x7b\"id\":\"\\ud800\"\x7d,\x7b\x7d]\x7d" =
      some (.error .keyError) := by
  decide +kernel

/-- What the ids of a text raise, the constructor raises, unless it is caught. -/
theorem loadFile_of_namesIn (equal : Members R → FileValue R → Bool) {limits : ReadLimits}
    {text : String} {e : PyError} (hnames : namesIn R limits text = some (.error e))
    (hescapes : loadCatches e = false) :
    loadFile equal limits (some (Cloud.encodeText text)) = .error e := by
  obtain ⟨listed, hlisted, hnames⟩ := Option.map_eq_some_iff.mp hnames
  obtain ⟨payload, hpayload, hlisted⟩ := Option.bind_eq_some_iff.mp hlisted
  have hread : loadsFile R limits (Cloud.encodeText text) = .ok payload := by
    unfold loadsFile
    rw [decodeText_encodeText]
    show (ScannedJson.loadsWithin limits (.ofString text)).bind loadedOf = _
    cases h : (ScannedJson.loadsWithin limits (.ofString text)).bind (loadedOf (R := R)) with
    | error e' =>
      rw [h] at hpayload
      cases hpayload
    | ok payload' =>
      rw [h] at hpayload
      cases hpayload
      rfl
  have hid : nameAll (jsonRecords equal).id versionConflictError [] listed = .error e := hnames
  unfold loadFile
  rw [Option.map_some, hread]
  dsimp only
  rw [hlisted, load_listed, hid]
  dsimp only
  rw [hescapes]
  rfl

mutual

/-- `a == b` on what `json.loads` returns: numbers by value, members in any order. -/
def sameLoaded : FileValue R → FileValue R → Bool
  | .arr items, .arr items' => sameItems items items'
  | .obj members, .obj members' =>
    decide (members.length = members'.length) && sameMembers members members'
  | .float .nan, _ => false
  | a, b => (hashKey a).isSome && decide (hashKey a = hashKey b)

def sameItems : List (FileValue R) → List (FileValue R) → Bool
  | [], [] => true
  | a :: items, b :: items' => sameLoaded a b && sameItems items items'
  | _, _ => false

def sameMembers : Members R → Members R → Bool
  | [], _ => true
  | (key, a) :: members, members' =>
    (match members'.lookup key with
      | none => false
      | some b => sameLoaded a b) && sameMembers members members'

end

/-- `current == incoming` on a dict and a value. -/
def equalsDict (current : Members R) (incoming : FileValue R) : Bool :=
  sameLoaded (.obj current) incoming

/-- An empty record. -/
def recordWithoutId : String := "\x7b\"format\":\"omp.local.v0\",\"memories\":[\x7b\x7d]\x7d"

/-- Two records with one id. -/
def sameIdTwice : String :=
  "\x7b\"format\":\"omp.local.v0\",\"memories\":[\x7b\"id\":1\x7d,\x7b\"id\":true\x7d]\x7d"

/-- The constructor raises `KeyError` for an empty record, and `VersionConflictError` for two with
one id. -/
theorem listed_records_escape :
    loadFile (equalsDict (R := ℚ)) defaultLimits (some (Cloud.encodeText recordWithoutId)) =
        .error .keyError ∧
      loadFile (equalsDict (R := ℚ)) defaultLimits (some (Cloud.encodeText sameIdTwice)) =
        .error versionConflictError ∧
      ¬Harmless defaultLimits (Cloud.encodeText recordWithoutId)
        (loadFile (equalsDict (R := ℚ)) defaultLimits
          (some (Cloud.encodeText recordWithoutId))) := by
  have hmissing : namesIn ℚ defaultLimits recordWithoutId = some (.error .keyError) := by
    decide +kernel
  have hrepeated : namesIn ℚ defaultLimits sameIdTwice = some (.error versionConflictError) := by
    decide +kernel
  have hraised := loadFile_of_namesIn equalsDict hmissing rfl
  refine ⟨hraised, loadFile_of_namesIn equalsDict hrepeated rfl, ?_⟩
  rintro ⟨records, h, -⟩
  rw [hraised] at h
  cases h

end OpenMemory.Mcp
