import OpenMemory.Cloud.Security
import OpenMemory.Lib.Dict

/-!
# The encrypted Cloud memory service (`cloud/encrypted_memory.py`)

The service keeps six maps in memory and persists only envelopes. Records come from `write` or from
a snapshot that `restore` accepted. A snapshot is any Python object, so objects are embedded
(`PyObj`), and a record keeps whatever fields its snapshot had besides its id, its owner and its two
envelopes (`StoredRecord`).

Nothing rolls back: an operation is a function from a state to an outcome *and* a state, and what it
has assigned before it raises stays assigned.
-/

namespace OpenMemory.Cloud

open Lib
open MonadExcept (ofExcept)

/-! ## Objects -/

/-- A key of a dict: a text or some other object. -/
inductive PyKey
  | str (s : String)
  | other (n : Nat)
  deriving DecidableEq

/-- Plain Python data. -/
inductive PyObj (R : Type)
  | none
  | bool (b : Bool)
  | int (n : Int)
  | float (x : R)
  | str (s : String)
  | bytes (data : Bytes)
  | list (items : List (PyObj R))
  | dict (items : List (PyKey × PyObj R))

/-- The items of a dict, in order. -/
abbrev PyDict (R : Type) := List (PyKey × PyObj R)

namespace PyDict

variable {R : Type}

/-- `d.get(key)`. -/
def get (d : PyDict R) (key : String) : Option (PyObj R) := List.lookup (.str key) d

/-- `d[key] = value`. -/
def set (d : PyDict R) (key : String) (value : PyObj R) : PyDict R :=
  Dict.setItems (.str key) value d

/-- `d.get(key)`, where only a text counts. -/
def getText (d : PyDict R) (key : String) : Option String :=
  match d.get key with
  | some (.str s) => some s
  | _ => none

end PyDict

variable {R : Type} [Python R]

/-- `value == n`, for an integer `n`. -/
def PyObj.eqInt (value : PyObj R) (n : Int) : Bool :=
  match value with
  | .int m => decide (m = n)
  | .bool b => decide ((if b then 1 else 0) = n)
  | .float x => Python.numEq x (Python.ofInt n)
  | _ => false

/-- `value + 1`. -/
def PyObj.succ (value : PyObj R) : Except CloudError (PyObj R) :=
  match value with
  | .int m => .ok (.int (m + 1))
  | .bool b => .ok (.int ((if b then 1 else 0) + 1))
  | .float x => .ok (.float (Python.add x (Python.ofInt 1)))
  | _ => .error .typeError

/-! ## Records -/

/-- What `_uncipher` returns: a dataclass does not check its fields. -/
structure LooseEnvelope (R : Type) where
  keyVersion : PyObj R
  wrappedDek : PyObj R
  nonce : PyObj R
  ciphertext : PyObj R

/-- `_cipher`. -/
def cipher (value : EnvelopeCiphertext) : LooseEnvelope R where
  keyVersion := .int value.keyVersion
  wrappedDek := .bytes value.wrappedDek
  nonce := .bytes value.nonce
  ciphertext := .bytes value.ciphertext

/-- The envelope, if its fields have the right types. -/
def LooseEnvelope.typed (value : LooseEnvelope R) : Option EnvelopeCiphertext :=
  match value.keyVersion, value.wrappedDek, value.nonce, value.ciphertext with
  | .int keyVersion, .bytes wrappedDek, .bytes nonce, .bytes ciphertext =>
    some ⟨keyVersion, wrappedDek, nonce, ciphertext⟩
  | _, _, _, _ => none

/-- The envelope as a dict. -/
def LooseEnvelope.toDict (value : LooseEnvelope R) : PyDict R :=
  [(.str "key_version", value.keyVersion), (.str "wrapped_dek", value.wrappedDek),
    (.str "nonce", value.nonce), (.str "ciphertext", value.ciphertext)]

/-- `_uncipher`: `EnvelopeCiphertext(**value)` takes the four fields and no other. -/
def uncipher (value : PyDict R) : Except CloudError (LooseEnvelope R) :=
  if value.all fun e => decide (e.1 ∈ [PyKey.str "key_version", .str "wrapped_dek", .str "nonce",
      .str "ciphertext"]) then
    match value.get "key_version", value.get "wrapped_dek", value.get "nonce",
        value.get "ciphertext" with
    | some keyVersion, some wrappedDek, some nonce, some ciphertext =>
      .ok ⟨keyVersion, wrappedDek, nonce, ciphertext⟩
    | _, _, _, _ => .error .typeError
  else .error .typeError

/-- The fields of a record that are not among its others. -/
def ownKeys : List PyKey :=
  [.str "id", .str "owner_id", .str "content_ciphertext", .str "provenance_ciphertext"]

/-- A stored record: id, owner, the two envelopes, and the other fields. -/
structure StoredRecord (R : Type) where
  id : String
  ownerId : String
  contentCiphertext : LooseEnvelope R
  provenanceCiphertext : LooseEnvelope R
  fields : PyDict R
  others : ∀ k ∈ fields.map Prod.fst, k ∉ ownKeys

/-- The record as a dict. -/
def StoredRecord.toDict (stored : StoredRecord R) : PyDict R :=
  (.str "id", .str stored.id) :: (.str "owner_id", .str stored.ownerId) ::
    (.str "content_ciphertext", .dict stored.contentCiphertext.toDict) ::
    (.str "provenance_ciphertext", .dict stored.provenanceCiphertext.toDict) :: stored.fields

/-- `stored[key] = value` for one of the other fields. -/
def StoredRecord.setField (stored : StoredRecord R) (key : String) (value : PyObj R)
    (h : PyKey.str key ∉ ownKeys) : StoredRecord R :=
  { stored with
    fields := stored.fields.set key value
    others := by
      intro k hk
      rcases (Dict.mem_map_fst_setItems _ _ _ _).mp hk with rfl | hmem
      · exact h
      · exact stored.others k hmem }

/-! ## State -/

structure CloudEmbedding (R : Type) where
  ownerId : String
  sourceVersion : Int
  values : List R

/-- `EncryptedCloudMemoryService`; the encryptor is a parameter of the operations. -/
structure EncryptedCloudMemoryService (R : Type) where
  keyVersion : Int := 1
  records : Dict String (StoredRecord R) := ∅
  writeKeys : Dict (String × String) String := ∅
  forgetKeys : Finset (String × String) := ∅
  tombstones : Dict (String × String) String := ∅
  embeddings : Dict String (CloudEmbedding R) := ∅

/-! ## Names -/

/-- `owner_id.split(":", 2)` into three parts. -/
def splitOwner (ownerId : String) : Option (String × String × String) :=
  let cs := ownerId.toList
  let rest := cs.dropWhile (· ≠ ':')
  let rest' := (rest.drop 1).dropWhile (· ≠ ':')
  if rest = [] ∨ rest' = [] then none
  else
    some (String.ofList (cs.takeWhile (· ≠ ':')),
      String.ofList ((rest.drop 1).takeWhile (· ≠ ':')), String.ofList (rest'.drop 1))

/-- `_tenant`. -/
def tenantOf (R : Type) [Python R] (ownerId : String) : Except CloudError UUID :=
  match splitOwner ownerId with
  | none => .error (.permissionError "Cloud owner binding is invalid")
  | some (pre, tenant, subject) =>
    if pre ≠ "cloud" ∨ subject = "" ∨ Python.parseUuid R subject = none then
      .error (.permissionError "Cloud owner binding is invalid")
    else
      match Python.parseUuid R tenant with
      | none => .error (.permissionError "Cloud owner binding is invalid")
      | some id => .ok id

/-- `uuid.hex`. -/
def hexOf (u : UUID) : String := String.ofList (u.str.toList.filter (· ≠ '-'))

/-- `UUID(memory_id[4:])`. -/
def recordIdOf (R : Type) [Python R] (memoryId : String) : Except CloudError UUID :=
  match Python.parseUuid R (String.ofList (memoryId.toList.drop 4)) with
  | none => .error (.valueError "badly formed hexadecimal UUID string")
  | some id => .ok id

/-- `_now`. -/
def clock (env : Environment) : Observing String := fun t => .ok ((env.now t).zulu, t + 1)

/-! ## Reading -/

/-- What `_read` returns: the other fields, and the two that were encrypted. -/
structure CloudMemory (R : Type) where
  id : String
  ownerId : String
  fields : PyDict R
  content : String
  provenance : JsonValue

section Operations

variable (encryptor : TenantEnvelopeEncryptor) (env : Environment)

/-- `decrypt(…, value=_uncipher(…))`; a field of another type fails a check or the KMS. -/
def decryptField (tenantId recordId : UUID) (field : String) (value : LooseEnvelope R) :
    Observing String :=
  match value.typed with
  | none => throw .typeError
  | some value => encryptor.decrypt env tenantId recordId field value

/-- `json.loads` of the decrypted provenance. -/
def loadsProvenance (text : String) : Except CloudError JsonValue :=
  match JsonValue.loads text with
  | none => .error (.valueError "Expecting value")
  | some value => .ok value

/-- `_read`. -/
def read (stored : StoredRecord R) : Observing (CloudMemory R) := do
  let tenant ← ofExcept (tenantOf R stored.ownerId)
  let recordId ← ofExcept (recordIdOf R stored.id)
  let content ← decryptField encryptor env tenant recordId "content" stored.contentCiphertext
  let text ← decryptField encryptor env tenant recordId "provenance" stored.provenanceCiphertext
  let provenance ← ofExcept (loadsProvenance text)
  pure
    { id := stored.id, ownerId := stored.ownerId, fields := stored.fields, content := content
      provenance := provenance }

/-- An outcome of `_read` that starts at a tick. -/
def readAt (stored : StoredRecord R) (tick : Nat) : Except CloudError (CloudMemory R) :=
  ((read encryptor env stored).run tick).map Prod.fst

/-! ## Writing -/

/-- The payload of a write. -/
structure WritePayload (R : Type) [Python R] where
  ownerId : String
  idempotencyKey : String
  type : PyObj R
  space : PyObj R := .none
  importance : PyObj R := .float (Python.decimal 5 1)
  confidence : PyObj R := .float (Python.decimal 5 1)
  content : String
  provenance : JsonValue

/-- A memory and a status. -/
structure CloudResult (R : Type) where
  memory : CloudMemory R
  status : String

/-- The new record of a write. -/
def newRecord (s : EncryptedCloudMemoryService R) (payload : WritePayload R) (tenant : UUID) :
    Observing (StoredRecord R) := do
  let memoryId := "mem_" ++ hexOf env.uuid4
  let now ← clock env
  let recordId ← ofExcept (recordIdOf R memoryId)
  let content ← encryptor.encrypt env tenant recordId "content" payload.content s.keyVersion
  let provenance ← encryptor.encrypt env tenant recordId "provenance"
    payload.provenance.dumps s.keyVersion
  pure
    { id := memoryId, ownerId := payload.ownerId
      contentCiphertext := cipher content, provenanceCiphertext := cipher provenance
      fields :=
        [(.str "type", payload.type), (.str "space", payload.space),
          (.str "importance", payload.importance), (.str "confidence", payload.confidence),
          (.str "state", .str "active"), (.str "version", .int 1), (.str "created_at", .str now),
          (.str "updated_at", .str now), (.str "occurred_at", .none)]
      others := by
        show ∀ k ∈ [PyKey.str "type", .str "space", .str "importance", .str "confidence",
          .str "state", .str "version", .str "created_at", .str "updated_at", .str "occurred_at"],
          k ∉ ownKeys
        decide }

/-- The state after a write has stored its record. -/
def stored (s : EncryptedCloudMemoryService R) (ownerId key : String) (r : StoredRecord R) :
    EncryptedCloudMemoryService R :=
  { s with records := s.records.set r.id r, writeKeys := s.writeKeys.set (ownerId, key) r.id }

/-- `write`. -/
def write (payload : WritePayload R) (s : EncryptedCloudMemoryService R) :
    Except CloudError (CloudResult R) × EncryptedCloudMemoryService R :=
  match tenantOf R payload.ownerId with
  | .error e => (.error e, s)
  | .ok tenant =>
    match (s.writeKeys.get? (payload.ownerId, payload.idempotencyKey)).filter
        (fun existing => decide (existing ≠ "")) with
    | some existing =>
      match s.records.get? existing with
      | none => (.error (.keyError existing), s)
      | some r => ((readAt encryptor env r 0).map (⟨·, "already_exists"⟩), s)
    | none =>
      match (newRecord encryptor env s payload tenant).run 0 with
      | .error e => (.error e, s)
      | .ok (r, tick) =>
        ((readAt encryptor env r tick).map (⟨·, "created"⟩),
          stored s payload.ownerId payload.idempotencyKey r)

/-! ## Updating -/

/-- The patch of an update; `None` and a missing key are the same. -/
structure CloudPatch (R : Type) where
  content : Option String := none
  type : Option (PyObj R) := none
  space : Option (PyObj R) := none
  importance : Option (PyObj R) := none
  confidence : Option (PyObj R) := none
  state : Option (PyObj R) := none

structure UpdatePayload (R : Type) where
  ownerId : String
  id : String
  expectedVersion : Int
  patch : CloudPatch R

/-- The checks of an update on the record it found. -/
def checkUpdate (payload : UpdatePayload R) (r : StoredRecord R) :
    Except CloudError (UUID × UUID) :=
  if r.ownerId ≠ payload.ownerId then .error (.keyError "not found")
  else
    match r.fields.get "version" with
    | none => .error (.keyError "version")
    | some version =>
      if version.eqInt payload.expectedVersion then do
        let recordId ← recordIdOf R r.id
        let tenant ← tenantOf R r.ownerId
        pure (tenant, recordId)
      else .error (.valueError "version conflict")

/-- The record with its content re-encrypted, if the patch has one. -/
def patchContent (s : EncryptedCloudMemoryService R) (payload : UpdatePayload R)
    (r : StoredRecord R) : Observing (StoredRecord R) := do
  let (tenant, recordId) ← ofExcept (checkUpdate payload r)
  match payload.patch.content with
  | none => pure r
  | some content =>
    let value ← encryptor.encrypt env tenant recordId "content" content s.keyVersion
    pure { r with contentCiphertext := cipher value }

/-- `if patch.get(key) is not None: stored[key] = patch[key]`. -/
def patchField (key : String) (h : PyKey.str key ∉ ownKeys) (value : Option (PyObj R))
    (r : StoredRecord R) : StoredRecord R :=
  match value with
  | none => r
  | some value => r.setField key value h

/-- The loop over the other fields of the patch. -/
def patchFields (patch : CloudPatch R) (r : StoredRecord R) : StoredRecord R :=
  patchField "state" (by decide) patch.state
    (patchField "confidence" (by decide) patch.confidence
      (patchField "importance" (by decide) patch.importance
        (patchField "space" (by decide) patch.space
          (patchField "type" (by decide) patch.type r))))

/-- `stored["version"] += 1`. -/
def bumpVersion (r : StoredRecord R) : Except CloudError (StoredRecord R) :=
  match r.fields.get "version" with
  | none => .error (.keyError "version")
  | some version =>
    match version.succ with
    | .error e => .error e
    | .ok version => .ok (r.setField "version" version (by decide))

/-- `stored["updated_at"] = now`. -/
def touch (now : String) (r : StoredRecord R) : StoredRecord R :=
  r.setField "updated_at" (.str now) (by decide)

/-- The state with another record under an id. -/
def putRecord (s : EncryptedCloudMemoryService R) (id : String) (r : StoredRecord R) :
    EncryptedCloudMemoryService R :=
  { s with records := s.records.set id r }

/-- The state after an update has stored its record: the vector is dropped. -/
def amended (s : EncryptedCloudMemoryService R) (id : String) (r : StoredRecord R) :
    EncryptedCloudMemoryService R :=
  { putRecord s id r with embeddings := s.embeddings.pop r.id }

/-- `update`. The record is assigned to in place, field by field. -/
def update (payload : UpdatePayload R) (s : EncryptedCloudMemoryService R) :
    Except CloudError (CloudResult R) × EncryptedCloudMemoryService R :=
  match s.records.get? payload.id with
  | none => (.error (.keyError "not found"), s)
  | some r =>
    match (patchContent encryptor env s payload r).run 0 with
    | .error e => (.error e, s)
    | .ok (r, tick) =>
      match bumpVersion (patchFields payload.patch r) with
      | .error e => (.error e, putRecord s payload.id (patchFields payload.patch r))
      | .ok r' =>
        let r' := touch (env.now tick).zulu r'
        ((readAt encryptor env r' (tick + 1)).map (⟨·, "updated"⟩), amended s payload.id r')

/-! ## Vectors -/

/-- `get`. -/
def get (ownerId memoryId : String) (s : EncryptedCloudMemoryService R) :
    Except CloudError (Option (CloudMemory R)) :=
  match tenantOf R ownerId with
  | .error e => .error e
  | .ok _ =>
    match s.records.get? memoryId with
    | none => .ok none
    | some r => if r.ownerId ≠ ownerId then .ok none else (readAt encryptor env r 0).map some

/-- Is the record one that a vector of the version may be stored for? -/
def isCurrent (ownerId : String) (sourceVersion : Int) (r : StoredRecord R) : Bool :=
  decide (r.ownerId = ownerId) && decide (r.fields.getText "state" = some "active") &&
    ((r.fields.get "version").map (·.eqInt sourceVersion)).getD false

/-- `store_embedding`. -/
def storeEmbedding (ownerId memoryId : String) (sourceVersion : Int) (values : List R)
    (s : EncryptedCloudMemoryService R) :
    Except CloudError Bool × EncryptedCloudMemoryService R :=
  match tenantOf R ownerId with
  | .error e => (.error e, s)
  | .ok _ =>
    match s.records.get? memoryId with
    | none => (.ok false, s)
    | some r =>
      if isCurrent ownerId sourceVersion r then
        (.ok true,
          { s with embeddings := s.embeddings.set memoryId ⟨ownerId, sourceVersion, values⟩ })
      else (.ok false, s)

/-! ## Forgetting -/

/-- A record is removed and leaves a tombstone. -/
def bury (s : EncryptedCloudMemoryService R) (ownerId memoryId deletedAt : String) :
    EncryptedCloudMemoryService R :=
  { s with
    forgetKeys := insert (ownerId, memoryId) s.forgetKeys
    tombstones := s.tombstones.set (ownerId, memoryId) deletedAt
    records := s.records.pop memoryId
    embeddings := s.embeddings.pop memoryId }

/-- Does the record under the id belong to the owner? -/
def holds (s : EncryptedCloudMemoryService R) (ownerId memoryId : String) : Bool :=
  match s.records.get? memoryId with
  | none => false
  | some r => decide (r.ownerId = ownerId)

/-- `forget`; the result says whether the status is `forgotten`. -/
def forget (ownerId memoryId : String) (s : EncryptedCloudMemoryService R) :
    Bool × EncryptedCloudMemoryService R :=
  if (ownerId, memoryId) ∈ s.forgetKeys then (false, s)
  else if holds s ownerId memoryId then (true, bury s ownerId memoryId (env.now 0).zulu)
  else (false, { s with forgetKeys := insert (ownerId, memoryId) s.forgetKeys })

/-- The loop of `delete_owner`. -/
def buryAll (ownerId : String) : List String → Nat → EncryptedCloudMemoryService R →
    EncryptedCloudMemoryService R
  | [], _, s => s
  | memoryId :: rest, tick, s =>
    buryAll ownerId rest (tick + 1) (bury s ownerId memoryId (env.now tick).zulu)

/-- The ids of the owner's records, in order. -/
def idsOf (s : EncryptedCloudMemoryService R) (ownerId : String) : List String :=
  (s.records.filter fun _ r => decide (r.ownerId = ownerId)).keys

/-- `delete_owner`. -/
def deleteOwner (ownerId : String) (s : EncryptedCloudMemoryService R) :
    Except CloudError Nat × EncryptedCloudMemoryService R :=
  match tenantOf R ownerId with
  | .error e => (.error e, s)
  | .ok _ =>
    let s' := buryAll env ownerId (idsOf s ownerId) 0 s
    (.ok (idsOf s ownerId).length,
      { s' with writeKeys := s'.writeKeys.filter fun key _ => decide (key.1 ≠ ownerId) })

end Operations

/-! ## Backups -/

/-- The order of `sorted(self._tombstones.items())`; no two entries have one key. -/
def ledgerLe (a b : (String × String) × String) : Bool :=
  decide (a.1.1 < b.1.1) || (decide (a.1.1 = b.1.1) && decide (a.1.2 ≤ b.1.2))

/-- A tombstone as a dict. -/
def entryDict (e : (String × String) × String) : PyObj R :=
  .dict [(.str "owner_id", .str e.1.1), (.str "memory_id", .str e.1.2),
    (.str "deleted_at", .str e.2)]

/-- `tombstones`. -/
def tombstoneEntries (s : EncryptedCloudMemoryService R) : List (PyObj R) :=
  (s.tombstones.items.insertionSort fun a b => ledgerLe a b = true).map entryDict

/-- `backup`. -/
def backup (s : EncryptedCloudMemoryService R) : PyDict R :=
  [(.str "format", .str "omp.cloud.backup.v1"),
    (.str "records", .dict (s.records.items.map fun e => (.str e.1, .dict e.2.toDict))),
    (.str "tombstones", .list (tombstoneEntries s))]

/-! ## Restoring -/

/-- The checks on one entry of a tombstone ledger. -/
def checkEntry (entry : PyObj R) : Except CloudError ((String × String) × String) :=
  match entry with
  | .dict fields =>
    match PyDict.getText fields "owner_id", PyDict.getText fields "memory_id",
        PyDict.getText fields "deleted_at" with
    | some ownerId, some memoryId, some deletedAt =>
      match tenantOf R ownerId with
      | .error e => .error e
      | .ok _ =>
        match Python.fromisoformat R (fromZ deletedAt) with
        | none => .error (.valueError "invalid deletion tombstone timestamp")
        | some _ => .ok ((ownerId, memoryId), deletedAt)
    | _, _, _ => .error (.valueError "invalid deletion tombstone")
  | _ => .error .attributeError

/-- The ledger loop: each entry is checked and then assigned. -/
def applyLedger : List (PyObj R) → Dict (String × String) String →
    Except CloudError Unit × Dict (String × String) String
  | [], tombstones => (.ok (), tombstones)
  | entry :: rest, tombstones =>
    match checkEntry entry with
    | .error e => (.error e, tombstones)
    | .ok (key, deletedAt) => applyLedger rest (tombstones.set key deletedAt)

/-- One envelope of a snapshot's record. -/
def checkEnvelope (fields : PyDict R) (key : String) : Except CloudError (LooseEnvelope R) :=
  match fields.get key with
  | some (.dict value) => uncipher value
  | _ => .error (.valueError "encrypted backup record is missing ciphertext")

/-- The fields that are not the record's own. -/
def otherFields (fields : PyDict R) : PyDict R := fields.filter fun e => decide (e.1 ∉ ownKeys)

/-- The checks on one record of a snapshot. -/
def checkRecord (key : PyKey) (record : PyObj R) : Except CloudError (StoredRecord R) :=
  match key, record with
  | .str memoryId, .dict fields =>
    match PyDict.getText fields "owner_id" with
    | none => .error (.valueError "encrypted backup record has no owner")
    | some ownerId =>
      match tenantOf R ownerId with
      | .error e => .error e
      | .ok _ =>
        if PyDict.getText fields "id" ≠ some memoryId then
          .error (.valueError "encrypted backup record id mismatch")
        else do
          let content ← checkEnvelope fields "content_ciphertext"
          let provenance ← checkEnvelope fields "provenance_ciphertext"
          pure
            { id := memoryId, ownerId := ownerId, contentCiphertext := content
              provenanceCiphertext := provenance, fields := otherFields fields
              others := by
                intro k hk
                obtain ⟨e, he, rfl⟩ := List.mem_map.mp hk
                exact of_decide_eq_true (List.mem_filter.mp he).2 }
  | _, _ => .error (.valueError "invalid encrypted backup record")

/-- The record loop. -/
def checkRecords : PyDict R → Except CloudError (List (StoredRecord R))
  | [] => .ok []
  | (key, record) :: rest => do
    let r ← checkRecord key record
    let more ← checkRecords rest
    pure (r :: more)

/-- The records under their ids. -/
def byId (records : List (StoredRecord R)) : Dict String (StoredRecord R) :=
  records.foldl (fun d r => d.set r.id r) ∅

/-- The state after a restore has passed its checks. -/
def install (s : EncryptedCloudMemoryService R) (tombstones : Dict (String × String) String)
    (restored : Dict String (StoredRecord R)) : EncryptedCloudMemoryService R :=
  let records := restored.filter fun id r => !tombstones.contains (r.ownerId, id)
  { s with
    tombstones := tombstones
    records := records
    embeddings := s.embeddings.filter fun id embedding =>
      match records.get? id with
      | none => false
      | some r => decide (embedding.ownerId = r.ownerId) &&
          ((r.fields.get "version").map (·.eqInt embedding.sourceVersion)).getD false
    writeKeys := s.writeKeys.filter fun key id =>
      match records.get? id with
      | none => false
      | some r => decide (r.ownerId = key.1) }

/-- The records of a snapshot, if its format is known and they are a dict. -/
def snapshotRecords (snapshot : PyDict R) : Except CloudError (PyDict R) :=
  if (snapshot.get "format").isSome ∧ snapshot.getText "format" ≠ some "omp.cloud.backup.v1" then
    .error (.valueError "unsupported backup snapshot")
  else
    match snapshot.get "records" with
    | some (.dict records) => .ok records
    | _ => .error (.valueError "invalid backup snapshot")

/-- `restore`. The ledger is assigned before the records are checked. -/
def restore (snapshot : PyDict R) (tombstones : List (PyObj R))
    (s : EncryptedCloudMemoryService R) : Except CloudError Nat × EncryptedCloudMemoryService R :=
  match snapshotRecords snapshot with
  | .error e => (.error e, s)
  | .ok records =>
    match applyLedger (tombstoneEntries s ++ tombstones) s.tombstones with
    | (.error e, ledger) => (.error e, { s with tombstones := ledger })
    | (.ok (), ledger) =>
      match checkRecords records with
      | .error e => (.error e, { s with tombstones := ledger })
      | .ok restored =>
        let s' := install s ledger (byId restored)
        (.ok s'.records.items.length, s')

/-! ## Rotation -/

/-- `rotate`. -/
def rotate (version : Int) (s : EncryptedCloudMemoryService R) :
    Except CloudError Unit × EncryptedCloudMemoryService R :=
  if version < 1 ∨ version < s.keyVersion then
    (.error (.valueError "key version must be positive"), s)
  else (.ok (), { s with keyVersion := version })

section Rewrap

variable (encryptor : TenantEnvelopeEncryptor) (env : Environment)

/-- One envelope under the new version, and whether it had to be rotated. -/
def rewrapField (version : Int) (tenantId recordId : UUID) (field : String)
    (current : LooseEnvelope R) : Observing (LooseEnvelope R × Nat) :=
  if current.keyVersion.eqInt version then pure (current, 0)
  else
    match current.typed with
    | none => throw .typeError
    | some value => do
      let rotated ← encryptor.rewrap env tenantId recordId field value version
      pure (cipher rotated, 1)

/-- Both envelopes of a record. -/
def rewrapRecord (version : Int) (r : StoredRecord R) : Observing (StoredRecord R × Nat) := do
  let tenant ← ofExcept (tenantOf R r.ownerId)
  let recordId ← ofExcept (recordIdOf R r.id)
  let (content, n) ← rewrapField encryptor env version tenant recordId "content" r.contentCiphertext
  let (provenance, m) ← rewrapField encryptor env version tenant recordId "provenance"
    r.provenanceCiphertext
  pure ({ r with contentCiphertext := content, provenanceCiphertext := provenance }, n + m)

/-- The pending writes of all records, and how many envelopes they rotate. -/
def rewrapRecords (version : Int) :
    List (String × StoredRecord R) → Observing (List (String × StoredRecord R) × Nat)
  | [] => pure ([], 0)
  | (id, r) :: rest => do
    let (r', n) ← rewrapRecord encryptor env version r
    let (more, m) ← rewrapRecords version rest
    pure ((id, r') :: more, n + m)

/-- The records with the pending writes applied. -/
def applyPending (records : Dict String (StoredRecord R))
    (pending : List (String × StoredRecord R)) : Dict String (StoredRecord R) :=
  records.mapValues fun id r => (pending.lookup id).getD r

/-- `rewrap`. -/
def rewrap (version : Int) (s : EncryptedCloudMemoryService R) :
    Except CloudError Nat × EncryptedCloudMemoryService R :=
  if version < 1 ∨ version < s.keyVersion then
    (.error (.valueError "key version must be positive"), s)
  else
    match (rewrapRecords encryptor env version s.records.items).run 0 with
    | .error e => (.error e, s)
    | .ok ((pending, n), _) =>
      (.ok n, { s with records := applyPending s.records pending, keyVersion := version })

end Rewrap

end OpenMemory.Cloud
