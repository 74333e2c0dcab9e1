import OpenMemory.Cloud.Recovery
import OpenMemory.Cloud.Search
import OpenMemory.Cloud.WriteKeys
import OpenMemory.Lib.Purge
import OpenMemory.Mcp.Backends

/-!
# One store for all owners (`EncryptedCloudMemoryService`)

All owners of the Cloud share one service, and each call names the owner it is made for. `restrict`
is the part of the service that belongs to some of the owners, with everything in its order. It is a
service of its own:

- a call for one of these owners does to the part what it does to the whole, and is answered alike
  (`OwnerCall.run_restrict`);
- a call for any other owner leaves the part alone (`OwnerCall.restrict_run`).

So whatever the others do, these owners are served as if the service was theirs
(`owners_isolated`). Operators' calls (`backup`, `restore`, `rewrap`) read all records and are
not among the calls of an owner; a rotation is one that everybody notices.
-/

namespace OpenMemory.Cloud

open Lib
open Mcp (SearchRequest)

variable {R : Type} [Python R]

/-! ## The calls of owners -/

/-- `embedding`. -/
def embedding (ownerId memoryId : String) (s : EncryptedCloudMemoryService R) :
    Except CloudError (Option (CloudEmbedding R)) :=
  match tenantOf R ownerId with
  | .error e => .error e
  | .ok _ =>
    match s.embeddings.get? memoryId with
    | none => .ok none
    | some entry => if entry.ownerId ≠ ownerId then .ok none else .ok (some entry)

/-- A call that is made for an owner, or a rotation. -/
inductive OwnerCall (R : Type) [Python R]
  | write (env : Environment) (payload : WritePayload R)
  | update (env : Environment) (payload : UpdatePayload R)
  | get (env : Environment) (ownerId memoryId : String)
  | search (env : Environment) (request : SearchRequest R)
  | listRecords (env : Environment) (ownerId : String)
  | storeEmbedding (ownerId memoryId : String) (sourceVersion : Int) (values : List R)
  | embedding (ownerId memoryId : String)
  | forget (env : Environment) (ownerId memoryId : String)
  | deleteOwner (env : Environment) (ownerId : String)
  | rotate (version : Int)

/-- What a call returns. -/
inductive CloudAnswer (R : Type) [Python R]
  | result (outcome : Except CloudError (CloudResult R))
  | found (outcome : Except CloudError (Option (CloudMemory R)))
  | hits (outcome : Except CloudError (List (CloudHit R)))
  | memories (outcome : Except CloudError (List (CloudMemory R)))
  | stored (outcome : Except CloudError Bool)
  | vector (outcome : Except CloudError (Option (CloudEmbedding R)))
  | forgotten (outcome : Bool)
  | deleted (outcome : Except CloudError Nat)
  | rotated (outcome : Except CloudError Unit)

namespace OwnerCall

variable (encryptor : TenantEnvelopeEncryptor) (unicode : UnicodeDatabase)

/-- The answer to a call, and the state after it. -/
def run (s : EncryptedCloudMemoryService R) :
    OwnerCall R → CloudAnswer R × EncryptedCloudMemoryService R
  | write env payload => (Cloud.write encryptor env payload s).map .result id
  | update env payload => (Cloud.update encryptor env payload s).map .result id
  | get env ownerId memoryId => (.found (Cloud.get encryptor env ownerId memoryId s), s)
  | search env request => (.hits (Cloud.search encryptor env unicode request s), s)
  | listRecords env ownerId => (.memories (Cloud.listRecords encryptor env ownerId s), s)
  | storeEmbedding ownerId memoryId sourceVersion values =>
    (Cloud.storeEmbedding ownerId memoryId sourceVersion values s).map .stored id
  | embedding ownerId memoryId => (.vector (Cloud.embedding ownerId memoryId s), s)
  | forget env ownerId memoryId => (Cloud.forget env ownerId memoryId s).map .forgotten id
  | deleteOwner env ownerId => (Cloud.deleteOwner env ownerId s).map .deleted id
  | rotate version => (Cloud.rotate version s).map .rotated id

def answer (s : EncryptedCloudMemoryService R) (call : OwnerCall R) : CloudAnswer R :=
  (call.run encryptor unicode s).1

def next (s : EncryptedCloudMemoryService R) (call : OwnerCall R) :
    EncryptedCloudMemoryService R :=
  (call.run encryptor unicode s).2

/-- Is the call made for one of these owners? A rotation is for everybody. -/
def isFor (mine : String → Bool) : OwnerCall R → Bool
  | write _ payload => mine payload.ownerId
  | update _ payload => mine payload.ownerId
  | get _ ownerId _ => mine ownerId
  | search _ request => mine request.ownerId.val
  | listRecords _ ownerId => mine ownerId
  | storeEmbedding ownerId _ _ _ => mine ownerId
  | embedding ownerId _ => mine ownerId
  | forget _ ownerId _ => mine ownerId
  | deleteOwner _ ownerId => mine ownerId
  | rotate _ => true

/-- The id that the call draws. -/
def drawn : OwnerCall R → Option String
  | write env _ => some (drawnId env)
  | _ => none

end OwnerCall

/-! ## The part of some owners -/

/-- What belongs to these owners. -/
def restrict (mine : String → Bool) (s : EncryptedCloudMemoryService R) :
    EncryptedCloudMemoryService R where
  keyVersion := s.keyVersion
  records := s.records.filter fun _ r => mine r.ownerId
  writeKeys := s.writeKeys.filter fun k _ => mine k.1
  forgetKeys := s.forgetKeys.filter fun k => mine k.1 = true
  tombstones := s.tombstones.filter fun k _ => mine k.1
  embeddings := s.embeddings.filter fun _ e => mine e.ownerId

/-- What keeps the maps of the service together: a record is under its id, and neither a write key
nor a vector is of another owner than the record it points to. -/
structure Kept (s : EncryptedCloudMemoryService R) : Prop where
  keyed : Keyed s
  writeKeys : ∀ k i r, s.writeKeys.get? k = some i → s.records.get? i = some r → r.ownerId = k.1
  embeddings : ∀ i e, s.embeddings.get? i = some e → ownerAt s i = some e.ownerId

/-- An id that no record has and no write key points to. -/
structure Unused (s : EncryptedCloudMemoryService R) (i : String) : Prop where
  record : s.records.get? i = none
  writeKeys : ∀ k, s.writeKeys.get? k ≠ some i

variable {mine : String → Bool} {encryptor : TenantEnvelopeEncryptor} {unicode : UnicodeDatabase}
  {env : Environment} {s s' : EncryptedCloudMemoryService R}

section Restrict

omit [Python R]

/-- A record is in the part of its owner. -/
theorem get?_restrict_records {i : String} {r : StoredRecord R} :
    (restrict mine s).records.get? i = some r ↔
      s.records.get? i = some r ∧ mine r.ownerId = true :=
  Dict.get?_filter_eq_some

theorem get?_restrict_of_owner {i : String} {r : StoredRecord R} (hr : s.records.get? i = some r)
    (hmine : mine r.ownerId = true) : (restrict mine s).records.get? i = some r :=
  get?_restrict_records.mpr ⟨hr, hmine⟩

/-- The part has no record that the whole does not have. -/
theorem get?_restrict_eq_none {i : String} (h : s.records.get? i = none) :
    (restrict mine s).records.get? i = none := by
  cases hr : (restrict mine s).records.get? i with
  | none => rfl
  | some r =>
    rw [(get?_restrict_records.mp hr).1] at h
    cases h

/-- The write keys of an owner are in their part. -/
theorem get?_restrict_writeKeys {o key : String} (hmine : mine o = true) :
    (restrict mine s).writeKeys.get? (o, key) = s.writeKeys.get? (o, key) := by
  show (s.writeKeys.filter _).get? _ = _
  rw [Dict.get?_filter]
  cases s.writeKeys.get? (o, key) with
  | none => rfl
  | some i => exact Option.filter_some_pos hmine

/-- What a write key of these owners points to is in their part. -/
theorem Kept.get?_restrict_existing (h : Kept s) {o key i : String} (hmine : mine o = true)
    (hkey : s.writeKeys.get? (o, key) = some i) :
    (restrict mine s).records.get? i = s.records.get? i := by
  cases hr : s.records.get? i with
  | none => exact get?_restrict_eq_none hr
  | some r =>
    refine get?_restrict_of_owner hr ?_
    rw [h.writeKeys _ i r hkey hr]
    exact hmine

/-- Who owns an id shows in the part of that owner. -/
theorem ownerAt_restrict {o i : String} :
    ownerAt (restrict mine s) i = some o ↔ ownerAt s i = some o ∧ mine o = true := by
  rw [ownerAt_eq_some, ownerAt_eq_some]
  constructor
  · rintro ⟨r, hr, rfl⟩
    obtain ⟨hget, hmine⟩ := get?_restrict_records.mp hr
    exact ⟨⟨r, hget, rfl⟩, hmine⟩
  · rintro ⟨⟨r, hr, rfl⟩, hmine⟩
    exact ⟨r, get?_restrict_of_owner hr hmine, rfl⟩

/-- So does whether one of them has a record or a vector under an id. -/
theorem holds_restrict {o i : String} (hmine : mine o = true) :
    holds (restrict mine s) o i = holds s o i := by
  rw [Bool.eq_iff_iff, holds_iff, holds_iff, ownerAt_restrict]
  exact and_iff_left hmine

/-- And which ids they have. -/
theorem idsOf_restrict {o : String} (hmine : mine o = true) :
    idsOf (restrict mine s) o = idsOf s o := by
  unfold idsOf restrict
  rw [Dict.filter_filter]
  congr 1
  refine Dict.filter_congr fun i r _ => ?_
  by_cases ho : r.ownerId = o
  · rw [ho, hmine, Bool.true_and]
  · rw [decide_eq_false ho, Bool.and_false]

/-- An entry under a key of these owners is set in the part. -/
theorem filter_set_of_mine {d : Dict (String × String) String} {o key value : String}
    (hmine : mine o = true) :
    (d.set (o, key) value).filter (fun k _ => mine k.1)
      = (d.filter fun k _ => mine k.1).set (o, key) value :=
  Dict.filter_set_of_pos hmine fun _ _ => hmine

/-- A write key of somebody else is not seen. -/
theorem filter_set_of_foreign {d : Dict (String × String) String} {o key value : String}
    (hforeign : mine o = false) :
    (d.set (o, key) value).filter (fun k _ => mine k.1) = d.filter fun k _ => mine k.1 :=
  Dict.filter_set_of_neg hforeign fun _ _ => hforeign

/-- A burial in the part is a burial in the whole. -/
theorem restrict_bury {o i deletedAt : String} (hmine : mine o = true) :
    restrict mine (bury s o i deletedAt) = bury (restrict mine s) o i deletedAt := by
  unfold restrict bury
  dsimp only
  rw [Finset.filter_insert, if_pos hmine, Dict.filter_pop, Dict.filter_pop,
    filter_set_of_mine hmine]

/-- Burying records of an owner buries them in their part. -/
theorem restrict_buryAll {o : String} (hmine : mine o = true) (ids : List String) (t : Nat) :
    restrict mine (buryAll env o ids t s) = buryAll env o ids t (restrict mine s) := by
  induction ids generalizing t s with
  | nil => rfl
  | cons i rest ih =>
    unfold buryAll
    rw [ih, restrict_bury hmine]

/-- Nothing of these owners is stored under the id. -/
structure Foreign (mine : String → Bool) (s : EncryptedCloudMemoryService R) (i : String) :
    Prop where
  record : ∀ r, s.records.get? i = some r → mine r.ownerId = false
  embedding : ∀ e, s.embeddings.get? i = some e → mine e.ownerId = false

/-- Under the id of somebody else's record there is nothing of the owner's. -/
theorem Kept.foreign (h : Kept s) {o i : String} (howner : ownerAt s i = some o)
    (hforeign : mine o = false) : Foreign mine s i := by
  constructor
  · intro r hr
    obtain ⟨r', hr', rfl⟩ := ownerAt_eq_some.mp howner
    rw [hr] at hr'
    cases hr'
    exact hforeign
  · intro e he
    rw [h.embeddings i e he] at howner
    cases howner
    exact hforeign

/-- Dropping the vector there is not seen. -/
theorem Foreign.pop_embeddings {i : String} (h : Foreign mine s i) :
    (s.embeddings.pop i).filter (fun _ e => mine e.ownerId)
      = s.embeddings.filter fun _ e => mine e.ownerId := by
  rw [Dict.filter_pop]
  refine Dict.pop_of_get?_eq_none ?_
  cases he : (s.embeddings.filter fun _ e => mine e.ownerId).get? i with
  | none => rfl
  | some e =>
    obtain ⟨hget, hmine⟩ := Dict.get?_filter_eq_some.mp he
    rw [h.embedding e hget] at hmine
    cases hmine

/-- Nor is dropping the record. -/
theorem Foreign.pop_records {i : String} (h : Foreign mine s i) :
    (s.records.pop i).filter (fun _ r => mine r.ownerId)
      = s.records.filter fun _ r => mine r.ownerId := by
  rw [Dict.filter_pop]
  refine Dict.pop_of_get?_eq_none ?_
  cases hr : (s.records.filter fun _ r => mine r.ownerId).get? i with
  | none => rfl
  | some r =>
    obtain ⟨hget, hmine⟩ := Dict.get?_filter_eq_some.mp hr
    rw [h.record r hget] at hmine
    cases hmine

/-- Nor is replacing it by another one of a stranger. -/
theorem Foreign.set_records {i : String} {r : StoredRecord R} (h : Foreign mine s i)
    (hforeign : mine r.ownerId = false) :
    (s.records.set i r).filter (fun _ r => mine r.ownerId)
      = s.records.filter fun _ r => mine r.ownerId :=
  Dict.filter_set_of_neg hforeign h.record

/-- What others bury is none of the part. -/
theorem Foreign.restrict_bury {o i deletedAt : String} (h : Foreign mine s i)
    (hforeign : mine o = false) : restrict mine (bury s o i deletedAt) = restrict mine s := by
  unfold restrict bury
  dsimp only
  rw [Finset.filter_insert, if_neg (by simp [hforeign]), h.pop_records, h.pop_embeddings,
    filter_set_of_foreign hforeign]

/-- Burying one record leaves another stranger's id a stranger's. -/
theorem Foreign.bury {i j o deletedAt : String} (h : Foreign mine s i) :
    Foreign mine (bury s o j deletedAt) i := by
  constructor
  · intro r hr
    rw [get?_bury] at hr
    split at hr
    · cases hr
    · exact h.record r hr
  · intro e he
    have he' : (s.embeddings.pop j).get? i = some e := he
    rw [Dict.get?_pop] at he'
    split at he'
    · cases he'
    · exact h.embedding e he'

/-- Burying all records of a stranger is not seen. -/
theorem restrict_buryAll_of_foreign {o : String} (hforeign : mine o = false) {ids : List String}
    (h : ∀ i ∈ ids, Foreign mine s i) (t : Nat) :
    restrict mine (buryAll env o ids t s) = restrict mine s := by
  induction ids generalizing t s with
  | nil => rfl
  | cons i rest ih =>
    obtain ⟨hi, hrest⟩ := List.forall_mem_cons.mp h
    unfold buryAll
    rw [ih fun j hj => (hrest j hj).bury, hi.restrict_bury hforeign]

end Restrict

/-! ## Calls for these owners -/

/-- `write` of an owner acts on their part, and answers from it. -/
theorem write_restrict (h : Kept s) {payload : WritePayload R}
    (hfresh : Unused s (drawnId env)) (hmine : mine payload.ownerId = true) :
    write encryptor env payload (restrict mine s) =
      ((write encryptor env payload s).1, restrict mine (write encryptor env payload s).2) := by
  unfold write
  cases tenantOf R payload.ownerId with
  | error e => rfl
  | ok tenant =>
    dsimp only
    rw [get?_restrict_writeKeys hmine]
    cases hkey : (s.writeKeys.get? (payload.ownerId, payload.idempotencyKey)).filter
        (fun existing => decide (existing ≠ "")) with
    -- a used key points to a record of the owner
    | some existing =>
      dsimp only
      rw [h.get?_restrict_existing hmine (Option.filter_eq_some_iff.mp hkey).1]
      cases s.records.get? existing with
      | none => rfl
      | some r => rfl
    -- the new record does not depend on what is left out
    | none =>
      dsimp only
      have hnew : newRecord encryptor env (restrict mine s) payload tenant
          = newRecord encryptor env s payload tenant := rfl
      rw [hnew]
      cases hr : (newRecord encryptor env s payload tenant).run 0 with
      | error e => rfl
      | ok p =>
        obtain ⟨r, tick⟩ := p
        obtain ⟨hid, howner, -⟩ := newRecord_ok hr
        refine Prod.ext rfl ?_
        -- and it is the owner's, under an id that nobody uses
        have hrecords : (s.records.set r.id r).filter (fun _ r => mine r.ownerId)
            = (s.records.filter fun _ r => mine r.ownerId).set r.id r := by
          refine Dict.filter_set_of_pos (by rw [howner]; exact hmine) fun w hw => ?_
          rw [hid, hfresh.record] at hw
          cases hw
        show stored (restrict mine s) _ _ r = restrict mine (stored s _ _ r)
        unfold restrict stored
        dsimp only
        rw [hrecords, filter_set_of_mine hmine]

/-- `write` of a stranger is not seen. -/
theorem restrict_write {payload : WritePayload R} (hfresh : Unused s (drawnId env))
    (hforeign : mine payload.ownerId = false) :
    restrict mine (write encryptor env payload s).2 = restrict mine s := by
  rcases write_cases encryptor env payload s with hsame | ⟨tenant, r, t, -, hnew, hstored⟩
  · rw [hsame]
  · obtain ⟨hid, howner, -⟩ := newRecord_ok hnew
    have hrecords : (s.records.set r.id r).filter (fun _ r => mine r.ownerId)
        = s.records.filter fun _ r => mine r.ownerId := by
      refine Dict.filter_set_of_neg (by rw [howner]; exact hforeign) fun w hw => ?_
      rw [hid, hfresh.record] at hw
      cases hw
    rw [hstored]
    unfold restrict stored
    dsimp only
    rw [hrecords, filter_set_of_foreign hforeign]

/-- An update looks no further at a record of another owner. -/
theorem update_of_other {payload : UpdatePayload R} {r : StoredRecord R}
    (hr : s.records.get? payload.id = some r) (howner : r.ownerId ≠ payload.ownerId) :
    update encryptor env payload s = (.error (.keyError "not found"), s) := by
  have hcheck : checkUpdate payload r = .error (.keyError "not found") := by
    unfold checkUpdate
    rw [if_pos howner]
  unfold update
  rw [hr]
  dsimp only
  unfold patchContent
  rw [hcheck]
  rfl

omit [Python R] in
/-- Replacing a record of the owner replaces it in their part. -/
theorem restrict_putRecord {i : String} {r r' : StoredRecord R} (hr : s.records.get? i = some r)
    (hmine : mine r.ownerId = true) (howner : r'.ownerId = r.ownerId) :
    restrict mine (putRecord s i r') = putRecord (restrict mine s) i r' := by
  have hrecords : (s.records.set i r').filter (fun _ r => mine r.ownerId)
      = (s.records.filter fun _ r => mine r.ownerId).set i r' := by
    refine Dict.filter_set_of_pos (by rw [howner]; exact hmine) fun w hw => ?_
    rw [hr] at hw
    cases hw
    exact hmine
  unfold restrict putRecord
  dsimp only
  rw [hrecords]

omit [Python R] in
/-- So does amending it, its vector included. -/
theorem restrict_amended {i : String} {r r' : StoredRecord R} (hr : s.records.get? i = some r)
    (hmine : mine r.ownerId = true) (howner : r'.ownerId = r.ownerId) :
    restrict mine (amended s i r') = amended (restrict mine s) i r' := by
  unfold amended
  rw [← restrict_putRecord hr hmine howner]
  unfold restrict
  dsimp only
  rw [Dict.filter_pop]

/-- `update` of an owner acts on their part, and answers from it. -/
theorem update_restrict {payload : UpdatePayload R} (hmine : mine payload.ownerId = true) :
    update encryptor env payload (restrict mine s) =
      ((update encryptor env payload s).1, restrict mine (update encryptor env payload s).2) := by
  cases hr : s.records.get? payload.id with
  | none =>
    unfold update
    rw [hr, get?_restrict_eq_none hr]
  | some r =>
    -- the owner's record is updated in both
    by_cases howner : r.ownerId = payload.ownerId
    · have hmine' : mine r.ownerId = true := by rw [howner]; exact hmine
      unfold update
      rw [hr, get?_restrict_of_owner hr hmine']
      dsimp only
      have hpatch : patchContent encryptor env (restrict mine s) payload r
          = patchContent encryptor env s payload r := rfl
      rw [hpatch]
      cases hrun : (patchContent encryptor env s payload r).run 0 with
      | error e => rfl
      | ok p =>
        obtain ⟨r₁, t⟩ := p
        have hsame := (sameOwner_patchContent hrun).trans (sameOwner_patchFields payload.patch r₁)
        dsimp only
        -- an error after the content was set leaves the content, in both
        cases hbump : bumpVersion (patchFields payload.patch r₁) with
        | error e => exact Prod.ext rfl (restrict_putRecord hr hmine' hsame.2).symm
        | ok r₂ =>
          obtain ⟨version, next, -, -, rfl⟩ := bumpVersion_ok hbump
          dsimp only
          refine Prod.ext rfl (restrict_amended hr hmine' ?_).symm
          exact hsame.2
    -- another owner's record is refused, or not there
    · rw [update_of_other hr howner]
      cases hr' : (restrict mine s).records.get? payload.id with
      | none =>
        unfold update
        rw [hr']
      | some r' =>
        obtain ⟨hget, -⟩ := get?_restrict_records.mp hr'
        rw [hr] at hget
        cases hget
        exact update_of_other hr' howner

/-- `update` of a stranger is not seen. -/
theorem restrict_update (h : Kept s) {payload : UpdatePayload R}
    (hforeign : mine payload.ownerId = false) :
    restrict mine (update encryptor env payload s).2 = restrict mine s := by
  rcases update_cases encryptor env payload s with hsame | ⟨r, r', hr, hid, hput⟩
  · rw [hsame]
  by_cases howner : r.ownerId = payload.ownerId
  · rw [← howner] at hforeign
    have hnone := h.foreign (ownerAt_eq_some.mpr ⟨r, hr, rfl⟩) hforeign
    have hid' : r'.id = payload.id := hid.1.trans (h.keyed _ r hr)
    rw [← hid.2] at hforeign
    rcases hput with hput | hput
    · rw [hput]
      unfold restrict putRecord
      dsimp only
      rw [hnone.set_records hforeign]
    · rw [hput]
      unfold restrict amended putRecord
      dsimp only
      rw [hnone.set_records hforeign, hid', hnone.pop_embeddings]
  · rw [update_of_other hr howner]

/-- A vector that the owner stores is stored in their part. -/
theorem storeEmbedding_restrict (h : Kept s) {o i : String} {version : Int} {values : List R}
    (hmine : mine o = true) :
    storeEmbedding o i version values (restrict mine s) =
      ((storeEmbedding o i version values s).1,
        restrict mine (storeEmbedding o i version values s).2) := by
  unfold storeEmbedding
  cases tenantOf R o with
  | error e => rfl
  | ok tenant =>
    dsimp only
    cases hr : s.records.get? i with
    | none =>
      rw [get?_restrict_eq_none hr]
    | some r =>
      dsimp only
      -- the vector of a current record is the owner's
      by_cases hcurrent : isCurrent o version r = true
      · obtain ⟨rfl, -⟩ := of_isCurrent hcurrent
        have hembeddings : (s.embeddings.set i ⟨r.ownerId, version, values⟩).filter
            (fun _ e => mine e.ownerId) =
              (s.embeddings.filter fun _ e => mine e.ownerId).set i
                ⟨r.ownerId, version, values⟩ := by
          refine Dict.filter_set_of_pos hmine fun e he => ?_
          obtain ⟨r', hr', howner⟩ := ownerAt_eq_some.mp (h.embeddings i e he)
          rw [hr] at hr'
          cases hr'
          rw [← howner]
          exact hmine
        rw [get?_restrict_of_owner hr hmine]
        dsimp only
        rw [if_pos hcurrent, if_pos hcurrent]
        refine Prod.ext rfl ?_
        unfold restrict
        dsimp only
        rw [hembeddings]
      -- otherwise nothing is stored
      · rw [if_neg hcurrent]
        cases hr' : (restrict mine s).records.get? i with
        | none => rfl
        | some r' =>
          obtain ⟨hget, -⟩ := get?_restrict_records.mp hr'
          rw [hr] at hget
          cases hget
          exact if_neg hcurrent

/-- A vector that a stranger stores is not seen. -/
theorem restrict_storeEmbedding (h : Kept s) {o i : String} {version : Int} {values : List R}
    (hforeign : mine o = false) :
    restrict mine (storeEmbedding o i version values s).2 = restrict mine s := by
  rcases storeEmbedding_cases o i version values s with hsame | ⟨r, hr, hcurrent, hset⟩
  · rw [hsame]
  · obtain ⟨rfl, -⟩ := of_isCurrent hcurrent
    have hnone := h.foreign (ownerAt_eq_some.mpr ⟨r, hr, rfl⟩) hforeign
    have hembeddings : (s.embeddings.set i ⟨r.ownerId, version, values⟩).filter
        (fun _ e => mine e.ownerId) = s.embeddings.filter fun _ e => mine e.ownerId :=
      Dict.filter_set_of_neg hforeign hnone.embedding
    rw [hset]
    unfold restrict
    dsimp only
    rw [hembeddings]

omit [Python R] in
/-- `forget` of an owner acts on their part, and answers from it. -/
theorem forget_restrict {o i : String} (hmine : mine o = true) :
    forget env o i (restrict mine s) =
      ((forget env o i s).1, restrict mine (forget env o i s).2) := by
  have hkeys : (o, i) ∈ (restrict mine s).forgetKeys ↔ (o, i) ∈ s.forgetKeys := by
    show (o, i) ∈ s.forgetKeys.filter _ ↔ _
    rw [Finset.mem_filter]
    exact and_iff_left hmine
  rcases forget_cases env o i s with ⟨hin, hsame⟩ | ⟨hin, hholds, hadd⟩ | ⟨hin, hholds, hbury⟩
  · rw [hsame]
    exact if_pos (hkeys.mpr hin)
  · rw [hadd]
    unfold forget
    rw [if_neg (hkeys.not.mpr hin), holds_restrict hmine, hholds]
    refine Prod.ext rfl ?_
    unfold restrict
    dsimp only
    rw [Finset.filter_insert, if_pos hmine]
    rfl
  · rw [hbury]
    unfold forget
    rw [if_neg (hkeys.not.mpr hin), holds_restrict hmine, hholds, restrict_bury hmine]
    rfl

omit [Python R] in
/-- `forget` of a stranger is not seen. -/
theorem restrict_forget (h : Kept s) {o i : String} (hforeign : mine o = false) :
    restrict mine (forget env o i s).2 = restrict mine s := by
  rcases forget_cases env o i s with ⟨-, hsame⟩ | ⟨-, -, hadd⟩ | ⟨-, hholds, hbury⟩
  · rw [hsame]
  · rw [hadd]
    unfold restrict
    dsimp only
    rw [Finset.filter_insert, if_neg (by simp [hforeign])]
  · rw [hbury]
    exact (h.foreign (holds_iff.mp hholds) hforeign).restrict_bury hforeign

omit [Python R] in
/-- The write keys of an owner go, whoever is looked at. -/
theorem restrict_dropKeys {o : String} (t : EncryptedCloudMemoryService R) :
    restrict mine { t with writeKeys := t.writeKeys.filter fun key _ => decide (key.1 ≠ o) } =
      { restrict mine t with
        writeKeys := (restrict mine t).writeKeys.filter fun key _ => decide (key.1 ≠ o) } := by
  unfold restrict
  dsimp only
  rw [Dict.filter_filter, Dict.filter_filter]
  congr 1
  exact Dict.filter_congr fun _ _ _ => Bool.and_comm _ _

/-- `delete_owner` acts on the part of that owner. -/
theorem deleteOwner_restrict {o : String} (hmine : mine o = true) :
    deleteOwner env o (restrict mine s) =
      ((deleteOwner env o s).1, restrict mine (deleteOwner env o s).2) := by
  unfold deleteOwner
  cases tenantOf R o with
  | error e => rfl
  | ok tenant =>
    dsimp only
    rw [idsOf_restrict hmine, restrict_dropKeys, restrict_buryAll hmine]

/-- `delete_owner` of a stranger is not seen. -/
theorem restrict_deleteOwner (h : Kept s) {o : String} (hforeign : mine o = false) :
    restrict mine (deleteOwner env o s).2 = restrict mine s := by
  unfold deleteOwner
  cases tenantOf R o with
  | error e => rfl
  | ok tenant =>
    have hids : ∀ i ∈ idsOf s o, Foreign mine s i := fun i hi =>
      h.foreign (mem_idsOf.mp hi) hforeign
    dsimp only
    rw [restrict_dropKeys, restrict_buryAll_of_foreign hforeign hids]
    -- none of the keys that go is one of the part
    have hkeys : (restrict mine s).writeKeys.filter (fun key _ => decide (key.1 ≠ o))
        = (restrict mine s).writeKeys := by
      refine Dict.filter_eq_self fun k i hk => ?_
      have hmine := (Dict.get?_filter_eq_some.mp hk).2
      refine decide_eq_true ?_
      rintro rfl
      rw [hforeign] at hmine
      cases hmine
    rw [hkeys]

/-! ## Reading the part -/

/-- `get` answers from the part of the owner. -/
theorem get_restrict {o i : String} (hmine : mine o = true) :
    get encryptor env o i (restrict mine s) = get encryptor env o i s := by
  unfold get
  cases tenantOf R o with
  | error e => rfl
  | ok tenant =>
    dsimp only
    cases hr : s.records.get? i with
    | none => rw [get?_restrict_eq_none hr]
    | some r =>
      by_cases howner : r.ownerId = o
      · rw [get?_restrict_of_owner hr (by rw [howner]; exact hmine)]
      · dsimp only
        rw [if_pos howner]
        cases hr' : (restrict mine s).records.get? i with
        | none => rfl
        | some r' =>
          obtain ⟨hget, -⟩ := get?_restrict_records.mp hr'
          rw [hr] at hget
          cases hget
          exact if_pos howner

omit [Python R] in
theorem values_restrict :
    (restrict mine s).records.values = s.records.values.filter fun r => mine r.ownerId :=
  Dict.values_filter _ _

/-- A search passes over the records of others. -/
theorem searchRecords_filter {owner state : String} {query : Finset String}
    (hmine : mine owner = true) (records : List (StoredRecord R)) :
    searchRecords encryptor env unicode owner state query (records.filter fun r => mine r.ownerId)
      = searchRecords encryptor env unicode owner state query records := by
  induction records with
  | nil => rfl
  | cons r rest ih =>
    by_cases howner : r.ownerId = owner
    · rw [List.filter_cons_of_pos (by rw [howner]; exact hmine), searchRecords, searchRecords, ih]
    · rw [searchRecords, if_pos howner, ← ih]
      cases hr : mine r.ownerId with
      | false => rw [List.filter_cons_of_neg (by simp [hr])]
      | true =>
        have hkeep : (r :: rest).filter (fun r => mine r.ownerId)
            = r :: rest.filter fun r => mine r.ownerId := List.filter_cons_of_pos hr
        rw [hkeep, searchRecords, if_pos howner]

/-- Listing an owner's active records skips those of others. -/
theorem listActive_filter {owner : String} (hmine : mine owner = true)
    (records : List (StoredRecord R)) :
    listActive encryptor env owner (records.filter fun r => mine r.ownerId)
      = listActive encryptor env owner records := by
  induction records with
  | nil => rfl
  | cons r rest ih =>
    by_cases howner : r.ownerId = owner
    · rw [List.filter_cons_of_pos (by rw [howner]; exact hmine), listActive, listActive, ih]
    · rw [listActive, if_pos howner, ← ih]
      cases hr : mine r.ownerId with
      | false => rw [List.filter_cons_of_neg (by simp [hr])]
      | true =>
        have hkeep : (r :: rest).filter (fun r => mine r.ownerId)
            = r :: rest.filter fun r => mine r.ownerId := List.filter_cons_of_pos hr
        rw [hkeep, listActive, if_pos howner]

/-- `search` answers from the part of the owner. -/
theorem search_restrict {request : SearchRequest R} (hmine : mine request.ownerId.val = true) :
    search encryptor env unicode request (restrict mine s)
      = search encryptor env unicode request s := by
  unfold search
  rw [values_restrict, searchRecords_filter hmine]

/-- `list_records` answers from the part of the owner. -/
theorem listRecords_restrict {o : String} (hmine : mine o = true) :
    listRecords encryptor env o (restrict mine s) = listRecords encryptor env o s := by
  unfold listRecords
  rw [values_restrict, listActive_filter hmine]

/-- `embedding` answers from the part of the owner. -/
theorem embedding_restrict {o i : String} (hmine : mine o = true) :
    embedding o i (restrict mine s) = embedding o i s := by
  unfold embedding
  cases tenantOf R o with
  | error e => rfl
  | ok tenant =>
    dsimp only
    show (match (s.embeddings.filter fun _ e => mine e.ownerId).get? i with
      | none => Except.ok none
      | some entry => if entry.ownerId ≠ o then .ok none else .ok (some entry)) = _
    rw [Dict.get?_filter]
    cases s.embeddings.get? i with
    | none => rfl
    | some e =>
      -- the vector of another owner is answered by none
      by_cases howner : e.ownerId = o
      · rw [Option.filter_some_pos (by rw [howner]; exact hmine)]
      · dsimp only
        rw [if_pos howner]
        cases he : mine e.ownerId with
        | false => rw [Option.filter_some_neg (by simp [he])]
        | true =>
          have hkeep : (some e).filter (fun e => mine e.ownerId) = some e :=
            Option.filter_some_pos he
          rw [hkeep]
          exact if_pos howner

omit [Python R] in
/-- Rotating the key acts on every part alike. -/
theorem rotate_restrict (version : Int) :
    rotate version (restrict mine s) =
      ((rotate version s).1, restrict mine (rotate version s).2) := by
  unfold rotate
  show (if version < 1 ∨ version < s.keyVersion then _ else _) = _
  split_ifs <;> rfl

/-! ## What holds the maps together -/

/-- No record and no write key is added. -/
structure AddsNothing (s s' : EncryptedCloudMemoryService R) : Prop where
  owners : ∀ i o, ownerAt s' i = some o → ownerAt s i = some o
  keys : ∀ k i, s'.writeKeys.get? k = some i → s.writeKeys.get? k = some i

omit [Python R] in
/-- A call that adds no ids leaves an unused id unused. -/
theorem AddsNothing.unused {i : String} (h : AddsNothing s s') (hi : Unused s i) : Unused s' i := by
  constructor
  · cases hr : s'.records.get? i with
    | none => rfl
    | some r =>
      obtain ⟨r', hr', -⟩ := ownerAt_eq_some.mp (h.owners i _ (ownerAt_eq_some.mpr ⟨r, hr, rfl⟩))
      rw [hi.record] at hr'
      cases hr'
  · exact fun k hk => hi.writeKeys k (h.keys k i hk)

omit [Python R] in
/-- Such a call keeps the invariant, if it keeps vectors with the owners of their records. -/
theorem AddsNothing.kept (h : AddsNothing s s') (hs : Kept s) (hkeyed : Keyed s')
    (hembeddings : ∀ i e, s'.embeddings.get? i = some e → ownerAt s' i = some e.ownerId) :
    Kept s' := by
  refine ⟨hkeyed, fun k i r hk hr => ?_, hembeddings⟩
  obtain ⟨r', hr', howner⟩ := ownerAt_eq_some.mp (h.owners i _ (ownerAt_eq_some.mpr ⟨r, hr, rfl⟩))
  rw [← howner]
  exact hs.writeKeys k i r' (h.keys k i hk) hr'

omit [Python R] in
/-- A vector that stays is still its owner's. -/
theorem Shrinks.embeddings (h : Shrinks s s') (hs : Kept s) (i : String) (e : CloudEmbedding R)
    (he : s'.embeddings.get? i = some e) : ownerAt s' i = some e.ownerId := by
  rcases h i with ⟨hr, hv⟩ | ⟨-, hv⟩
  · rw [hv] at he
    unfold ownerAt
    rw [hr]
    exact hs.embeddings i e he
  · rw [hv] at he
    cases he

theorem addsNothing_update (payload : UpdatePayload R) :
    AddsNothing s (update encryptor env payload s).2 := by
  constructor
  · intro i o ho
    rwa [ownerAt_update] at ho
  · intro k i hk
    rwa [writeKeys_update] at hk

theorem addsNothing_storeEmbedding (o i : String) (version : Int) (values : List R) :
    AddsNothing s (storeEmbedding o i version values s).2 := by
  rcases storeEmbedding_cases o i version values s with hsame | ⟨r, -, -, hset⟩
  · rw [hsame]
    exact ⟨fun _ _ => id, fun _ _ => id⟩
  · rw [hset]
    exact ⟨fun _ _ => id, fun _ _ => id⟩

omit [Python R] in
theorem addsNothing_forget (o i : String) : AddsNothing s (forget env o i s).2 := by
  refine ⟨fun _ _ => ownerAt_forget, fun k j hk => ?_⟩
  rcases forget_cases env o i s with ⟨-, hsame⟩ | ⟨-, -, hadd⟩ | ⟨-, -, hbury⟩
  · rwa [hsame] at hk
  · rwa [hadd] at hk
  · rwa [hbury] at hk

theorem addsNothing_deleteOwner (o : String) : AddsNothing s (deleteOwner env o s).2 := by
  refine ⟨fun _ _ ho => (ownerAt_deleteOwner ho).1, fun k j hk => ?_⟩
  rcases deleteOwner_cases env o s with ⟨e, -, hsame⟩ | ⟨tenant, -, hdeleted⟩
  · rwa [hsame] at hk
  · rw [hdeleted] at hk
    exact (Dict.get?_filter_eq_some.mp hk).1

omit [Python R] in
theorem addsNothing_rotate (version : Int) : AddsNothing s (rotate version s).2 := by
  unfold rotate
  split <;> exact ⟨fun _ _ => id, fun _ _ => id⟩

theorem Kept.keyedAfter (h : Kept s) (encryptor : TenantEnvelopeEncryptor) (call : CloudCall R) :
    Keyed (call.apply encryptor s) := h.keyed.apply call

/-- `write` under a fresh id keeps the invariant. -/
theorem Kept.write (h : Kept s) {payload : WritePayload R} (hfresh : Unused s (drawnId env)) :
    Kept (write encryptor env payload s).2 := by
  have hkeyed := h.keyedAfter encryptor (.write env payload)
  rcases write_cases encryptor env payload s with hsame | ⟨tenant, r, t, -, hnew, hstored⟩
  · rw [hsame]
    exact h
  obtain ⟨hid, howner, -⟩ := newRecord_ok hnew
  refine ⟨hkeyed, ?_, ?_⟩
  -- the key of the call points to the record that it wrote
  · intro k i r' hk hr'
    rw [hstored] at hk hr'
    have hk' : (s.writeKeys.set (payload.ownerId, payload.idempotencyKey) r.id).get? k = some i :=
      hk
    have hr'' : (s.records.set r.id r).get? i = some r' := hr'
    rw [Dict.get?_set] at hk' hr''
    by_cases hkey : k = (payload.ownerId, payload.idempotencyKey)
    · rw [if_pos hkey] at hk'
      rw [if_pos (Option.some.inj hk').symm] at hr''
      rw [← Option.some.inj hr'', hkey]
      exact howner
    · rw [if_neg hkey] at hk'
      have hne : i ≠ r.id := by
        rintro rfl
        rw [hid] at hk'
        exact hfresh.writeKeys k hk'
      rw [if_neg hne] at hr''
      exact h.writeKeys k i r' hk' hr''
  -- no vector was under the drawn id
  · intro i e he
    rw [hstored] at he ⊢
    have hold := h.embeddings i e he
    have hne : i ≠ r.id := by
      rintro rfl
      obtain ⟨r', hr', -⟩ := ownerAt_eq_some.mp hold
      rw [hid, hfresh.record] at hr'
      cases hr'
    show ((s.records.set r.id r).get? i).map StoredRecord.ownerId = _
    rw [Dict.get?_set_of_ne _ _ hne]
    exact hold

/-- An id that another `write` did not draw stays unused. -/
theorem Unused.write {payload : WritePayload R} {i : String} (h : Unused s i)
    (hne : i ≠ drawnId env) : Unused (Cloud.write encryptor env payload s).2 i := by
  rcases write_cases encryptor env payload s with hsame | ⟨tenant, r, t, -, hnew, hstored⟩
  · rw [hsame]
    exact h
  obtain ⟨hid, -, -⟩ := newRecord_ok hnew
  rw [← hid] at hne
  rw [hstored]
  constructor
  · exact (Dict.get?_set_of_ne _ _ hne).trans h.record
  · intro k hk
    have hk' : (s.writeKeys.set (payload.ownerId, payload.idempotencyKey) r.id).get? k = some i :=
      hk
    rw [Dict.get?_set] at hk'
    split at hk'
    · exact hne (Option.some.inj hk').symm
    · exact h.writeKeys k hk'

theorem Kept.update (h : Kept s) (payload : UpdatePayload R) :
    Kept (update encryptor env payload s).2 := by
  refine (addsNothing_update payload).kept h (h.keyedAfter encryptor (.update env payload)) ?_
  intro i e he
  rw [ownerAt_update]
  rcases update_cases encryptor env payload s with hsame | ⟨r, r', -, -, hput | hamended⟩
  · rw [hsame] at he
    exact h.embeddings i e he
  · rw [hput] at he
    exact h.embeddings i e he
  · rw [hamended] at he
    have he' : (s.embeddings.pop r'.id).get? i = some e := he
    rw [Dict.get?_pop] at he'
    split at he'
    · cases he'
    · exact h.embeddings i e he'

theorem Kept.storeEmbedding (h : Kept s) (encryptor : TenantEnvelopeEncryptor) (o i : String)
    (version : Int) (values : List R) : Kept (storeEmbedding o i version values s).2 := by
  refine (addsNothing_storeEmbedding o i version values).kept h
    (h.keyedAfter encryptor (.storeEmbedding o i version values)) fun j e he => ?_
  rcases storeEmbedding_cases o i version values s with hsame | ⟨r, hr, hcurrent, hset⟩
  · rw [hsame] at he ⊢
    exact h.embeddings j e he
  · rw [hset] at he ⊢
    have he' : (s.embeddings.set i ⟨o, version, values⟩).get? j = some e := he
    rw [Dict.get?_set] at he'
    split at he'
    · obtain rfl := Option.some.inj he'
      rename_i hj
      rw [hj]
      exact ownerAt_eq_some.mpr ⟨r, hr, (of_isCurrent hcurrent).1⟩
    · exact h.embeddings j e he'

/-! ## The service of some owners -/

namespace OwnerCall

/-- A call for one of the owners does to their part what it does to the whole. -/
theorem run_restrict (h : Kept s) {call : OwnerCall R} (hfresh : ∀ i ∈ call.drawn, Unused s i)
    (hmine : call.isFor mine = true) :
    call.run encryptor unicode (restrict mine s) =
      ((call.run encryptor unicode s).1, restrict mine (call.run encryptor unicode s).2) := by
  cases call with
  -- each call answers the same, and leaves the same part behind
  | write env payload =>
    exact congrArg (Prod.map CloudAnswer.result id) (write_restrict h (hfresh _ rfl) hmine)
  | update env payload => exact congrArg (Prod.map CloudAnswer.result id) (update_restrict hmine)
  | get env o i =>
    exact congrArg (fun outcome => (CloudAnswer.found outcome, restrict mine s))
      (get_restrict hmine)
  | search env request =>
    exact congrArg (fun outcome => (CloudAnswer.hits outcome, restrict mine s))
      (search_restrict hmine)
  | listRecords env o =>
    exact congrArg (fun outcome => (CloudAnswer.memories outcome, restrict mine s))
      (listRecords_restrict hmine)
  | storeEmbedding o i version values =>
    exact congrArg (Prod.map CloudAnswer.stored id) (storeEmbedding_restrict h hmine)
  | embedding o i =>
    exact congrArg (fun outcome => (CloudAnswer.vector outcome, restrict mine s))
      (embedding_restrict hmine)
  | forget env o i => exact congrArg (Prod.map CloudAnswer.forgotten id) (forget_restrict hmine)
  | deleteOwner env o =>
    exact congrArg (Prod.map CloudAnswer.deleted id) (deleteOwner_restrict hmine)
  | rotate version => exact congrArg (Prod.map CloudAnswer.rotated id) (rotate_restrict version)

/-- A call for another owner leaves the part alone. -/
theorem restrict_run (h : Kept s) {call : OwnerCall R} (hfresh : ∀ i ∈ call.drawn, Unused s i)
    (hforeign : call.isFor mine = false) :
    restrict mine (call.run encryptor unicode s).2 = restrict mine s := by
  cases call with
  | write env payload => exact restrict_write (hfresh _ rfl) hforeign
  | update env payload => exact restrict_update h hforeign
  | get env o i => rfl
  | search env request => rfl
  | listRecords env o => rfl
  | storeEmbedding o i version values => exact restrict_storeEmbedding h hforeign
  | embedding o i => rfl
  | forget env o i => exact restrict_forget h hforeign
  | deleteOwner env o => exact restrict_deleteOwner h hforeign
  | rotate version => cases hforeign

/-- Any call keeps the invariant, if the id that it draws is unused. -/
theorem kept_next (h : Kept s) {call : OwnerCall R} (hfresh : ∀ i ∈ call.drawn, Unused s i) :
    Kept (call.next encryptor unicode s) := by
  cases call with
  -- what only reads keeps everything
  | write env payload => exact h.write (hfresh _ rfl)
  | update env payload => exact h.update payload
  | get env o i => exact h
  | search env request => exact h
  | listRecords env o => exact h
  | storeEmbedding o i version values => exact h.storeEmbedding encryptor o i version values
  | embedding o i => exact h
  -- what takes away adds nothing
  | forget env o i =>
    exact (addsNothing_forget o i).kept h
      (h.keyedAfter encryptor (.forget env o i))
      ((shrinks_forget env o i s).embeddings h)
  | deleteOwner env o =>
    exact (addsNothing_deleteOwner o).kept h
      (h.keyedAfter encryptor (.deleteOwner env o))
      ((shrinks_deleteOwner env o s).embeddings h)
  | rotate version =>
    refine (addsNothing_rotate version).kept h
      (h.keyedAfter encryptor (.rotate version)) ?_
    unfold Cloud.rotate
    split <;> exact h.embeddings

/-- An id stays unused until it is drawn. -/
theorem unused_next {call : OwnerCall R} {i : String} (h : Unused s i) (hne : i ∉ call.drawn) :
    Unused (call.next encryptor unicode s) i := by
  cases call with
  | write env payload => exact h.write fun heq => hne (heq ▸ rfl)
  | update env payload => exact (addsNothing_update payload).unused h
  | get env o j => exact h
  | search env request => exact h
  | listRecords env o => exact h
  | storeEmbedding o j version values =>
    exact (addsNothing_storeEmbedding o j version values).unused h
  | embedding o j => exact h
  | forget env o j => exact (addsNothing_forget o j).unused h
  | deleteOwner env o => exact (addsNothing_deleteOwner o).unused h
  | rotate version => exact (addsNothing_rotate version).unused h

/-! ### Runs -/

/-- The service holds together, and the ids that are still to be drawn are new and all different. -/
structure Ready (s : EncryptedCloudMemoryService R) (ids : List String) : Prop where
  kept : Kept s
  nodup : ids.Nodup
  unused : ∀ i ∈ ids, Unused s i

/-- The id that the next call draws is unused. -/
theorem Ready.head {call : OwnerCall R} {ids : List String}
    (h : Ready s (call.drawn.toList ++ ids)) :
    ∀ i ∈ call.drawn, Unused s i := fun i hi =>
  h.unused i (List.mem_append_left _ (Option.mem_toList.mpr hi))

omit [Python R] in
theorem Ready.skip {drawn ids : List String} (h : Ready s (drawn ++ ids)) : Ready s ids where
  kept := h.kept
  nodup := (List.sublist_append_right drawn ids).nodup h.nodup
  unused i hi := h.unused i (List.mem_append_right _ hi)

/-- After the call, the ids that are left are unused. -/
theorem Ready.next {call : OwnerCall R} {ids : List String}
    (h : Ready s (call.drawn.toList ++ ids)) : Ready (call.next encryptor unicode s) ids where
  kept := kept_next h.kept h.head
  nodup := h.skip.nodup
  unused i hi := unused_next (h.skip.unused i hi) fun hdrawn =>
    List.disjoint_of_nodup_append h.nodup (Option.mem_toList.mpr hdrawn) hi

theorem filterMap_drawn_cons (call : OwnerCall R) (calls : List (OwnerCall R)) :
    (call :: calls).filterMap drawn = call.drawn.toList ++ calls.filterMap drawn := by
  rw [List.filterMap_cons]
  cases call.drawn <;> rfl

/-- The part of these owners unwinds: it is what the calls for them alone make of it. -/
theorem unwinds (mine : String → Bool) (encryptor : TenantEnvelopeEncryptor)
    (unicode : UnicodeDatabase) :
    Unwinds (OwnerCall.next (R := R) encryptor unicode) (OwnerCall.answer encryptor unicode)
      (OwnerCall.isFor mine) (fun s calls => Ready s (calls.filterMap drawn))
      fun s t => restrict mine s = t where
  ready h := by
    rw [filterMap_drawn_cons] at h
    exact h.next
  skip h _ := by
    rw [filterMap_drawn_cons] at h
    exact h.skip
  unseen h hforeign hagree := by
    rw [filterMap_drawn_cons] at h
    exact (restrict_run h.kept h.head hforeign).trans hagree
  seen := by
    rintro s t call calls h - hmine rfl
    rw [filterMap_drawn_cons] at h
    have hrun : call.run encryptor unicode (restrict mine s) = _ :=
      run_restrict h.kept h.head hmine
    exact ⟨(congrArg Prod.fst hrun).symm, (congrArg Prod.snd hrun).symm⟩

omit [Python R] in
/-- A new service is ready for any distinct ids. -/
theorem ready_newService (keyVersion : Int) {ids : List String} (h : ids.Nodup) :
    Ready (newService keyVersion (R := R)) ids where
  kept := ⟨nofun, nofun, nofun⟩
  nodup := h
  unused _ _ := ⟨rfl, nofun⟩

end OwnerCall

/-- In a run of calls of any owners with rotations in between, whose ids are all different, some
owners get the answers that they would get without the others, and what is stored of them at the end
is the service that their calls alone make. -/
theorem owners_isolated (mine : String → Bool) (encryptor : TenantEnvelopeEncryptor)
    (unicode : UnicodeDatabase) (keyVersion : Int) {calls : List (OwnerCall R)}
    (hfresh : (calls.filterMap OwnerCall.drawn).Nodup) :
    answersTo (OwnerCall.next encryptor unicode) (OwnerCall.answer encryptor unicode)
        (OwnerCall.isFor mine) (newService keyVersion) calls =
      answers (OwnerCall.next encryptor unicode) (OwnerCall.answer encryptor unicode)
        (newService keyVersion) (calls.filter (OwnerCall.isFor mine)) ∧
    restrict mine (calls.foldl (OwnerCall.next encryptor unicode) (newService keyVersion)) =
      (calls.filter (OwnerCall.isFor mine)).foldl (OwnerCall.next encryptor unicode)
        (newService keyVersion) := by
  have hready := OwnerCall.ready_newService (R := R) keyVersion hfresh
  have hunwinds := OwnerCall.unwinds (R := R) mine encryptor unicode
  exact ⟨hunwinds.purge hready rfl, hunwinds.agree_foldl hready hready rfl⟩

/-- Somebody of the same tenant. -/
def nextDesk : String :=
  "cloud:00000000-0000-0000-0000-000000000001:00000000-0000-0000-0000-000000000003"

/-- Two owners write under one key, and one of them tries the id of the other. -/
def sharedMorning : List (OwnerCall ℚ) :=
  [.write (deskEnv 8) { deskNote "k" "B" with ownerId := nextDesk },
    .write (deskEnv 7) (deskNote "k" "A"),
    .update (deskEnv 0)
      { ownerId := nextDesk, id := deskId, expectedVersion := 1, patch := { content := "C" } },
    .rotate 2, .listRecords (deskEnv 0) deskOwner, .deleteOwner (deskEnv 0) nextDesk]

theorem desk_isolated :
    answersTo (OwnerCall.next deskEncryptor Mcp.asciiDatabase)
        (OwnerCall.answer deskEncryptor Mcp.asciiDatabase) (OwnerCall.isFor (· = deskOwner))
        (newService 1) sharedMorning =
      answers (OwnerCall.next deskEncryptor Mcp.asciiDatabase)
        (OwnerCall.answer deskEncryptor Mcp.asciiDatabase) (newService 1)
        [.write (deskEnv 7) (deskNote "k" "A"), .rotate 2, .listRecords (deskEnv 0) deskOwner] :=
  (owners_isolated (· = deskOwner) deskEncryptor Mcp.asciiDatabase 1 (by decide)).1

end OpenMemory.Cloud
