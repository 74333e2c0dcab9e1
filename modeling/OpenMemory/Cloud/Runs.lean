import OpenMemory.Application.Reference
import OpenMemory.Cloud.Effects

/-!
# Runs of the Cloud memory service

A run is any sequence of calls, each in an environment of its own. Ids are drawn by `uuid4`, so a
write draws one that no record and no tombstone has (`CloudCall.Fresh`); snapshots, ledgers and
payloads are arbitrary.

What the calls do to the ownership of records is said once: `update`, `rotate`, `rewrap` and
`store_embedding` keep it, `forget` and `delete_owner` only remove, a write adds its own record, and
a restore installs what its ledger does not name (`ownerAt_apply`). The ledger only grows
(`contains_tombstones_apply`). From the two, a tombstone is permanent (`tombstones_permanent`).
-/

namespace OpenMemory.Cloud

open Lib

variable {R : Type} [Python R]

/-! ## Calls -/

/-- A call of the service, with what it observes. -/
inductive CloudCall (R : Type) [Python R]
  | write (env : Environment) (payload : WritePayload R)
  | update (env : Environment) (payload : UpdatePayload R)
  | storeEmbedding (ownerId memoryId : String) (sourceVersion : Int) (values : List R)
  | forget (env : Environment) (ownerId memoryId : String)
  | deleteOwner (env : Environment) (ownerId : String)
  | backup
  | restore (snapshot : PyDict R) (tombstones : List (PyObj R))
  | rotate (version : Int)
  | rewrap (env : Environment) (version : Int)

namespace CloudCall

/-- The state after a call. -/
def apply (encryptor : TenantEnvelopeEncryptor) (call : CloudCall R)
    (s : EncryptedCloudMemoryService R) : EncryptedCloudMemoryService R :=
  match call with
  | write env payload => (Cloud.write encryptor env payload s).2
  | update env payload => (Cloud.update encryptor env payload s).2
  | storeEmbedding ownerId memoryId sourceVersion values =>
    (Cloud.storeEmbedding ownerId memoryId sourceVersion values s).2
  | forget env ownerId memoryId => (Cloud.forget env ownerId memoryId s).2
  | deleteOwner env ownerId => (Cloud.deleteOwner env ownerId s).2
  | backup => s
  | restore snapshot tombstones => (Cloud.restore snapshot tombstones s).2
  | rotate version => (Cloud.rotate version s).2
  | rewrap env version => (Cloud.rewrap encryptor env version s).2

/-- `uuid4` draws an id that no record and no tombstone has. -/
def Fresh (s : EncryptedCloudMemoryService R) : CloudCall R → Prop
  | write env _ =>
    s.records.get? (drawnId env) = none ∧
      ∀ ownerId, s.tombstones.contains (ownerId, drawnId env) = false
  | _ => True

end CloudCall

/-- `EncryptedCloudMemoryService(encryptor, key_version=…)`. -/
def newService (keyVersion : Int) : EncryptedCloudMemoryService R where
  keyVersion := keyVersion

/-- One call whose id is fresh. -/
def Step (encryptor : TenantEnvelopeEncryptor) (s s' : EncryptedCloudMemoryService R) : Prop :=
  ∃ call : CloudCall R, call.Fresh s ∧ s' = call.apply encryptor s

/-- The states a service can be in. -/
def Reachable (encryptor : TenantEnvelopeEncryptor) (s : EncryptedCloudMemoryService R) : Prop :=
  ∃ keyVersion, Reaches (Step encryptor) (newService keyVersion) s

variable {encryptor : TenantEnvelopeEncryptor} {env : Environment}
  {s s' : EncryptedCloudMemoryService R}

/-! ## What a call does to owners and to the ledger -/

theorem ownerAt_write {payload : WritePayload R} {o i : String}
    (h : ownerAt (write encryptor env payload s).2 i = some o) :
    ownerAt s i = some o ∨
      i = drawnId env ∧ o = payload.ownerId ∧ ∃ tenant, tenantOf R o = .ok tenant := by
  rcases write_cases encryptor env payload s with hsame | ⟨tenant, r, t, htenant, hnew, hstored⟩
  · rw [hsame] at h
    exact .inl h
  · obtain ⟨hid, howner, -⟩ := newRecord_ok hnew
    rw [hstored] at h
    unfold ownerAt stored at h
    dsimp only at h
    rw [Dict.get?_set, hid] at h
    by_cases hi : i = drawnId env
    · rw [if_pos hi, Option.map_some, howner] at h
      cases h
      exact .inr ⟨hi, rfl, tenant, htenant⟩
    · rw [if_neg hi] at h
      exact .inl h

omit [Python R] in
theorem ownerAt_putRecord {r r' : StoredRecord R} {i : String} (hr : s.records.get? i = some r)
    (hsame : SameOwner r r') (j : String) : ownerAt (putRecord s i r') j = ownerAt s j := by
  unfold ownerAt putRecord
  dsimp only
  rw [Dict.get?_set]
  by_cases hj : j = i
  · rw [if_pos hj, hj, hr, Option.map_some, Option.map_some, hsame.2]
  · rw [if_neg hj]

theorem ownerAt_update (payload : UpdatePayload R) (j : String) :
    ownerAt (update encryptor env payload s).2 j = ownerAt s j := by
  rcases update_cases encryptor env payload s with hsame | ⟨r, r', hr, hsame, hput | hamended⟩
  · rw [hsame]
  · rw [hput]
    exact ownerAt_putRecord hr hsame j
  · rw [hamended]
    exact ownerAt_putRecord hr hsame j

/-- A rewrap keeps id, owner and the other fields of every record. -/
theorem get?_rewrap (encryptor : TenantEnvelopeEncryptor) (env : Environment) (version : Int)
    (s : EncryptedCloudMemoryService R) (i : String) :
    ((rewrap encryptor env version s).2.records.get? i).map
        (fun r => (r.id, r.ownerId, r.fields)) =
      (s.records.get? i).map fun r => (r.id, r.ownerId, r.fields) := by
  rcases rewrap_cases encryptor env version s with ⟨-, hsame⟩ | ⟨pending, n, t, -, -, hrun, hok⟩
  · rw [hsame]
  · rw [hok]
    show ((applyPending s.records pending).get? i).map _ = _
    cases hr : s.records.get? i with
    | none =>
      unfold applyPending
      rw [Dict.get?_mapValues, hr]
      rfl
    | some r =>
      obtain ⟨r', k, u, u', hget, hrecord⟩ := get?_applyPending hrun hr
      obtain ⟨_, _, _, _, _, _, _, -, -, -, -, rfl, -⟩ := rewrapRecord_ok hrecord
      rw [hget]
      rfl

theorem ownerAt_rewrap (version : Int) (i : String) :
    ownerAt (rewrap encryptor env version s).2 i = ownerAt s i := by
  have h := congrArg (Option.map fun f : String × String × PyDict R => f.2.1)
    (get?_rewrap encryptor env version s i)
  rw [Option.map_map, Option.map_map] at h
  exact h

theorem storeEmbedding_cases (o i : String) (version : Int) (values : List R)
    (s : EncryptedCloudMemoryService R) :
    (storeEmbedding o i version values s).2 = s ∨
      ∃ r, s.records.get? i = some r ∧ isCurrent o version r = true ∧
        (storeEmbedding o i version values s).2 =
          { s with embeddings := s.embeddings.set i ⟨o, version, values⟩ } := by
  unfold storeEmbedding
  cases tenantOf R o with
  | error e => exact .inl rfl
  | ok tenant =>
    dsimp only
    cases hr : s.records.get? i with
    | none => exact .inl rfl
    | some r =>
      dsimp only
      by_cases hcurrent : isCurrent o version r = true
      · rw [if_pos hcurrent]
        exact .inr ⟨r, rfl, hcurrent, rfl⟩
      · rw [if_neg hcurrent]
        exact .inl rfl

omit [Python R] in
theorem ownerAt_forget {o i j o' : String}
    (h : ownerAt (forget env o i s).2 j = some o') : ownerAt s j = some o' := by
  rcases forget_cases env o i s with ⟨-, hsame⟩ | ⟨-, -, hkeys⟩ | ⟨-, -, hbury⟩
  · rw [hsame] at h
    exact h
  · rw [hkeys] at h
    exact h
  · rw [hbury] at h
    unfold ownerAt at h
    dsimp only at h
    rw [get?_bury] at h
    by_cases hj : j = i
    · rw [if_pos hj] at h
      cases h
    · rw [if_neg hj] at h
      exact h

theorem ownerAt_deleteOwner {o j o' : String}
    (h : ownerAt (deleteOwner env o s).2 j = some o') :
    ownerAt s j = some o' ∧ (∀ tenant, tenantOf R o = .ok tenant → o' ≠ o) := by
  rcases deleteOwner_cases env o s with ⟨e, herror, hsame⟩ | ⟨tenant, -, hdeleted⟩
  · rw [hsame] at h
    refine ⟨h, ?_⟩
    intro tenant hok
    rw [herror] at hok
    cases hok
  · rw [hdeleted] at h
    have h' : ((buryAll env o (idsOf s o) 0 s).records.get? j).map StoredRecord.ownerId = some o' :=
      h
    rw [get?_buryAll] at h'
    by_cases hj : j ∈ idsOf s o
    · rw [if_pos hj] at h'
      cases h'
    · rw [if_neg hj] at h'
      refine ⟨h', ?_⟩
      rintro - - rfl
      exact hj (mem_idsOf.mpr h')

theorem ownerAt_restore {snapshot : PyDict R} {tombstones : List (PyObj R)} {o i : String}
    (h : ownerAt (restore snapshot tombstones s).2 i = some o) :
    ownerAt s i = some o ∨
      (restore snapshot tombstones s).2.tombstones.contains (o, i) = false ∧
        ∃ tenant, tenantOf R o = .ok tenant := by
  rcases restore_cases snapshot tombstones s with
    ⟨e, -, hsame⟩ | ⟨e, hledger⟩ | ⟨records, restored, -, hchecked, hok⟩
  · rw [hsame] at h
    exact .inl h
  · rw [hledger] at h
    exact .inl h
  · rw [hok] at h ⊢
    obtain ⟨r, hr, rfl⟩ := ownerAt_eq_some.mp h
    obtain ⟨hget, hfree⟩ := get?_install.mp hr
    obtain ⟨e, -, hrecord⟩ := mem_of_checkRecords hchecked (get?_byId hget).1
    exact .inr ⟨hfree, (checkRecord_ok hrecord).2⟩

/-- Where an owned record comes from: it was there, a write drew its id, or a restore installed it
past the ledger. -/
theorem ownerAt_apply {call : CloudCall R} {o i : String}
    (h : ownerAt (call.apply encryptor s) i = some o) :
    ownerAt s i = some o ∨
      (∃ env payload, call = .write env payload ∧ i = drawnId env ∧
        ∃ tenant, tenantOf R o = .ok tenant) ∨
      (∃ snapshot tombstones, call = .restore snapshot tombstones ∧
        (call.apply encryptor s).tombstones.contains (o, i) = false ∧
        ∃ tenant, tenantOf R o = .ok tenant) := by
  cases call with
  | write env payload =>
    rcases ownerAt_write h with hold | ⟨hi, -, htenant⟩
    · exact .inl hold
    · exact .inr (.inl ⟨env, payload, rfl, hi, htenant⟩)
  | update env payload => exact .inl ((ownerAt_update payload i).symm.trans h)
  | storeEmbedding o' i' version values =>
    rcases storeEmbedding_cases o' i' version values s with hsame | ⟨r, -, -, hset⟩
    · have h' : ownerAt (storeEmbedding o' i' version values s).2 i = some o := h
      rw [hsame] at h'
      exact .inl h'
    · have h' : ownerAt (storeEmbedding o' i' version values s).2 i = some o := h
      rw [hset] at h'
      exact .inl h'
  | forget env o' i' => exact .inl (ownerAt_forget h)
  | deleteOwner env o' => exact .inl (ownerAt_deleteOwner h).1
  | backup => exact .inl h
  | restore snapshot tombstones =>
    rcases ownerAt_restore h with hold | ⟨hfree, htenant⟩
    · exact .inl hold
    · exact .inr (.inr ⟨snapshot, tombstones, rfl, hfree, htenant⟩)
  | rotate version =>
    refine .inl ?_
    have h' : ownerAt (rotate version s).2 i = some o := h
    unfold rotate at h'
    split at h' <;> exact h'
  | rewrap env version => exact .inl ((ownerAt_rewrap version i).symm.trans h)

/-- An entry that passed its checks has a valid owner and a date. -/
theorem checkEntry_ok {entry : PyObj R} {k : String × String} {at_ : String}
    (h : checkEntry entry = .ok (k, at_)) :
    (∃ tenant, tenantOf R k.1 = .ok tenant) ∧ (Python.fromisoformat R (fromZ at_)).isSome := by
  unfold checkEntry at h
  split at h
  · split at h
    · rename_i ownerId memoryId deletedAt _ _ _
      cases htenant : tenantOf R ownerId with
      | error e =>
        rw [htenant] at h
        cases h
      | ok tenant =>
        rw [htenant] at h
        dsimp only at h
        cases hdate : Python.fromisoformat R (fromZ deletedAt) with
        | none =>
          rw [hdate] at h
          cases h
        | some date =>
          rw [hdate] at h
          cases h
          exact ⟨⟨tenant, htenant⟩, by rw [hdate]; rfl⟩
    · cases h
  · cases h

/-- The clock prints a date. -/
theorem isSome_fromisoformat_now (env : Environment) (t : Nat) :
    (Python.fromisoformat R (fromZ (env.now t).zulu)).isSome := by
  rw [fromZ_zulu, Python.fromisoformat_isoformat _ (env.now_utc t)]
  rfl

/-- A tombstone stays as it is or is set to a date, and only for a valid owner or a record that the
owner held. -/
theorem get?_tombstones_apply (encryptor : TenantEnvelopeEncryptor) (call : CloudCall R)
    (s : EncryptedCloudMemoryService R) (k : String × String) :
    (call.apply encryptor s).tombstones.get? k = s.tombstones.get? k ∨
      ∃ at_, (call.apply encryptor s).tombstones.get? k = some at_ ∧
        (Python.fromisoformat R (fromZ at_)).isSome ∧
        (ownerAt s k.2 = some k.1 ∨ ∃ tenant, tenantOf R k.1 = .ok tenant) := by
  cases call with
  | write env payload =>
    refine .inl ?_
    show (write encryptor env payload s).2.tombstones.get? k = _
    rcases write_cases encryptor env payload s with hsame | ⟨_, r, _, -, -, hstored⟩
    · rw [hsame]
    · rw [hstored]
      rfl
  | update env payload =>
    refine .inl ?_
    show (update encryptor env payload s).2.tombstones.get? k = _
    rcases update_cases encryptor env payload s with hsame | ⟨_, _, -, -, hput | hamended⟩
    · rw [hsame]
    · rw [hput]
      rfl
    · rw [hamended]
      rfl
  | storeEmbedding o i version values =>
    refine .inl ?_
    show (storeEmbedding o i version values s).2.tombstones.get? k = _
    rcases storeEmbedding_cases o i version values s with hsame | ⟨_, -, -, hset⟩
    · rw [hsame]
    · rw [hset]
  | forget env o i =>
    show (forget env o i s).2.tombstones.get? k = _ ∨ ∃ at_, (forget env o i s).2.tombstones.get? k
      = some at_ ∧ _
    rcases forget_cases env o i s with ⟨-, hsame⟩ | ⟨-, -, hkeys⟩ | ⟨-, hholds, hbury⟩
    · rw [hsame]
      exact .inl rfl
    · rw [hkeys]
      exact .inl rfl
    · rw [hbury]
      by_cases hk : k = (o, i)
      · subst hk
        exact .inr ⟨_, Dict.get?_set_self _ _ _, isSome_fromisoformat_now env 0,
          .inl (holds_iff.mp hholds)⟩
      · exact .inl (Dict.get?_set_of_ne _ _ hk)
  | deleteOwner env o =>
    show (deleteOwner env o s).2.tombstones.get? k = _ ∨ ∃ at_,
      (deleteOwner env o s).2.tombstones.get? k = some at_ ∧ _
    rcases deleteOwner_cases env o s with ⟨e, -, hsame⟩ | ⟨tenant, htenant, hdeleted⟩
    · rw [hsame]
      exact .inl rfl
    · rw [hdeleted]
      dsimp only
      rcases get?_tombstones_buryAll env o (idsOf s o) 0 s k with
        ⟨u, hu, hk, -⟩ | ⟨hold, -⟩
      · exact .inr ⟨_, hu, isSome_fromisoformat_now env u, .inr ⟨tenant, hk ▸ htenant⟩⟩
      · exact .inl hold
  | backup => exact .inl rfl
  | restore snapshot tombstones =>
    have hledger := applyLedger_get? (tombstoneEntries s ++ tombstones) s.tombstones k
    show (restore snapshot tombstones s).2.tombstones.get? k = _ ∨ ∃ at_,
      (restore snapshot tombstones s).2.tombstones.get? k = some at_ ∧ _
    rcases restore_cases snapshot tombstones s with
      ⟨e, -, hsame⟩ | ⟨e, hchanged⟩ | ⟨records, restored, -, -, hok⟩
    · rw [hsame]
      exact .inl rfl
    · rw [hchanged]
      rcases hledger with hold | ⟨entry, -, at_, hentry, hget⟩
      · exact .inl hold
      · exact .inr ⟨at_, hget, (checkEntry_ok hentry).2, .inr (checkEntry_ok hentry).1⟩
    · rw [hok]
      rcases hledger with hold | ⟨entry, -, at_, hentry, hget⟩
      · exact .inl hold
      · exact .inr ⟨at_, hget, (checkEntry_ok hentry).2, .inr (checkEntry_ok hentry).1⟩
  | rotate version =>
    refine .inl ?_
    show (rotate version s).2.tombstones.get? k = _
    unfold rotate
    split <;> rfl
  | rewrap env version =>
    refine .inl ?_
    show (rewrap encryptor env version s).2.tombstones.get? k = _
    rcases rewrap_cases encryptor env version s with ⟨-, hsame⟩ | ⟨_, _, _, -, -, -, hok⟩
    · rw [hsame]
    · rw [hok]

/-- The ledger only grows. -/
theorem contains_tombstones_apply (encryptor : TenantEnvelopeEncryptor) (call : CloudCall R)
    {k : String × String}
    (h : s.tombstones.contains k = true) :
    (call.apply encryptor s).tombstones.contains k = true := by
  unfold Dict.contains at h ⊢
  rcases get?_tombstones_apply encryptor call s k with hold | ⟨at_, hget, -⟩
  · rw [hold]
    exact h
  · rw [hget]
    rfl

/-! ## Tombstones are permanent -/

/-- The ledger names the memory and the owner does not hold it. -/
structure Buried (s : EncryptedCloudMemoryService R) (o i : String) : Prop where
  named : s.tombstones.contains (o, i) = true
  absent : ownerAt s i ≠ some o

/-- One call keeps a memory buried: what it might bring back is not named. -/
theorem Buried.apply {o i : String} (h : Buried s o i) (encryptor : TenantEnvelopeEncryptor)
    {call : CloudCall R} (hfresh : call.Fresh s) : Buried (call.apply encryptor s) o i := by
  have hnamed := contains_tombstones_apply encryptor call h.named
  refine ⟨hnamed, ?_⟩
  intro hholds
  rcases ownerAt_apply hholds with hold | ⟨env, payload, rfl, rfl, -⟩ | ⟨_, _, -, hfree, -⟩
  · exact h.absent hold
  · have hdrawn := hfresh.2 o
    rw [h.named] at hdrawn
    cases hdrawn
  · rw [hnamed] at hfree
    cases hfree

theorem Buried.reaches {o i : String} (h : Buried s o i) (hrun : Reaches (Step encryptor) s s') :
    Buried s' o i := by
  refine hrun.kept (I := fun s => Buried s o i) ?_ h
  rintro s₁ s₂ ⟨call, hfresh, rfl⟩ h₁
  exact h₁.apply encryptor hfresh

/-- The call answers `forgotten` for the memory, or deletes the owner who holds it. -/
def CloudCall.Removes (s : EncryptedCloudMemoryService R) (o i : String) : CloudCall R → Prop
  | .forget env o' i' => o' = o ∧ i' = i ∧ (Cloud.forget env o i s).1 = true
  | .deleteOwner env o' =>
    o' = o ∧ holds s o i = true ∧ ∃ n, (Cloud.deleteOwner env o s).1 = .ok n
  | _ => False

/-- A forget of a record that is there and was not forgotten removes it. -/
theorem removes_forget {o i : String} (hnew : (o, i) ∉ s.forgetKeys) (hholds : holds s o i = true) :
    (CloudCall.forget (R := R) env o i).Removes s o i := by
  refine ⟨rfl, rfl, ?_⟩
  rcases forget_cases env o i s with ⟨hold, -⟩ | ⟨-, hnone, -⟩ | ⟨-, -, hbury⟩
  · exact absurd hold hnew
  · rw [hholds] at hnone
    cases hnone
  · rw [hbury]

theorem buried_of_removes (encryptor : TenantEnvelopeEncryptor) {o i : String} {call : CloudCall R}
    (h : call.Removes s o i) :
    Buried (call.apply encryptor s) o i := by
  cases call with
  | forget env o' i' =>
    obtain ⟨rfl, rfl, hforgotten⟩ := h
    show Buried (forget env o' i' s).2 o' i'
    rcases forget_cases env o' i' s with ⟨-, hsame⟩ | ⟨-, -, hkeys⟩ | ⟨-, -, hbury⟩
    · rw [hsame] at hforgotten
      cases hforgotten
    · rw [hkeys] at hforgotten
      cases hforgotten
    · rw [hbury]
      constructor
      · exact (Dict.contains_iff _ _).mpr ⟨_, Dict.get?_set_self _ _ _⟩
      · unfold ownerAt
        rw [get?_bury, if_pos rfl]
        simp
  | deleteOwner env o' =>
    obtain ⟨rfl, hholds, n, hdone⟩ := h
    show Buried (deleteOwner env o' s).2 o' i
    rcases deleteOwner_cases env o' s with ⟨e, -, hsame⟩ | ⟨tenant, -, hdeleted⟩
    · rw [hsame] at hdone
      cases hdone
    · have hmem : i ∈ idsOf s o' := mem_idsOf.mpr (holds_iff.mp hholds)
      rw [hdeleted]
      constructor
      · rcases get?_tombstones_buryAll env o' (idsOf s o') 0 s (o', i) with
          ⟨u, hu, -⟩ | ⟨-, hnot⟩
        · exact (Dict.contains_iff _ _).mpr ⟨_, hu⟩
        · exact absurd ⟨rfl, hmem⟩ hnot
      · show ((buryAll env o' (idsOf s o') 0 s).records.get? i).map StoredRecord.ownerId ≠ some o'
        rw [get?_buryAll, if_pos hmem]
        simp
  | _ => exact h.elim

/-- In every run, a memory that `forget` or `delete_owner` removed stays in the ledger and never
comes back, whatever is restored. -/
theorem tombstones_permanent {o i : String} {call : CloudCall R} (hremoves : call.Removes s o i)
    (hrun : Reaches (Step encryptor) (call.apply encryptor s) s') :
    s'.tombstones.contains (o, i) = true ∧ holds s' o i = false := by
  have hburied := (buried_of_removes encryptor hremoves).reaches hrun
  exact ⟨hburied.named, holds_eq_false_iff.mpr hburied.absent⟩

/-! ### A desk -/

/-- A tag that sums key, nonce and associated data. -/
def tagOf (key nonce aad : Bytes) : Bytes := List.replicate 16 (key ++ nonce ++ aad).sum

/-- A cipher with the interface of AES-GCM: the data and a tag. -/
def checksumAes : AESGCM where
  encrypt key nonce data aad := data ++ tagOf key nonce aad
  decrypt key nonce data aad :=
    if data.drop (data.length - 16) = tagOf key nonce aad then some (data.take (data.length - 16))
    else none

/-- `LocalDevelopmentKMS(b"k" * 32)`. -/
def deskKms : LocalDevelopmentKMS where
  masterKey := List.replicate 32 107
  isAesKey := by decide

def deskEncryptor : TenantEnvelopeEncryptor := ⟨checksumAes, deskKms.service checksumAes⟩

/-- An hour at the desk: one id, and a KMS that answers. -/
def deskEnv (id : Nat) : Environment where
  uuid4 := ⟨Fin.ofNat _ id⟩
  now _ := day2026 0
  urandom t n := List.replicate n (UInt8.ofNat t)
  kmsFails _ := false
  now_utc _ := rfl
  length_urandom _ _ := List.length_replicate

def deskOwner : String :=
  "cloud:00000000-0000-0000-0000-000000000001:00000000-0000-0000-0000-000000000002"

/-- A fact that the owner writes. -/
def deskNote (idempotencyKey content : String) : WritePayload ℚ where
  ownerId := deskOwner
  idempotencyKey := idempotencyKey
  type := .str "fact"
  content := content
  provenance := .obj []

/-- The id of the first memory. -/
def deskId : String := drawnId (deskEnv 7)

/-- The service after one write. -/
def deskWritten : EncryptedCloudMemoryService ℚ :=
  (CloudCall.write (deskEnv 7) (deskNote "k" "A")).apply deskEncryptor (newService 1)

/-- The service after the memory was forgotten. -/
def deskForgotten : EncryptedCloudMemoryService ℚ :=
  (CloudCall.forget (deskEnv 0) deskOwner deskId).apply deskEncryptor deskWritten

theorem reaches_deskWritten :
    Reaches (Step deskEncryptor) (newService 1) deskWritten := by
  refine .single ⟨.write (deskEnv 7) (deskNote "k" "A"), ?_, rfl⟩
  exact ⟨rfl, fun _ => rfl⟩

theorem reachable_deskForgotten : Reachable deskEncryptor deskForgotten :=
  ⟨1, .tail reaches_deskWritten ⟨.forget (deskEnv 0) deskOwner deskId, trivial, rfl⟩⟩

/-- The snapshot of the first memory does not bring it back. -/
theorem forgotten_stays_forgotten :
    (CloudCall.forget (deskEnv 0) deskOwner deskId).Removes deskWritten deskOwner deskId ∧
      holds ((CloudCall.restore (backup deskWritten) []).apply deskEncryptor deskForgotten)
        deskOwner deskId = false := by
  have hremoves :
      (CloudCall.forget (deskEnv 0) deskOwner deskId).Removes deskWritten deskOwner deskId :=
    ⟨rfl, rfl, by decide +kernel⟩
  exact ⟨hremoves, (tombstones_permanent hremoves
    (.single ⟨.restore (backup deskWritten) [], trivial, rfl⟩)).2⟩

end OpenMemory.Cloud
