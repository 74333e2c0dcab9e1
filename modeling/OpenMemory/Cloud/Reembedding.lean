import OpenMemory.Cloud.Failures
import OpenMemory.Cloud.Recovery

/-!
# Re-embedding jobs of the Cloud worker (`cloud/worker.py`)

`reembed_memory` reads a record, awaits `embed`, and stores the vector if owner and version still
match. At the await any calls of the service may run, and other jobs. So a job is two pieces
(`reembedStart`, `reembedFinish`), and a system is the service with the jobs that await.

What carries the argument is that, as long as a live record has the owner and the version a job has
read, it has the content the job has read (`Inv.jobs`). `update` increments the version, but `restore`
can move it back, so that a later update or restore gives one version number a second content
(`ReusesVersion`). In a run without such a call every vector is current
(`embeddings_current`); with one, a stale vector is stored (`stale_embedding_stored`).
-/

namespace OpenMemory.Cloud

open Lib

variable {R : Type} [Python R]

/-! ## Jobs -/

inductive JobState
  | pending
  | ready
  | stale
  | failed
  | deadLetter
  deriving DecidableEq

/-- What `reembed_memory` reads of a job: tenant and principal of its envelope, and the reference. -/
structure LocalJob where
  tenantId : UUID
  principalId : UUID
  payloadRef : String

/-- `owner_id`. -/
def LocalJob.ownerId (job : LocalJob) : String :=
  "cloud:" ++ job.tenantId.str ++ ":" ++ job.principalId.str

/-- `int(text)` of digits; an underscore may stand between two of them. -/
def readDigits : List Char → Option Nat
  | [] => none
  | cs =>
    let groups := cs.splitOnP (· = '_')
    if groups.all fun g => !g.isEmpty && g.all Char.isDigit then
      some (groups.flatten.foldl (fun n c => 10 * n + (c.toNat - 48)) 0)
    else none

/-- `int(text)` of a text over the alphabet of references, with a sign. -/
def readInt (text : String) : Option Int :=
  match text.toList with
  | '-' :: cs => (readDigits cs).map fun n => -(n : Int)
  | cs => (readDigits cs).map fun n => (n : Int)

/-- `payload_ref.rsplit(":", 1)` and the checks on its two parts. -/
def parseRef (payloadRef : String) : Option (String × Int) :=
  let reversed := payloadRef.toList.reverse
  let memoryId := ((reversed.dropWhile (· ≠ ':')).drop 1).reverse
  if ':' ∈ reversed ∧ memoryId ≠ [] then
    match readInt (String.ofList (reversed.takeWhile (· ≠ ':')).reverse) with
    | some version => if version < 1 then none else some (String.ofList memoryId, version)
    | none => none
  else none

/-- A job that awaits `embed(content)`. -/
structure Awaiting where
  ownerId : String
  memoryId : String
  sourceVersion : Int
  content : String
  deriving DecidableEq

/-- The first piece of `reembed_memory`: it ends as stale, or awaits. -/
def reembedStart (encryptor : TenantEnvelopeEncryptor) (env : Environment) (job : LocalJob)
    (s : EncryptedCloudMemoryService R) : Except CloudError (Option Awaiting) :=
  match parseRef job.payloadRef with
  | none => .ok none
  | some (memoryId, sourceVersion) =>
    match get encryptor env job.ownerId memoryId s with
    | .error e => .error e
    | .ok none => .ok none
    | .ok (some m) =>
      if ((m.fields.get "version").map (·.eqInt sourceVersion)).getD false then
        .ok (some ⟨job.ownerId, memoryId, sourceVersion, m.content⟩)
      else .ok none

/-- The second piece, with the values that `embed` returned. -/
def reembedFinish (job : Awaiting) (values : List R) (s : EncryptedCloudMemoryService R) :
    Except CloudError JobState × EncryptedCloudMemoryService R :=
  match storeEmbedding job.ownerId job.memoryId job.sourceVersion values s with
  | (.error e, s') => (.error e, s')
  | (.ok stored, s') => (.ok (if stored then .ready else .stale), s')

/-! ## The system -/

/-- A service and the jobs that await. -/
structure WorkerSystem (R : Type) where
  service : EncryptedCloudMemoryService R
  awaiting : List Awaiting := []

/-- A call of the service that is not a job's. -/
def CloudCall.IsClient : CloudCall R → Prop
  | .storeEmbedding _ _ _ _ => False
  | .rewrap _ _ => False
  | _ => True

/-- One move: a call that is allowed, the start of a job, its end with values that `embed` may
return, or its failure there. Ids that `uuid4` draws are not those of jobs either. -/
inductive WorkerSystem.Moves (encryptor : TenantEnvelopeEncryptor) (embed : String → List R → Prop)
    (allowed : WorkerSystem R → CloudCall R → Prop) : WorkerSystem R → WorkerSystem R → Prop
  | call {σ : WorkerSystem R} (call : CloudCall R) (client : call.IsClient)
      (fresh : call.Fresh σ.service)
      (unheld : ∀ env payload, call = .write env payload →
        ∀ job ∈ σ.awaiting, job.memoryId ≠ drawnId env)
      (isAllowed : allowed σ call) :
      Moves encryptor embed allowed σ { σ with service := call.apply encryptor σ.service }
  | start {σ : WorkerSystem R} (env : Environment) (job : LocalJob) {waiting : Awaiting}
      (reads : reembedStart encryptor env job σ.service = .ok (some waiting)) :
      Moves encryptor embed allowed σ { σ with awaiting := waiting :: σ.awaiting }
  | finish {σ : WorkerSystem R} {job : Awaiting} {values : List R} (awaits : job ∈ σ.awaiting)
      (embedded : embed job.content values) :
      Moves encryptor embed allowed σ
        ⟨(reembedFinish job values σ.service).2, σ.awaiting.erase job⟩
  | fail {σ : WorkerSystem R} {job : Awaiting} (awaits : job ∈ σ.awaiting) :
      Moves encryptor embed allowed σ { σ with awaiting := σ.awaiting.erase job }

/-! ## Contents and versions -/

/-- What the content of a record decrypts to. -/
def ContentIs (encryptor : TenantEnvelopeEncryptor) (r : StoredRecord R) (content : String) :
    Prop :=
  ∃ tenant recordId, tenantOf R r.ownerId = .ok tenant ∧ recordIdOf R r.id = .ok recordId ∧
    openField encryptor tenant recordId "content" r.contentCiphertext = some content

/-- The record has a version that equals an integer. -/
def VersionIs (r : StoredRecord R) (version : Int) : Prop :=
  ∃ value, r.fields.get "version" = some value ∧ value.eqInt version = true

/-- Every vector belongs to a live record of its owner and was computed from its content. -/
def Current (encryptor : TenantEnvelopeEncryptor) (embed : String → List R → Prop)
    (s : EncryptedCloudMemoryService R) : Prop :=
  ∀ i v, s.embeddings.get? i = some v → ∃ r, s.records.get? i = some r ∧ r.ownerId = v.ownerId ∧
    ∃ content, ContentIs encryptor r content ∧ embed content v.values

/-- What the content is after an update. -/
def UpdatesTo (encryptor : TenantEnvelopeEncryptor) (payload : UpdatePayload R) (r : StoredRecord R)
    (content : String) : Prop :=
  match payload.patch.content with
  | some new => new = content
  | none => ContentIs encryptor r content

/-- The call gives a version that a job or a vector stands for another content: an update whose
next version is the one a job has read, or a restore of a record that has the version of a job or of
a vector. -/
def ReusesVersion (encryptor : TenantEnvelopeEncryptor) (σ : WorkerSystem R) : CloudCall R → Prop
  | .update _ payload => ∃ r ids value next job,
    σ.service.records.get? payload.id = some r ∧ checkUpdate payload r = .ok ids ∧
    r.fields.get "version" = some value ∧ value.succ = .ok next ∧
    job ∈ σ.awaiting ∧ job.memoryId = payload.id ∧ job.ownerId = r.ownerId ∧
    next.eqInt job.sourceVersion = true ∧ ¬ UpdatesTo encryptor payload r job.content
  | .restore snapshot tombstones => ∃ records restored r,
    snapshotRecords snapshot = .ok records ∧ checkRecords records = .ok restored ∧ r ∈ restored ∧
    (∀ entry ∈ tombstoneEntries σ.service ++ tombstones, ∃ e, checkEntry entry = .ok e) ∧
    (Dict.setAll (acceptedEntries (tombstoneEntries σ.service ++ tombstones))
      σ.service.tombstones).contains (r.ownerId, r.id) = false ∧
    ((∃ job ∈ σ.awaiting, job.memoryId = r.id ∧ job.ownerId = r.ownerId ∧
        VersionIs r job.sourceVersion ∧ ¬ ContentIs encryptor r job.content) ∨
      ∃ v r₀ content, σ.service.embeddings.get? r.id = some v ∧
        σ.service.records.get? r.id = some r₀ ∧ v.ownerId = r.ownerId ∧
        VersionIs r v.sourceVersion ∧ ContentIs encryptor r₀ content ∧
        ¬ ContentIs encryptor r content)
  | _ => False

/-! ## The invariant -/

variable {encryptor : TenantEnvelopeEncryptor} {embed : String → List R → Prop} {env : Environment}
  {s s' : EncryptedCloudMemoryService R} {σ σ' : WorkerSystem R}

/-- As long as a live record has the owner and the version of a job, it has its content. -/
def JobsFit (encryptor : TenantEnvelopeEncryptor) (s : EncryptedCloudMemoryService R)
    (awaiting : List Awaiting) : Prop :=
  ∀ job ∈ awaiting, ∀ r, s.records.get? job.memoryId = some r → r.ownerId = job.ownerId →
    VersionIs r job.sourceVersion → ContentIs encryptor r job.content

structure WorkerSystem.Inv (encryptor : TenantEnvelopeEncryptor) (embed : String → List R → Prop)
    (σ : WorkerSystem R) : Prop where
  keyed : Keyed σ.service
  vectors : Current encryptor embed σ.service
  jobs : JobsFit encryptor σ.service σ.awaiting

/-- Records go, and with each its vector. -/
def Shrinks (s s' : EncryptedCloudMemoryService R) : Prop :=
  ∀ i, (s'.records.get? i = s.records.get? i ∧ s'.embeddings.get? i = s.embeddings.get? i) ∨
    (s'.records.get? i = none ∧ s'.embeddings.get? i = none)

/-- What is current stays so when records and vectors are only taken away. -/
theorem Current.shrinks (h : Current encryptor embed s) (hs : Shrinks s s') :
    Current encryptor embed s' := by
  intro i v hv
  rcases hs i with ⟨hrecord, hvector⟩ | ⟨-, hnone⟩
  · rw [hvector] at hv
    rw [hrecord]
    exact h i v hv
  · rw [hnone] at hv
    cases hv

/-- Waiting jobs keep fitting too. -/
theorem JobsFit.shrinks {awaiting : List Awaiting} (h : JobsFit encryptor s awaiting)
    (hs : Shrinks s s') : JobsFit encryptor s' awaiting := by
  intro job hjob r hr
  rcases hs job.memoryId with ⟨hrecord, -⟩ | ⟨hnone, -⟩
  · rw [hrecord] at hr
    exact h job hjob r hr
  · rw [hnone] at hr
    cases hr

omit [Python R] in
theorem Shrinks.of_same (hrecords : s'.records = s.records)
    (hembeddings : s'.embeddings = s.embeddings) : Shrinks s s' := by
  intro i
  rw [hrecords, hembeddings]
  exact .inl ⟨rfl, rfl⟩

omit [Python R] in
theorem shrinks_bury (s : EncryptedCloudMemoryService R) (o i at_ : String) :
    Shrinks s (bury s o i at_) := by
  intro j
  have hvector : (bury s o i at_).embeddings.get? j = if j = i then none else s.embeddings.get? j :=
    Dict.get?_pop _ _ _
  rw [get?_bury, hvector]
  by_cases hj : j = i
  · rw [if_pos hj, if_pos hj]
    exact .inr ⟨rfl, rfl⟩
  · rw [if_neg hj, if_neg hj]
    exact .inl ⟨rfl, rfl⟩

omit [Python R] in
theorem Shrinks.trans {s'' : EncryptedCloudMemoryService R} (h : Shrinks s s')
    (h' : Shrinks s' s'') : Shrinks s s'' := by
  intro i
  rcases h' i with ⟨hr', hv'⟩ | hnone
  · rw [hr', hv']
    exact h i
  · exact .inr hnone

omit [Python R] in
/-- Burying records only takes away. -/
theorem shrinks_buryAll (o : String) (ids : List String) (t : Nat)
    (s : EncryptedCloudMemoryService R) : Shrinks s (buryAll env o ids t s) := by
  induction ids generalizing t s with
  | nil => exact .of_same rfl rfl
  | cons i rest ih => exact (shrinks_bury s o i _).trans (ih _ _)

omit [Python R] in
/-- So does `forget`. -/
theorem shrinks_forget (env : Environment) (o i : String) (s : EncryptedCloudMemoryService R) :
    Shrinks s (forget env o i s).2 := by
  rcases forget_cases env o i s with ⟨-, hsame⟩ | ⟨-, -, hkeys⟩ | ⟨-, -, hbury⟩
  · rw [hsame]
    exact .of_same rfl rfl
  · rw [hkeys]
    exact .of_same rfl rfl
  · rw [hbury]
    exact shrinks_bury _ _ _ _

/-- So does `delete_owner`. -/
theorem shrinks_deleteOwner (env : Environment) (o : String) (s : EncryptedCloudMemoryService R) :
    Shrinks s (deleteOwner env o s).2 := by
  rcases deleteOwner_cases env o s with ⟨e, -, hsame⟩ | ⟨tenant, -, hdeleted⟩
  · rw [hsame]
    exact .of_same rfl rfl
  · rw [hdeleted]
    exact shrinks_buryAll o (idsOf s o) 0 s

/-! ## Writes and updates -/

/-- A record with one owner, id and envelope has one content. -/
theorem ContentIs.of_same {r r' : StoredRecord R} {content : String}
    (h : ContentIs encryptor r content) (howner : SameOwner r r')
    (henvelope : r'.contentCiphertext = r.contentCiphertext) : ContentIs encryptor r' content := by
  obtain ⟨tenant, recordId, htenant, hid, hopen⟩ := h
  refine ⟨tenant, recordId, ?_, ?_, ?_⟩
  · rw [howner.2]
    exact htenant
  · rw [howner.1]
    exact hid
  · rw [henvelope]
    exact hopen

/-- A write keeps both halves of the invariant: its id is new to records and jobs. -/
theorem Current.write (h : Current encryptor embed s) {payload : WritePayload R}
    (hfresh : s.records.get? (drawnId env) = none) :
    Current encryptor embed (Cloud.write encryptor env payload s).2 := by
  rcases write_cases encryptor env payload s with hsame | ⟨tenant, r, t, -, hnew, hstored⟩
  · rw [hsame]
    exact h
  · rw [hstored]
    intro i v hv
    obtain ⟨r₀, hr₀, hrest⟩ := h i v hv
    have hne : i ≠ r.id := by
      rintro rfl
      rw [(newRecord_ok hnew).1, hfresh] at hr₀
      cases hr₀
    exact ⟨r₀, (Dict.get?_set_of_ne _ _ hne).trans hr₀, hrest⟩

theorem JobsFit.write {awaiting : List Awaiting} (h : JobsFit encryptor s awaiting)
    {payload : WritePayload R} (hunheld : ∀ job ∈ awaiting, job.memoryId ≠ drawnId env) :
    JobsFit encryptor (Cloud.write encryptor env payload s).2 awaiting := by
  rcases write_cases encryptor env payload s with hsame | ⟨tenant, r, t, -, hnew, hstored⟩
  · rw [hsame]
    exact h
  · rw [hstored]
    intro job hjob r' hr'
    have hne : job.memoryId ≠ r.id := by
      rw [(newRecord_ok hnew).1]
      exact hunheld job hjob
    refine h job hjob r' ?_
    exact (Dict.get?_set_of_ne _ _ hne).symm.trans hr'

/-- The patched record has the content that the update gives it. -/
theorem contentIs_patchContent (hlaw : encryptor.Lawful) {payload : UpdatePayload R}
    {r r₁ : StoredRecord R} {t t' : Nat} {content : String}
    (h : (patchContent encryptor env s payload r).run t = .ok (r₁, t'))
    (hcontent : UpdatesTo encryptor payload r content) : ContentIs encryptor r₁ content := by
  unfold patchContent at h
  obtain ⟨⟨tenant, recordId⟩, t₁, hchecked, h₁⟩ := Txn.bind_ok.mp h
  obtain ⟨hcheck, -⟩ := Txn.ofExcept_ok.mp hchecked
  obtain ⟨htenant, hid, -⟩ := checkUpdate_ok hcheck
  unfold UpdatesTo at hcontent
  dsimp only at h₁
  cases hpatch : payload.patch.content with
  | none =>
    rw [hpatch] at h₁ hcontent
    obtain ⟨rfl, -⟩ := Txn.pure_ok.mp h₁
    exact hcontent
  | some new =>
    rw [hpatch] at h₁ hcontent
    obtain ⟨value, t₂, hencrypt, h₂⟩ := Txn.bind_ok.mp h₁
    obtain ⟨rfl, -⟩ := Txn.pure_ok.mp h₂
    obtain rfl : new = content := hcontent
    exact ⟨tenant, recordId, htenant, hid, open_encrypt hlaw hencrypt⟩

/-- An update leaves the state as it is, or has stored a record with the next version and the new
content and dropped its vector. -/
theorem update_amends (hlaw : encryptor.Lawful) (env : Environment) (payload : UpdatePayload R)
    (s : EncryptedCloudMemoryService R) :
    (update encryptor env payload s).2 = s ∨
      ∃ r r' ids value next, s.records.get? payload.id = some r ∧
        checkUpdate payload r = .ok ids ∧ r.fields.get "version" = some value ∧
        value.succ = .ok next ∧ SameOwner r r' ∧ r'.fields.get "version" = some next ∧
        (∀ content, UpdatesTo encryptor payload r content → ContentIs encryptor r' content) ∧
        (update encryptor env payload s).2 = amended s payload.id r' := by
  -- an absent record is not updated
  cases hr : s.records.get? payload.id with
  | none =>
    refine .inl ?_
    unfold update
    rw [hr]
  | some r =>
    -- nor is one whose content cannot be encrypted
    cases hpatch : (patchContent encryptor env s payload r).run 0 with
    | error e =>
      refine .inl ?_
      unfold update
      rw [hr]
      dsimp only
      rw [hpatch]
    -- the fields are set, the version goes up, and the update succeeds
    | ok p =>
      obtain ⟨r₁, t⟩ := p
      obtain ⟨tenant, recordId, hamends, -, hfields, -, -⟩ := patchContent_needs hlaw hr hpatch
      obtain ⟨-, -, value, hvalue, heq⟩ := checkUpdate_ok hamends.2.1
      have hvalue₁ : r₁.fields.get "version" = some value := by rw [hfields, hvalue]
      obtain ⟨r₂, hbump, hsame, hcontent₂, -, hupdate⟩ :=
        update_of_patchContent hr hpatch hvalue₁ heq
      obtain ⟨value', next, hvalue', hnext, rfl⟩ := bumpVersion_ok hbump
      rw [get_version_patchFields, hvalue₁] at hvalue'
      obtain rfl := Option.some.inj hvalue'
      refine .inr ⟨r, _, (tenant, recordId), value, next, rfl, hamends.2.1, hvalue, hnext, hsame, ?_,
        ?_, by rw [hupdate]⟩
      · unfold touch StoredRecord.setField
        dsimp only
        rw [get_set, if_neg (by decide), get_set, if_pos rfl]
      -- owner and id stay, so the content opens in the new record
      · intro content hupdates
        refine (contentIs_patchContent hlaw hpatch hupdates).of_same ?_ hcontent₂
        have hsame₁ := sameOwner_patchContent hpatch
        exact ⟨hsame.1.trans hsame₁.1.symm, hsame.2.trans hsame₁.2.symm⟩

/-- An update keeps the invariant unless it reuses the version of a job. -/
theorem WorkerSystem.Inv.update (h : σ.Inv encryptor embed) (hlaw : encryptor.Lawful)
    {payload : UpdatePayload R}
    (hcareful : ¬ ReusesVersion encryptor σ (.update env payload)) :
    Current encryptor embed (Cloud.update encryptor env payload σ.service).2 ∧
      JobsFit encryptor (Cloud.update encryptor env payload σ.service).2 σ.awaiting := by
  rcases update_amends hlaw env payload σ.service with
    hsame | ⟨r, r', ids, value, next, hr, hcheck, hvalue, hnext, howner, hversion, hcontent, hok⟩
  · rw [hsame]
    exact ⟨h.vectors, h.jobs⟩
  · have hid : r'.id = payload.id := howner.1.trans (h.keyed _ r hr)
    rw [hok]
    constructor
    · intro i v hv
      have hpop : (σ.service.embeddings.pop r'.id).get? i = some v := hv
      rw [Dict.get?_pop] at hpop
      by_cases hi : i = r'.id
      · rw [if_pos hi] at hpop
        cases hpop
      · rw [if_neg hi] at hpop
        obtain ⟨r₀, hr₀, hrest⟩ := h.vectors i v hpop
        exact ⟨r₀, (Dict.get?_set_of_ne _ _ (hid ▸ hi)).trans hr₀, hrest⟩
    · intro job hjob r₀ hr₀ hjobOwner hjobVersion
      have hset : (σ.service.records.set payload.id r').get? job.memoryId = some r₀ := hr₀
      rw [Dict.get?_set] at hset
      by_cases hi : job.memoryId = payload.id
      · rw [if_pos hi] at hset
        obtain rfl := Option.some.inj hset
        -- the job would be of the version that the update has just given to its content
        by_contra hstale
        refine hcareful ⟨r, ids, value, next, job, hr, hcheck, hvalue, hnext, hjob, hi,
          hjobOwner.symm.trans howner.2, ?_, fun hupdates => hstale (hcontent _ hupdates)⟩
        obtain ⟨value', hvalue', heq⟩ := hjobVersion
        rw [hversion] at hvalue'
        obtain rfl := Option.some.inj hvalue'
        exact heq
      · rw [if_neg hi] at hset
        exact h.jobs job hjob r₀ hset hjobOwner hjobVersion

/-- So does a restore. -/
theorem WorkerSystem.Inv.restore (h : σ.Inv encryptor embed) {snapshot : PyDict R}
    {tombstones : List (PyObj R)}
    (hcareful : ¬ ReusesVersion encryptor σ (.restore snapshot tombstones)) :
    Current encryptor embed (Cloud.restore snapshot tombstones σ.service).2 ∧
      JobsFit encryptor (Cloud.restore snapshot tombstones σ.service).2 σ.awaiting := by
  rcases restore_cases snapshot tombstones σ.service with
    -- refused before anything is installed, or with the ledger only
    ⟨e, -, hsame⟩ | ⟨e, hledger⟩ | ⟨records, restored, hrecords, hchecked, hok⟩
  · rw [hsame]
    exact ⟨h.vectors, h.jobs⟩
  · rw [hledger]
    exact ⟨h.vectors.shrinks (.of_same rfl rfl), h.jobs.shrinks (.of_same rfl rfl)⟩
  -- installed: the entries were checked, and the records are those of the snapshot
  · have hentries : ∀ entry ∈ tombstoneEntries σ.service ++ tombstones,
        ∃ e, checkEntry entry = .ok e := by
      rcases restore_of_records hrecords tombstones σ.service with ⟨-, hall, -⟩ | ⟨⟨e, he⟩, -⟩
      · exact hall
      · rw [hok] at he
        cases he
    rw [hok, applyLedger_snd]
    have hinstalled : ∀ {i r}, (install σ.service (Dict.setAll (acceptedEntries
        (tombstoneEntries σ.service ++ tombstones)) σ.service.tombstones)
        (byId restored)).records.get? i = some r → r ∈ restored ∧ r.id = i ∧
        (Dict.setAll (acceptedEntries (tombstoneEntries σ.service ++ tombstones))
          σ.service.tombstones).contains (r.ownerId, r.id) = false := by
      intro i r hr
      obtain ⟨hget, hfree⟩ := get?_install.mp hr
      obtain ⟨hmem, rfl⟩ := get?_byId hget
      exact ⟨hmem, rfl, hfree⟩
    constructor
    -- a vector is kept for a record of its owner and its version
    · intro i v hv
      obtain ⟨hold, hkept⟩ := Dict.get?_filter_eq_some.mp hv
      obtain ⟨r₀, hr₀, howner₀, content, hcontent, hembed⟩ := h.vectors i v hold
      split at hkept
      · cases hkept
      · rename_i r hr
        obtain ⟨hmem, rfl, hfree⟩ := hinstalled hr
        obtain ⟨howner, hversion⟩ := Bool.and_eq_true_iff.mp hkept
        have hversionIs : VersionIs r v.sourceVersion := by
          cases hvalue : r.fields.get "version" with
          | none =>
            rw [hvalue] at hversion
            cases hversion
          | some value =>
            rw [hvalue] at hversion
            exact ⟨value, hvalue, hversion⟩
        have hsame : v.ownerId = r.ownerId := of_decide_eq_true howner
        -- which has the content that was embedded, or the restore reuses a version
        refine ⟨r, hr, hsame.symm, content, ?_, hembed⟩
        by_contra hstale
        exact hcareful ⟨records, restored, r, hrecords, hchecked, hmem, hentries, hfree,
          .inr ⟨v, r₀, content, hold, hr₀, hsame, hversionIs, hcontent, hstale⟩⟩
    -- the same for the jobs that wait
    · intro job hjob r hr howner hversion
      obtain ⟨hmem, hid, hfree⟩ := hinstalled hr
      by_contra hstale
      exact hcareful ⟨records, restored, r, hrecords, hchecked, hmem, hentries, hfree,
        .inl ⟨job, hjob, hid.symm, howner.symm, hversion, hstale⟩⟩

/-- A client's call keeps the invariant unless it reuses a version. -/
theorem WorkerSystem.Inv.call (h : σ.Inv encryptor embed) (hlaw : encryptor.Lawful)
    {call : CloudCall R} (hclient : call.IsClient) (hfresh : call.Fresh σ.service)
    (hunheld : ∀ env payload, call = .write env payload →
      ∀ job ∈ σ.awaiting, job.memoryId ≠ drawnId env)
    (hcareful : ¬ ReusesVersion encryptor σ call) :
    WorkerSystem.Inv encryptor embed { σ with service := call.apply encryptor σ.service } := by
  have hkeyed : Keyed (call.apply encryptor σ.service) := Keyed.apply h.keyed call
  have hshrinks : Shrinks σ.service (call.apply encryptor σ.service) →
      WorkerSystem.Inv encryptor embed { σ with service := call.apply encryptor σ.service } :=
    fun hs => ⟨hkeyed, h.vectors.shrinks hs, h.jobs.shrinks hs⟩
  cases call with
  | write env payload =>
    exact ⟨hkeyed, h.vectors.write hfresh.1, h.jobs.write (hunheld env payload rfl)⟩
  | update env payload =>
    obtain ⟨hvectors, hjobs⟩ := h.update hlaw hcareful
    exact ⟨hkeyed, hvectors, hjobs⟩
  | storeEmbedding o i version values => exact hclient.elim
  -- these calls only take records and vectors away
  | forget env o i => exact hshrinks (shrinks_forget env o i σ.service)
  | deleteOwner env o => exact hshrinks (shrinks_deleteOwner env o σ.service)
  | backup => exact h
  | restore snapshot tombstones =>
    obtain ⟨hvectors, hjobs⟩ := h.restore hcareful
    exact ⟨hkeyed, hvectors, hjobs⟩
  | rotate version =>
    refine hshrinks ?_
    show Shrinks σ.service (rotate version σ.service).2
    unfold rotate
    split <;> exact .of_same rfl rfl
  | rewrap env version => exact hclient.elim

/-! ## Jobs -/

/-- A job that awaits has read the record it names. -/
theorem reembedStart_ok {job : LocalJob} {waiting : Awaiting}
    (h : reembedStart encryptor env job s = .ok (some waiting)) :
    ∃ r, s.records.get? waiting.memoryId = some r ∧ ContentIs encryptor r waiting.content := by
  unfold reembedStart at h
  -- no job without a reference, no owner, no record, or one of another owner
  cases href : parseRef job.payloadRef with
  | none =>
    rw [href] at h
    cases h
  | some p =>
    obtain ⟨memoryId, version⟩ := p
    rw [href] at h
    dsimp only at h
    unfold get at h
    cases htenant : tenantOf R job.ownerId with
    | error e =>
      rw [htenant] at h
      cases h
    | ok tenant =>
      rw [htenant] at h
      dsimp only at h
      cases hr : s.records.get? memoryId with
      | none =>
        rw [hr] at h
        cases h
      | some r =>
        rw [hr] at h
        dsimp only at h
        by_cases howner : r.ownerId ≠ job.ownerId
        · rw [if_pos howner] at h
          cases h
        · rw [if_neg howner] at h
          cases hread : readAt encryptor env r 0 with
          | error e =>
            rw [hread] at h
            cases h
          -- the content that was read is the record's
          | ok m =>
            rw [hread] at h
            change (if ((m.fields.get "version").map (·.eqInt version)).getD false then
              Except.ok (some (Awaiting.mk job.ownerId memoryId version m.content))
              else Except.ok none) = _ at h
            split at h
            · cases h
              obtain ⟨-, -, hreads⟩ := readAt_ok_iff.mp hread
              obtain ⟨tenant', recordId, text, htenant', hid, hcontent, -⟩ := hreads.parts
              exact ⟨r, hr, tenant', recordId, htenant', hid, hcontent⟩
            · cases h

/-- A job that starts has read the content of the version that it will store for. -/
theorem WorkerSystem.Inv.start (h : σ.Inv encryptor embed) {job : LocalJob} {waiting : Awaiting}
    (hstart : reembedStart encryptor env job σ.service = .ok (some waiting)) :
    WorkerSystem.Inv encryptor embed { σ with awaiting := waiting :: σ.awaiting } := by
  refine ⟨h.keyed, h.vectors, ?_⟩
  intro job' hjob' r hr howner hversion
  rcases List.mem_cons.mp hjob' with rfl | hold
  · obtain ⟨r₀, hr₀, hcontent⟩ := reembedStart_ok hstart
    obtain rfl : r₀ = r := Option.some.inj (hr₀.symm.trans hr)
    exact hcontent
  · exact h.jobs job' hold r hr howner hversion

theorem JobsFit.erase {awaiting : List Awaiting} (h : JobsFit encryptor s awaiting)
    (job : Awaiting) : JobsFit encryptor s (awaiting.erase job) :=
  fun job' hjob' => h job' (List.mem_of_mem_erase hjob')

/-- A record that passes the check has the owner and the version of the job. -/
theorem of_isCurrent {o : String} {version : Int} {r : StoredRecord R}
    (h : isCurrent o version r = true) : r.ownerId = o ∧ VersionIs r version := by
  unfold isCurrent at h
  obtain ⟨h₁, hversion⟩ := Bool.and_eq_true_iff.mp h
  obtain ⟨howner, -⟩ := Bool.and_eq_true_iff.mp h₁
  refine ⟨of_decide_eq_true howner, ?_⟩
  cases hvalue : r.fields.get "version" with
  | none =>
    rw [hvalue] at hversion
    cases hversion
  | some value =>
    rw [hvalue] at hversion
    exact ⟨value, hvalue, hversion⟩

/-- A job that ends stores what was computed from the content of the record. -/
theorem WorkerSystem.Inv.finish (h : σ.Inv encryptor embed) {job : Awaiting} {values : List R}
    (hjob : job ∈ σ.awaiting) (hembed : embed job.content values) :
    WorkerSystem.Inv encryptor embed
      ⟨(reembedFinish job values σ.service).2, σ.awaiting.erase job⟩ := by
  have hstate : (reembedFinish job values σ.service).2 =
      (storeEmbedding job.ownerId job.memoryId job.sourceVersion values σ.service).2 := by
    unfold reembedFinish
    cases hstore : storeEmbedding job.ownerId job.memoryId job.sourceVersion values σ.service with
    | mk outcome state =>
      cases outcome <;> rfl
  -- a job that ends stores its vector, or changes nothing
  rw [hstate]
  rcases storeEmbedding_cases job.ownerId job.memoryId job.sourceVersion values σ.service with
    hsame | ⟨r, hr, hcurrent, hset⟩
  · rw [hsame]
    exact ⟨h.keyed, h.vectors, h.jobs.erase job⟩
  · rw [hset]
    obtain ⟨howner, hversion⟩ := of_isCurrent hcurrent
    refine ⟨h.keyed, ?_, JobsFit.erase h.jobs job⟩
    intro i v hv
    have hget : (σ.service.embeddings.set job.memoryId ⟨job.ownerId, job.sourceVersion, values⟩).get?
        i = some v := hv
    rw [Dict.get?_set] at hget
    -- the vector of the job is that of the content which the record still has
    by_cases hi : i = job.memoryId
    · rw [if_pos hi] at hget
      obtain rfl := Option.some.inj hget
      subst hi
      exact ⟨r, hr, howner, job.content, h.jobs job hjob r hr howner hversion, hembed⟩
    · rw [if_neg hi] at hget
      exact h.vectors i v hget

/-! ## Runs -/

/-- In every run from a new service whose calls reuse no version, every vector belongs to a live
record of its owner and was computed from the content that the record has. -/
theorem embeddings_current (hlaw : encryptor.Lawful) {keyVersion : Int}
    (hrun : Reaches (WorkerSystem.Moves encryptor embed fun σ call => ¬ ReusesVersion encryptor σ call)
      ⟨newService keyVersion, []⟩ σ) : Current encryptor embed σ.service := by
  have hinv : σ.Inv encryptor embed := by
    refine hrun.kept (I := fun σ => σ.Inv encryptor embed) ?_ ⟨?_, ?_, ?_⟩
    · intro σ₁ σ₂ hmove h
      cases hmove with
      | call call client fresh unheld careful => exact h.call hlaw client fresh unheld careful
      | start env job reads => exact h.start reads
      | finish awaits embedded => exact h.finish awaits embedded
      | fail awaits => exact ⟨h.keyed, h.vectors, h.jobs.erase _⟩
    · exact (sound_newService keyVersion).keyed
    · intro i v hv
      cases hv
    · intro job hjob
      cases hjob
  exact hinv.vectors

/-! ### At the desk -/

/-- A record decrypts to one content. -/
theorem ContentIs.unique {r : StoredRecord R} {content content' : String}
    (h : ContentIs encryptor r content) (h' : ContentIs encryptor r content') :
    content = content' := by
  obtain ⟨tenant, recordId, htenant, hid, hopen⟩ := h
  obtain ⟨tenant', recordId', htenant', hid', hopen'⟩ := h'
  rw [htenant] at htenant'
  cases htenant'
  rw [hid] at hid'
  cases hid'
  exact Option.some.inj (hopen.symm.trans hopen')

/-- One coordinate that tells `B` from other texts. -/
def deskEmbed (content : String) (values : List ℚ) : Prop :=
  values = [if content = "B" then 1 else 0]

/-- A job for a version of the memory at the desk. -/
def deskJob (version : String) : LocalJob := ⟨⟨1⟩, ⟨2⟩, deskId ++ ":" ++ version⟩

/-- A new content for the first version. -/
def deskEdit (content : String) : CloudCall ℚ :=
  .update (deskEnv 0) ⟨deskOwner, deskId, 1, { content := some content }⟩

/-- Anything may be called. -/
def anyCall (_ : WorkerSystem ℚ) (_ : CloudCall ℚ) : Prop := True

theorem starts_deskWritten (allowed : WorkerSystem ℚ → CloudCall ℚ → Prop)
    (h : allowed ⟨newService 1, []⟩ (.write (deskEnv 7) (deskNote "k" "A"))) :
    Reaches (WorkerSystem.Moves deskEncryptor deskEmbed allowed) ⟨newService 1, []⟩
      ⟨deskWritten, []⟩ :=
  .single (.call (.write (deskEnv 7) (deskNote "k" "A")) trivial ⟨rfl, fun _ => rfl⟩
    (fun _ _ _ _ hjob => by cases hjob) h)

/-- A job at the desk stores the vector of the content it has read. -/
theorem deskEmbedding_current :
    (reembedFinish ⟨deskOwner, deskId, 1, "A"⟩ [0] deskWritten).1 = .ok .ready ∧
      Current deskEncryptor deskEmbed
        (reembedFinish ⟨deskOwner, deskId, 1, "A"⟩ [0] deskWritten).2 := by
  have hdesk : (reembedFinish ⟨deskOwner, deskId, 1, "A"⟩ [0] deskWritten).1 = .ok .ready ∧
      reembedStart deskEncryptor (deskEnv 0) (deskJob "1") deskWritten =
        .ok (some ⟨deskOwner, deskId, 1, "A"⟩) := by decide +kernel
  obtain ⟨hready, hreads⟩ := hdesk
  refine ⟨hready, ?_⟩
  have hwritten := starts_deskWritten (fun σ call => ¬ ReusesVersion deskEncryptor σ call) id
  have hrun := (hwritten.tail (.start (deskEnv 0) (deskJob "1") hreads)).tail
    (.finish List.mem_cons_self (show deskEmbed "A" [0] from rfl))
  exact embeddings_current deskEncryptor_lawful hrun

/-- The desk after the content became `B`. -/
def deskEdited : EncryptedCloudMemoryService ℚ := (deskEdit "B").apply deskEncryptor deskWritten

/-- The desk after the first backup was restored and the content became `C`. -/
def deskReedited : EncryptedCloudMemoryService ℚ :=
  (deskEdit "C").apply deskEncryptor
    ((CloudCall.restore (backup deskWritten) []).apply deskEncryptor deskEdited)

/-- The job that has read `B` ends. -/
def deskStale : EncryptedCloudMemoryService ℚ :=
  (reembedFinish ⟨deskOwner, deskId, 2, "B"⟩ [1] deskReedited).2

/-- A job reads `B` at version 2; a restore takes the record back to version 1, an update to version
2 makes it `C`, and the job stores the vector of `B`. -/
theorem stale_embedding_stored :
    Reaches (WorkerSystem.Moves deskEncryptor deskEmbed anyCall) ⟨newService 1, []⟩
        ⟨deskStale, []⟩ ∧
      (deskStale.embeddings.get? deskId).map CloudEmbedding.values = some [1] ∧
      ((deskStale.records.get? deskId).map fun r =>
        (readAt deskEncryptor (deskEnv 0) r 0).toOption.map CloudMemory.content) = some (some "C") ∧
      ¬ deskEmbed "C" [1] ∧ ¬ Current deskEncryptor deskEmbed deskStale := by
  -- the run, evaluated once
  have hdesk : (deskStale.embeddings.get? deskId).map CloudEmbedding.values = some [1] ∧
      ((deskStale.records.get? deskId).map fun r =>
        (readAt deskEncryptor (deskEnv 0) r 0).toOption.map CloudMemory.content) =
          some (some "C") ∧
      reembedStart deskEncryptor (deskEnv 0) (deskJob "2") deskEdited =
        .ok (some ⟨deskOwner, deskId, 2, "B"⟩) := by decide +kernel
  obtain ⟨hvector, hcontent, hreads⟩ := hdesk
  have hother : ¬ deskEmbed "C" [1] := by
    unfold deskEmbed
    decide
  refine ⟨?_, hvector, hcontent, hother, ?_⟩
  · have hrun := (starts_deskWritten anyCall trivial).tail
      (.call (deskEdit "B") trivial trivial (fun _ _ h => by cases h) trivial)
    have hrun₁ := hrun.tail (.start (deskEnv 0) (deskJob "2") hreads)
    have hrun₂ := hrun₁.tail (.call (.restore (backup deskWritten) []) trivial trivial
      (fun _ _ h => by cases h) trivial)
    have hrun₃ := hrun₂.tail (.call (deskEdit "C") trivial trivial (fun _ _ h => by cases h) trivial)
    exact hrun₃.tail (.finish List.mem_cons_self (show deskEmbed "B" [1] from rfl))
  · intro hcurrent
    obtain ⟨v, hv, hvalues⟩ := Option.map_eq_some_iff.mp hvector
    obtain ⟨r, hr, -, content, hcontentIs, hembed⟩ := hcurrent deskId v hv
    rw [hr, Option.map_some] at hcontent
    obtain ⟨m, hm, hmC⟩ := Option.map_eq_some_iff.mp (Option.some.inj hcontent)
    cases hread : readAt deskEncryptor (deskEnv 0) r 0 with
    | error e =>
      rw [hread] at hm
      cases hm
    | ok m' =>
      rw [hread] at hm
      obtain rfl : m' = m := Option.some.inj hm
      obtain ⟨-, -, hreadsAs⟩ := readAt_ok_iff.mp hread
      obtain ⟨tenant, recordId, text, htenant, hid, hopen, -⟩ := hreadsAs.parts
      have hsame := hcontentIs.unique ⟨tenant, recordId, htenant, hid, hopen⟩
      rw [hsame, hmC, hvalues] at hembed
      exact hother hembed

end OpenMemory.Cloud
