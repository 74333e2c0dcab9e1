import OpenMemory.Cloud.Reembedding
import OpenMemory.Lib.Text
import OpenMemory.Mcp.Schemas

/-!
# Search in the encrypted Cloud memory service (`EncryptedCloudMemoryService.search`)

The service has no index: it decrypts the records of the owner in the requested state, in the order
of the store, and keeps those that share a word with the query. The payload is the dump of a wire
request without its nulls, so a key that it lacks is a filter that was not given.

`search_ok` says what a search returns: of every memory, owner, state and a shared word, and nothing
about the other filters. `exists_found` says that this is all there is: whatever else a memory
holds, some reachable store returns it.

`list_records` is the same loop without a query.
-/

namespace OpenMemory.Cloud

open Lib
open Mcp (SearchRequest)
open MonadExcept (ofExcept)

variable {R : Type} [Python R]

/-! ## The search -/

/-- `set(re.findall(r"[\wÀ-ÿ]+", text.casefold()))`. -/
def wordSet (unicode : UnicodeDatabase) (text : String) : Finset String :=
  (findall (fun c => unicode.isWord c || decide ('À' ≤ c ∧ c ≤ 'ÿ'))
    (unicode.casefold text)).toFinset

/-- An element of the result. -/
structure CloudHit (R : Type) where
  memory : CloudMemory R
  score : R

section Search

variable (encryptor : TenantEnvelopeEncryptor) (env : Environment) (unicode : UnicodeDatabase)

/-- The loop of `search`. A record of another owner is not looked at further, one in another state
is not decrypted. -/
def searchRecords (owner state : String) (query : Finset String) :
    List (StoredRecord R) → Observing (List (CloudHit R))
  | [] => pure []
  | stored :: rest =>
    if stored.ownerId ≠ owner then searchRecords owner state query rest
    else if (stored.fields.get "state").isNone then throw (.keyError "state")
    else if stored.fields.getText "state" ≠ some state then searchRecords owner state query rest
    else do
      let record ← read encryptor env stored
      let more ← searchRecords owner state query rest
      if (query ∩ wordSet unicode record.content).Nonempty then
        pure ({ memory := record, score := Python.decimal 9 1 } :: more)
      else pure more

/-- `search`. -/
def search (request : SearchRequest R) (s : EncryptedCloudMemoryService R) :
    Except CloudError (List (CloudHit R)) :=
  match tenantOf R request.ownerId.val with
  | .error e => .error e
  | .ok _ =>
    ((searchRecords encryptor env unicode request.ownerId.val request.wantedState
      (wordSet unicode request.query.val) s.records.values).run 0).map fun p =>
        p.1.take request.limit.val.toNat

/-- The loop of `list_records`. -/
def listActive (owner : String) : List (StoredRecord R) → Observing (List (CloudMemory R))
  | [] => pure []
  | stored :: rest =>
    if stored.ownerId ≠ owner then listActive owner rest
    else if (stored.fields.get "state").isNone then throw (.keyError "state")
    else if stored.fields.getText "state" ≠ some "active" then listActive owner rest
    else do
      let record ← read encryptor env stored
      let more ← listActive owner rest
      pure (record :: more)

/-- `list_records`. -/
def listRecords (ownerId : String) (s : EncryptedCloudMemoryService R) :
    Except CloudError (List (CloudMemory R)) :=
  match tenantOf R ownerId with
  | .error e => .error e
  | .ok _ => ((listActive encryptor env ownerId s.records.values).run 0).map Prod.fst

end Search

variable {encryptor : TenantEnvelopeEncryptor} {env : Environment} {unicode : UnicodeDatabase}
  {s : EncryptedCloudMemoryService R}

/-! ## What it returns -/

/-- What the loop demands of a record, and what it returns of it. -/
structure Found (encryptor : TenantEnvelopeEncryptor) (unicode : UnicodeDatabase)
    (owner state : String) (query : Finset String) (r : StoredRecord R) (m : CloudMemory R) :
    Prop where
  owner : r.ownerId = owner
  state : r.fields.getText "state" = some state
  reads : ReadsAs encryptor r m
  shares : (query ∩ wordSet unicode m.content).Nonempty

/-- Every hit of the loop is a record that it has found. -/
theorem searchRecords_ok {owner state : String} {query : Finset String}
    {records : List (StoredRecord R)} {hits : List (CloudHit R)} {t t' : Nat}
    (h : (searchRecords encryptor env unicode owner state query records).run t = .ok (hits, t'))
    {hit : CloudHit R} (hhit : hit ∈ hits) :
    ∃ r ∈ records, Found encryptor unicode owner state query r hit.memory := by
  induction records generalizing hits t with
  | nil =>
    obtain ⟨rfl, -⟩ := Txn.pure_ok.mp h
    cases hhit
  | cons stored rest ih =>
    -- a record that is passed over leaves the hits of the rest
    have hrest : ∀ {hits t}, (searchRecords encryptor env unicode owner state query rest).run t =
        .ok (hits, t') → hit ∈ hits →
        ∃ r ∈ stored :: rest, Found encryptor unicode owner state query r hit.memory := by
      intro hits t h hhit
      obtain ⟨r, hr, hfound⟩ := ih h hhit
      exact ⟨r, List.mem_cons_of_mem _ hr, hfound⟩
    unfold searchRecords at h
    split at h
    · exact hrest h hhit
    rename_i howner
    split at h
    · cases h
    split at h
    · exact hrest h hhit
    rename_i hstate
    obtain ⟨record, t₁, hread, h₁⟩ := Txn.bind_ok.mp h
    obtain ⟨more, t₂, hmore, h₂⟩ := Txn.bind_ok.mp h₁
    obtain ⟨-, -, -, hreads⟩ := read_ok_iff.mp hread
    split at h₂
    · rename_i hshares
      obtain ⟨rfl, rfl⟩ := Txn.pure_ok.mp h₂
      rcases List.mem_cons.mp hhit with rfl | hhit
      · exact ⟨stored, List.mem_cons_self, not_not.mp howner, not_not.mp hstate, hreads, hshares⟩
      · exact hrest hmore hhit
    · obtain ⟨rfl, rfl⟩ := Txn.pure_ok.mp h₂
      exact hrest hmore hhit

/-- A search that returns: its owner is a Cloud owner, every hit is a stored record that it has
found, and there are at most as many as were asked for. -/
theorem search_ok {request : SearchRequest R} {hits : List (CloudHit R)}
    (h : search encryptor env unicode request s = .ok hits) :
    (∃ tenant, tenantOf R request.ownerId.val = .ok tenant) ∧
      (hits.length : Int) ≤ request.limit.val ∧
      ∀ hit ∈ hits, ∃ r ∈ s.records.values,
        Found encryptor unicode request.ownerId.val request.wantedState
          (wordSet unicode request.query.val) r hit.memory := by
  unfold search at h
  cases htenant : tenantOf R request.ownerId.val with
  | error e =>
    rw [htenant] at h
    cases h
  | ok tenant =>
    rw [htenant] at h
    dsimp only at h
    cases hrun : (searchRecords encryptor env unicode request.ownerId.val request.wantedState
        (wordSet unicode request.query.val) s.records.values).run 0 with
    | error e =>
      rw [hrun] at h
      cases h
    | ok p =>
      rw [hrun] at h
      cases h
      exact ⟨⟨tenant, rfl⟩, request.length_take_le_limit p.1,
        fun hit hhit => searchRecords_ok hrun (List.mem_of_mem_take hhit)⟩

/-- A store with one record, which is found. -/
theorem search_single {request : SearchRequest R} {r : StoredRecord R} {m : CloudMemory R}
    {tenant : UUID} (htenant : tenantOf R request.ownerId.val = .ok tenant)
    (hrecords : s.records.values = [r]) (hkms : ∀ t, env.kmsFails t = false)
    (hfound : Found encryptor unicode request.ownerId.val request.wantedState
      (wordSet unicode request.query.val) r m) :
    search encryptor env unicode request s =
      .ok [{ memory := m, score := Python.decimal 9 1 }] := by
  have hread : (read encryptor env r).run 0 = .ok (m, 2) :=
    read_ok_iff.mpr ⟨hkms 0, hkms 1, rfl, hfound.reads⟩
  have hstate : (r.fields.get "state").isNone = false := by
    have htext := hfound.state
    unfold PyDict.getText at htext
    cases hget : r.fields.get "state" with
    | none =>
      rw [hget] at htext
      cases htext
    | some value => rfl
  have hloop : (searchRecords encryptor env unicode request.ownerId.val request.wantedState
      (wordSet unicode request.query.val) [r]).run 0 =
        .ok ([{ memory := m, score := Python.decimal 9 1 }], 2) := by
    unfold searchRecords
    rw [if_neg (not_not.mpr hfound.owner), if_neg (by rw [hstate]; exact Bool.false_ne_true),
      if_neg (not_not.mpr hfound.state), Txn.run_bind_of_ok hread]
    unfold searchRecords
    show (if _ then _ else _ : Observing (List (CloudHit R))).run 2 = _
    rw [if_pos hfound.shares]
    rfl
  have hlimit := request.one_le_limit
  obtain ⟨n, hn⟩ := Nat.exists_eq_succ_of_ne_zero (show request.limit.val.toNat ≠ 0 by omega)
  unfold search
  rw [htenant]
  dsimp only
  rw [hrecords, hloop, hn]
  show Except.ok (_ :: List.take n []) = _
  rw [List.take_nil]

/-! ## Listing -/

/-- Is the record one that `list_records` lists? -/
def isListed (owner : String) (r : StoredRecord R) : Bool :=
  decide (r.ownerId = owner) && decide (r.fields.getText "state" = some "active")

/-- The loop returns one memory for each record that is listed. -/
theorem length_listActive {owner : String} {records : List (StoredRecord R)}
    {memories : List (CloudMemory R)} {t t' : Nat}
    (h : (listActive encryptor env owner records).run t = .ok (memories, t')) :
    memories.length = (records.filter (isListed owner)).length := by
  induction records generalizing memories t t' with
  | nil =>
    obtain ⟨rfl, -⟩ := Txn.pure_ok.mp h
    rfl
  | cons stored rest ih =>
    unfold listActive at h
    by_cases howner : stored.ownerId = owner
    · rw [if_neg (not_not.mpr howner)] at h
      split at h
      · cases h
      by_cases hstate : stored.fields.getText "state" = some "active"
      · rw [if_neg (not_not.mpr hstate)] at h
        obtain ⟨record, t₁, -, h₁⟩ := Txn.bind_ok.mp h
        obtain ⟨more, t₂, hmore, h₂⟩ := Txn.bind_ok.mp h₁
        obtain ⟨rfl, -⟩ := Txn.pure_ok.mp h₂
        rw [List.filter_cons_of_pos (by simp [isListed, howner, hstate]), List.length_cons,
          List.length_cons, ih hmore]
      · rw [if_pos hstate] at h
        rw [List.filter_cons_of_neg (by simp [isListed, hstate]), ih h]
    · rw [if_pos howner] at h
      rw [List.filter_cons_of_neg (by simp [isListed, howner]), ih h]

theorem length_listRecords {owner : String} {memories : List (CloudMemory R)}
    (h : listRecords encryptor env owner s = .ok memories) :
    memories.length = (s.records.values.filter (isListed owner)).length := by
  unfold listRecords at h
  cases htenant : tenantOf R owner with
  | error e =>
    rw [htenant] at h
    cases h
  | ok tenant =>
    rw [htenant] at h
    dsimp only at h
    cases hrun : (listActive encryptor env owner s.records.values).run 0 with
    | error e =>
      rw [hrun] at h
      cases h
    | ok p =>
      rw [hrun] at h
      cases h
      exact length_listActive hrun

/-! ## What it does not look at -/

/-- What the service needs to store anything: the laws of AES-GCM and of the KMS, a key version that
the KMS wraps data keys for, and an id that `UUID` reads back from its hexadecimal digits. -/
structure TenantEnvelopeEncryptor.Serves (R : Type) [Python R] (encryptor : TenantEnvelopeEncryptor) :
    Prop where
  lawful : encryptor.Lawful
  wraps : ∃ version, 1 ≤ version ∧ ∀ (random : Nat → Bytes) tenant dek,
    (∀ n, (random n).length = n) → dek.length = 32 →
    ∃ wrapped, encryptor.kms.wrap random tenant version dek = .ok wrapped
  readsId : ∃ drawn id : UUID, recordIdOf R ("mem_" ++ hexOf drawn) = .ok id

/-- A new record reads as what was written. -/
theorem newRecord_reads (hlaw : encryptor.Lawful) {payload : WritePayload R} {tenant : UUID}
    (htenant : tenantOf R payload.ownerId = .ok tenant) {provenance : JsonValue}
    (hloads : loadsProvenance payload.provenance.dumps = .ok provenance) {r : StoredRecord R}
    {t t' : Nat} (h : (newRecord encryptor env s payload tenant).run t = .ok (r, t')) :
    ∃ m, ReadsAs encryptor r m ∧ m.content = payload.content ∧
      r.fields.get "type" = some payload.type ∧ r.fields.get "space" = some payload.space := by
  unfold newRecord at h
  obtain ⟨now, t₁, -, h₁⟩ := Txn.bind_ok.mp h
  obtain ⟨recordId, t₂, hdrawn, h₂⟩ := Txn.bind_ok.mp h₁
  obtain ⟨hid, rfl⟩ := Txn.ofExcept_ok.mp hdrawn
  obtain ⟨content, t₃, hcontent, h₃⟩ := Txn.bind_ok.mp h₂
  obtain ⟨text, t₄, htext, h₄⟩ := Txn.bind_ok.mp h₃
  obtain ⟨rfl, -⟩ := Txn.pure_ok.mp h₄
  exact ⟨⟨_, _, _, payload.content, provenance⟩,
    ⟨⟨tenant, recordId, payload.provenance.dumps, htenant, hid, open_encrypt hlaw hcontent,
      open_encrypt hlaw htext, hloads⟩, rfl, rfl, rfl⟩, rfl, rfl, rfl⟩

/-- A record with the same envelopes reads the same but for its fields. -/
theorem ReadsAs.of_same {r r' : StoredRecord R} {m : CloudMemory R} (h : ReadsAs encryptor r m)
    (hsame : SameOwner r r') (hcontent : r'.contentCiphertext = r.contentCiphertext)
    (hprovenance : r'.provenanceCiphertext = r.provenanceCiphertext) :
    ReadsAs encryptor r' { m with fields := r'.fields } where
  parts := by
    obtain ⟨tenant, recordId, text, htenant, hid, hopen, htext, hloads⟩ := h.parts
    refine ⟨tenant, recordId, text, ?_, ?_, ?_, ?_, hloads⟩
    · rw [hsame.2]
      exact htenant
    · rw [hsame.1]
      exact hid
    · rw [hcontent]
      exact hopen
    · rw [hprovenance]
      exact htext
  plain := ⟨h.plain.1.trans hsame.1.symm, h.plain.2.1.trans hsame.2.symm, rfl⟩

omit [Python R] in
/-- What an update stamps on a record is its version and its time. -/
theorem get_touch {now key : String} {r : StoredRecord R} {value : PyObj R}
    (hversion : key ≠ "version") (hupdated : key ≠ "updated_at")
    (h : PyKey.str "version" ∉ ownKeys) :
    (touch now (r.setField "version" value h)).fields.get key = r.fields.get key := by
  unfold touch StoredRecord.setField
  dsimp only
  rw [get_set, if_neg hupdated, get_set, if_neg hversion]

/-- The update that gives a record its state. -/
def moveTo (ownerId id state : String) : UpdatePayload R where
  ownerId := ownerId
  id := id
  expectedVersion := 1
  patch := { state := some (.str state) }

/-- A first record after `moveTo`. -/
theorem update_moveTo {r : StoredRecord R} {m : CloudMemory R} {tenant recordId : UUID}
    (hr : s.records.get? r.id = some r) (htenant : tenantOf R r.ownerId = .ok tenant)
    (hid : recordIdOf R r.id = .ok recordId) (hversion : r.fields.get "version" = some (.int 1))
    (hreads : ReadsAs encryptor r m) (env : Environment) (state : String) :
    ∃ r', (update encryptor env (moveTo r.ownerId r.id state) s).2 = amended s r.id r' ∧
      SameOwner r r' ∧ ReadsAs encryptor r' { m with fields := r'.fields } ∧
      r'.fields.get "state" = some (.str state) ∧
      r'.fields.get "type" = r.fields.get "type" ∧ r'.fields.get "space" = r.fields.get "space" := by
  have hcheck : checkUpdate (moveTo r.ownerId r.id state) r = .ok (tenant, recordId) := by
    unfold checkUpdate
    rw [if_neg (not_not.mpr (show r.ownerId = (moveTo (R := R) r.ownerId r.id state).ownerId from rfl)),
      hversion]
    show (recordIdOf R r.id >>= _) = _
    rw [hid]
    show (tenantOf R r.ownerId >>= _) = _
    rw [htenant]
    rfl
  have hpatch : (patchContent encryptor env s (moveTo r.ownerId r.id state) r).run 0 = .ok (r, 0) := by
    unfold patchContent
    rw [Txn.run_bind_of_ok (Txn.ofExcept_ok.mpr ⟨hcheck, rfl⟩)]
    rfl
  obtain ⟨r₂, hbump, hsame, hcontent, hprovenance, hupdate⟩ :=
    update_of_patchContent hr hpatch hversion (by rfl)
  obtain ⟨_, next, -, -, rfl⟩ := bumpVersion_ok hbump
  refine ⟨_, by rw [hupdate]; rfl, hsame, hreads.of_same hsame hcontent hprovenance, ?_, ?_, ?_⟩
  · rw [get_touch (by decide) (by decide)]
    exact (get_set _ _ _ _).trans (if_pos rfl)
  · rw [get_touch (by decide) (by decide)]
    exact (get_set _ _ _ _).trans (if_neg (by decide))
  · rw [get_touch (by decide) (by decide)]
    exact (get_set _ _ _ _).trans (if_neg (by decide))

/-- A write in a new service stores its record. -/
theorem write_newService {payload : WritePayload R} {tenant : UUID} {version : Int}
    (htenant : tenantOf R payload.ownerId = .ok tenant) {r : StoredRecord R} {t : Nat}
    (hnew : (newRecord encryptor env (newService version) payload tenant).run 0 = .ok (r, t)) :
    (CloudCall.write env payload).apply encryptor (newService version) =
      stored (newService version) payload.ownerId payload.idempotencyKey r := by
  have hkey : ((newService version : EncryptedCloudMemoryService R).writeKeys.get?
      (payload.ownerId, payload.idempotencyKey)).filter (fun existing => decide (existing ≠ "")) =
        none := rfl
  show (write encryptor env payload (newService version)).2 = _
  unfold write
  rw [htenant]
  dsimp only
  rw [hkey]
  dsimp only
  rw [hnew]

/-- A write in a new service and an update of a record lead to a reachable store. -/
theorem reachable_update_write (version : Int) (env env' : Environment) (payload : WritePayload R)
    (payload' : UpdatePayload R) :
    Reachable encryptor ((CloudCall.update env' payload').apply encryptor
      ((CloudCall.write env payload).apply encryptor (newService version))) :=
  ⟨version, .tail (.single ⟨.write env payload, ⟨rfl, fun _ => rfl⟩, rfl⟩)
    ⟨.update env' payload', trivial, rfl⟩⟩

/-- Whatever is written and moved to whatever state, some reachable store holds just that. -/
theorem exists_found (hserves : encryptor.Serves R) (payload : WritePayload R) {tenant : UUID}
    (htenant : tenantOf R payload.ownerId = .ok tenant) {provenance : JsonValue}
    (hloads : loadsProvenance payload.provenance.dumps = .ok provenance) (state : String) :
    ∃ (s : EncryptedCloudMemoryService R) (r : StoredRecord R) (m : CloudMemory R),
      Reachable encryptor s ∧ s.records.values = [r] ∧ ReadsAs encryptor r m ∧
      r.ownerId = payload.ownerId ∧ m.content = payload.content ∧
      r.fields.get "state" = some (.str state) ∧ r.fields.get "type" = some payload.type ∧
      r.fields.get "space" = some payload.space := by
  obtain ⟨hlaw, ⟨version, hversion, hwraps⟩, drawn, id, hdrawn⟩ := hserves
  -- one write and one update, in an hour in which the KMS answers
  obtain ⟨env, henv, hkms⟩ : ∃ env : Environment, env.uuid4 = drawn ∧ ∀ t, env.kmsFails t = false :=
    ⟨{ deskEnv 7 with uuid4 := drawn }, rfl, fun _ => rfl⟩
  have hanswers : ∀ t dek, dek.length = 32 → AnswersWrap encryptor env t tenant version dek :=
    fun t dek hdek => ⟨hkms t, hwraps _ _ _ (env.length_urandom t) hdek⟩
  have hid : recordIdOf R (drawnId env) = .ok id := by
    unfold drawnId
    rw [henv]
    exact hdrawn
  obtain ⟨r, hnew⟩ := newRecord_of (s := newService version) payload hid hversion
    (hanswers 3 _ (env.length_urandom 1 32)) (hanswers 6 _ (env.length_urandom 4 32))
  obtain ⟨hrid, howner, hfirst⟩ := newRecord_ok hnew
  obtain ⟨m, hreads, hcontent, htype, hspace⟩ := newRecord_reads hlaw htenant hloads hnew
  obtain ⟨r', hupdate, hsame, hreads', hstate, htype', hspace'⟩ :=
    update_moveTo (s := stored (newService version) payload.ownerId payload.idempotencyKey r)
      (Dict.get?_set_self _ _ _) (by rw [howner]; exact htenant) (by rw [hrid]; exact hid) hfirst
      hreads env state
  refine ⟨_, r', _, reachable_update_write version env env payload (moveTo r.ownerId r.id state), ?_,
    hreads', hsame.2.trans howner, hcontent, hstate, htype'.trans htype, hspace'.trans hspace⟩
  rw [write_newService htenant hnew]
  show (update encryptor env (moveTo r.ownerId r.id state) _).2.records.values = _
  rw [hupdate]
  show ((Dict.set ∅ r.id r).set r.id r').values = [r']
  rw [Dict.set_set]
  rfl

end OpenMemory.Cloud
