import OpenMemory.Cloud.Runs

/-!
# The write keys of the Cloud memory service

A write key is set by `write`, dropped by `delete_owner` and filtered by `restore`; `forget` leaves
it. So the keys point to live records (`KeysLive`) as long as no call forgets a record that one of
them points to, and no longer (`writeKeys_live`).
-/

namespace OpenMemory.Cloud

open Lib

variable {R : Type} [Python R]

variable {encryptor : TenantEnvelopeEncryptor} {env : Environment}
  {s s' : EncryptedCloudMemoryService R}

/-! ## Write keys -/

/-- Every write key points to a live record of its owner. -/
def KeysLive (s : EncryptedCloudMemoryService R) : Prop :=
  ∀ o key i, s.writeKeys.get? (o, key) = some i → ownerAt s i = some o

/-- The call forgets a record that a write key points to. -/
def CloudCall.ForgetsKeyed (s : EncryptedCloudMemoryService R) : CloudCall R → Prop
  | .forget _ o i =>
    (o, i) ∉ s.forgetKeys ∧ holds s o i = true ∧ ∃ key, s.writeKeys.get? (o, key) = some i
  | _ => False

omit [Python R] in
/-- Keys stay live while neither they nor the owners of the records change. -/
theorem KeysLive.of_same (h : KeysLive s) (hkeys : s'.writeKeys = s.writeKeys)
    (howner : ∀ i, ownerAt s' i = ownerAt s i) : KeysLive s' := by
  intro o key i hi
  rw [hkeys] at hi
  rw [howner i]
  exact h o key i hi

/-- `write` sets the key of the record that it stores. -/
theorem KeysLive.write (h : KeysLive s) {payload : WritePayload R}
    (hfresh : s.records.get? (drawnId env) = none) :
    KeysLive (Cloud.write encryptor env payload s).2 := by
  rcases write_cases encryptor env payload s with hsame | ⟨tenant, r, t, -, hnew, hstored⟩
  · rw [hsame]
    exact h
  · obtain ⟨hid, howner, -⟩ := newRecord_ok hnew
    rw [hstored]
    intro o key i hi
    have hi' : (s.writeKeys.set (payload.ownerId, payload.idempotencyKey) r.id).get? (o, key) =
        some i := hi
    show ((s.records.set r.id r).get? i).map StoredRecord.ownerId = some o
    rw [Dict.get?_set] at hi' ⊢
    by_cases hkey : (o, key) = (payload.ownerId, payload.idempotencyKey)
    · rw [if_pos hkey] at hi'
      cases hi'
      rw [if_pos rfl, Option.map_some, howner, (Prod.mk.inj hkey).1]
    · rw [if_neg hkey] at hi'
      have hlive := h o key i hi'
      -- the drawn id is not one that a key points to
      have hne : i ≠ r.id := by
        rintro rfl
        unfold ownerAt at hlive
        rw [hid, hfresh] at hlive
        cases hlive
      rw [if_neg hne]
      exact hlive

/-- Without a key that points to the record, `forget` takes nothing that a key needs. -/
theorem KeysLive.forget (h : KeysLive s) {o i : String}
    (hcareful : ¬ (CloudCall.forget (R := R) env o i).ForgetsKeyed s) :
    KeysLive (Cloud.forget env o i s).2 := by
  rcases forget_cases env o i s with ⟨-, hsame⟩ | ⟨-, -, hkeys⟩ | ⟨hnew, hholds, hbury⟩
  · rw [hsame]
    exact h
  · rw [hkeys]
    exact h
  · rw [hbury]
    intro o' key j hj
    have hlive := h o' key j hj
    unfold ownerAt
    rw [get?_bury]
    by_cases hji : j = i
    · subst hji
      have howner : o' = o := Option.some.inj (hlive.symm.trans (holds_iff.mp hholds))
      subst howner
      exact absurd ⟨hnew, hholds, key, hj⟩ hcareful
    · rw [if_neg hji]
      exact hlive

/-- `delete_owner` drops the keys of the owner with the records. -/
theorem KeysLive.deleteOwner (h : KeysLive s) (env : Environment) (o : String) :
    KeysLive (Cloud.deleteOwner env o s).2 := by
  rcases deleteOwner_cases env o s with ⟨e, -, hsame⟩ | ⟨tenant, -, hdeleted⟩
  · rw [hsame]
    exact h
  · rw [hdeleted]
    intro o' key i hi
    obtain ⟨hold, hother⟩ := Dict.get?_filter_eq_some.mp hi
    have hlive := h o' key i hold
    have hne : i ∉ idsOf s o := by
      intro hmem
      have hsome := Option.some.inj (hlive.symm.trans (mem_idsOf.mp hmem))
      exact of_decide_eq_true hother hsome
    show ((buryAll env o (idsOf s o) 0 s).records.get? i).map StoredRecord.ownerId = some o'
    rw [get?_buryAll, if_neg hne]
    exact hlive

/-- `restore` keeps only the write keys that point to a live record of their owner. -/
theorem keysLive_install (s : EncryptedCloudMemoryService R)
    (ledger : Dict (String × String) String) (d : Dict String (StoredRecord R)) :
    KeysLive (install s ledger d) := by
  intro o key i hi
  obtain ⟨-, hkept⟩ := Dict.get?_filter_eq_some.mp hi
  dsimp only at hkept
  show ((d.filter fun id r => !ledger.contains (r.ownerId, id)).get? i).map StoredRecord.ownerId =
    some o
  cases hr : (d.filter fun id r => !ledger.contains (r.ownerId, id)).get? i with
  | none =>
    rw [hr] at hkept
    cases hkept
  | some r =>
    rw [hr] at hkept
    exact congrArg some (of_decide_eq_true hkept)

/-- `restore` either changes nothing or installs the snapshot. -/
theorem KeysLive.restore (h : KeysLive s) (snapshot : PyDict R) (tombstones : List (PyObj R)) :
    KeysLive (Cloud.restore snapshot tombstones s).2 := by
  rcases restore_cases snapshot tombstones s with
    ⟨e, -, hsame⟩ | ⟨e, hledger⟩ | ⟨records, restored, -, -, hok⟩
  · rw [hsame]
    exact h
  · rw [hledger]
    exact h
  · rw [hok]
    exact keysLive_install _ _ _

/-- An update touches no write key. -/
theorem writeKeys_update (payload : UpdatePayload R) :
    (update encryptor env payload s).2.writeKeys = s.writeKeys := by
  rcases update_cases encryptor env payload s with hsame | ⟨_, _, -, -, hput | hamended⟩
  · rw [hsame]
  · rw [hput]
    rfl
  · rw [hamended]
    rfl

/-- Nor does a rewrap. -/
theorem writeKeys_rewrap (version : Int) :
    (rewrap encryptor env version s).2.writeKeys = s.writeKeys := by
  rcases rewrap_cases encryptor env version s with ⟨-, hsame⟩ | ⟨_, _, _, -, -, -, hok⟩
  · rw [hsame]
  · rw [hok]

/-- One call keeps the write keys live, unless it forgets a record that one of them points to. -/
theorem KeysLive.apply (h : KeysLive s) {call : CloudCall R} (hfresh : call.Fresh s)
    (hcareful : ¬ call.ForgetsKeyed s) : KeysLive (call.apply encryptor s) := by
  cases call with
  | write env payload => exact h.write hfresh.1
  | update env payload => exact h.of_same (writeKeys_update payload) (ownerAt_update payload)
  | storeEmbedding o i version values =>
    show KeysLive (storeEmbedding o i version values s).2
    rcases storeEmbedding_cases o i version values s with hsame | ⟨_, -, -, hset⟩
    · rw [hsame]
      exact h
    · rw [hset]
      exact h
  | forget env o i => exact h.forget hcareful
  | deleteOwner env o => exact h.deleteOwner env o
  | backup => exact h
  | restore snapshot tombstones => exact h.restore snapshot tombstones
  | rotate version =>
    show KeysLive (rotate version s).2
    unfold rotate
    split <;> exact h
  | rewrap env version => exact h.of_same (writeKeys_rewrap version) (ownerAt_rewrap version)

/-- A forget of such a record leaves its key behind. -/
theorem not_keysLive_of_forgetsKeyed (encryptor : TenantEnvelopeEncryptor) {call : CloudCall R}
    (h : call.ForgetsKeyed s) :
    ¬ KeysLive (call.apply encryptor s) := by
  cases call with
  | forget env o i =>
    obtain ⟨hnew, hholds, key, hkey⟩ := h
    intro hlive
    have hkey' : (Cloud.forget env o i s).2.writeKeys.get? (o, key) = some i := by
      rcases forget_cases env o i s with ⟨-, hsame⟩ | ⟨-, -, hkeys⟩ | ⟨-, -, hbury⟩
      · rw [hsame]
        exact hkey
      · rw [hkeys]
        exact hkey
      · rw [hbury]
        exact hkey
    exact (buried_of_removes encryptor (removes_forget hnew hholds)).absent (hlive o key i hkey')
  | _ => exact h.elim

/-- Not a `KeyError`. -/
def NoKeyError (e : CloudError) : Prop := ∀ message, e ≠ .keyError message

theorem raises_encrypt (tenantId recordId : UUID) (field plaintext : String) (version : Int) :
    Txn.Raises NoKeyError
      (encryptor.encrypt env tenantId recordId field plaintext version) := by
  unfold TenantEnvelopeEncryptor.encrypt
  split
  · exact .throw fun _ => by simp
  · refine .bind (fun _ _ h => by cases h) fun dek => .bind (fun _ _ h => by cases h) fun nonce => ?_
    refine .bind ?_ fun wrapped => .pure _
    intro t e h
    unfold TenantEnvelopeEncryptor.requestWrap at h
    change (if env.kmsFails t = true then _ else _) = _ at h
    split at h
    · cases h
      exact fun _ => by simp
    · split at h
      · cases h
        exact fun _ => by simp
      · cases h

theorem raises_decrypt (tenantId recordId : UUID) (field : String) (value : EnvelopeCiphertext) :
    Txn.Raises NoKeyError (encryptor.decrypt env tenantId recordId field value) := by
  unfold TenantEnvelopeEncryptor.decrypt
  split
  · exact .throw fun _ => by simp
  · refine .bind ?_ fun dek => ?_
    · intro t e h
      unfold TenantEnvelopeEncryptor.requestUnwrap at h
      change (if env.kmsFails t = true then _ else _) = _ at h
      split at h
      · cases h
        exact fun _ => by simp
      · split at h
        · cases h
          exact fun _ => by simp
        · cases h
    · split
      · exact .throw fun _ => by simp
      · split
        · exact .throw fun _ => by simp
        · exact .pure _

/-- The only error of the owner binding. -/
theorem tenantOf_error {o : String} {e : CloudError} (h : tenantOf R o = .error e) :
    e = .permissionError "Cloud owner binding is invalid" := by
  unfold tenantOf at h
  split at h
  · cases h
    rfl
  · split at h
    · cases h
      rfl
    · split at h
      · cases h
        rfl
      · cases h

theorem raises_recordIdOf (i : String) :
    Txn.Raises NoKeyError (MonadExcept.ofExcept (recordIdOf R i) : Observing UUID) := by
  refine .ofExcept fun e h => ?_
  unfold recordIdOf at h
  split at h
  · cases h
    exact fun _ => by simp
  · cases h

omit [Python R] in
theorem raises_decryptField (tenantId recordId : UUID) (field : String) (value : LooseEnvelope R) :
    Txn.Raises NoKeyError (decryptField encryptor env tenantId recordId field value) := by
  unfold decryptField
  split
  · exact .throw fun _ => by simp
  · exact raises_decrypt _ _ _ _

/-- Reading a record raises no KeyError. -/
theorem raises_read (r : StoredRecord R) : Txn.Raises NoKeyError (read encryptor env r) := by
  unfold read
  refine .bind (.ofExcept fun e h => ?_) fun tenant => .bind (raises_recordIdOf _) fun recordId =>
    .bind (raises_decryptField _ _ _ _) fun content =>
    .bind (raises_decryptField _ _ _ _) fun text => .bind (.ofExcept fun e h => ?_) fun _ => .pure _
  · rw [tenantOf_error h]
    exact fun _ => by simp
  · unfold loadsProvenance at h
    split at h
    · cases h
      exact fun _ => by simp
    · cases h

/-- Nor does encrypting a new one. -/
theorem raises_newRecord (payload : WritePayload R) (tenant : UUID) :
    Txn.Raises NoKeyError (newRecord encryptor env s payload tenant) := by
  unfold newRecord
  exact .bind (fun _ _ h => by cases h) fun now => .bind (raises_recordIdOf _) fun recordId =>
    .bind (raises_encrypt _ _ _ _ _) fun content =>
    .bind (raises_encrypt _ _ _ _ _) fun provenance => .pure _

/-- `_read` outside a call raises none either. -/
theorem readAt_error {r : StoredRecord R} {t : Nat} {e : CloudError}
    (h : readAt encryptor env r t = .error e) : NoKeyError e := by
  unfold readAt at h
  cases hread : (read encryptor env r).run t with
  | ok p =>
    rw [hread] at h
    cases h
  | error e' =>
    rw [hread] at h
    cases h
    exact raises_read r t _ hread

/-- Where every key is live, a write does not raise `KeyError`. -/
theorem KeysLive.write_ne_keyError (h : KeysLive s) (payload : WritePayload R) (message : String) :
    (Cloud.write encryptor env payload s).1 ≠ .error (.keyError message) := by
  intro herror
  have hmap : ∀ {x : Except CloudError (CloudMemory R)} {f : CloudMemory R → CloudResult R},
      (∀ e, x = .error e → NoKeyError e) → x.map f ≠ .error (.keyError message) := by
    intro x f hx hbad
    cases x with
    | error e =>
      cases hbad
      exact hx _ rfl message rfl
    | ok m => cases hbad
  unfold Cloud.write at herror
  cases htenant : tenantOf R payload.ownerId with
  | error e =>
    rw [htenant] at herror
    rw [tenantOf_error htenant] at herror
    cases herror
  | ok tenant =>
    rw [htenant] at herror
    dsimp only at herror
    cases hkey : (s.writeKeys.get? (payload.ownerId, payload.idempotencyKey)).filter
        (fun existing => decide (existing ≠ "")) with
    | some existing =>
      rw [hkey] at herror
      have hget := (Option.filter_eq_some_iff.mp hkey).1
      obtain ⟨r, hr, -⟩ := ownerAt_eq_some.mp (h _ _ _ hget)
      dsimp only at herror
      rw [hr] at herror
      exact hmap (fun e he => readAt_error he) herror
    | none =>
      rw [hkey] at herror
      dsimp only at herror
      cases hnew : (newRecord encryptor env s payload tenant).run 0 with
      | error e =>
        rw [hnew] at herror
        cases herror
        exact raises_newRecord payload tenant 0 _ hnew message rfl
      | ok p =>
        rw [hnew] at herror
        exact hmap (fun e he => readAt_error he) herror

/-- A write under a key that no memory of the owner has creates one. -/
theorem KeysLive.write_created (h : KeysLive s) {payload : WritePayload R} {result : CloudResult R}
    (hfree : ∀ i, s.writeKeys.get? (payload.ownerId, payload.idempotencyKey) = some i →
      holds s payload.ownerId i = false)
    (hok : (Cloud.write encryptor env payload s).1 = .ok result) : result.status = "created" := by
  have hnone : s.writeKeys.get? (payload.ownerId, payload.idempotencyKey) = none := by
    cases hkey : s.writeKeys.get? (payload.ownerId, payload.idempotencyKey) with
    | none => rfl
    | some i =>
      have habsent := hfree i hkey
      rw [holds_iff.mpr (h _ _ _ hkey)] at habsent
      cases habsent
  unfold Cloud.write at hok
  cases htenant : tenantOf R payload.ownerId with
  | error e =>
    rw [htenant] at hok
    cases hok
  | ok tenant =>
    rw [htenant, hnone] at hok
    dsimp only [Option.filter_none] at hok
    cases hnew : (newRecord encryptor env s payload tenant).run 0 with
    | error e =>
      rw [hnew] at hok
      cases hok
    | ok p =>
      rw [hnew] at hok
      cases hread : readAt encryptor env p.1 p.2 with
      | error e =>
        dsimp only at hok
        rw [hread] at hok
        cases hok
      | ok m =>
        dsimp only at hok
        rw [hread] at hok
        cases hok
        rfl

/-- A call that forgets no record a write key points to. -/
def CarefulStep (encryptor : TenantEnvelopeEncryptor) (s s' : EncryptedCloudMemoryService R) :
    Prop :=
  ∃ call : CloudCall R, call.Fresh s ∧ ¬ call.ForgetsKeyed s ∧ s' = call.apply encryptor s

/-- In a run without such calls every write key points to a live record of its owner, so `write`
never raises `KeyError` and a key whose memory is gone is free. The next call that is one breaks
this. -/
theorem writeKeys_live {keyVersion : Int}
    (hrun : Reaches (CarefulStep encryptor) (newService keyVersion) s) :
    (∀ o key i, s.writeKeys.get? (o, key) = some i → holds s o i = true) ∧
      (∀ env payload message,
        (write encryptor env payload s).1 ≠ .error (.keyError message)) ∧
      (∀ env payload result,
        (∀ i, s.writeKeys.get? (payload.ownerId, payload.idempotencyKey) = some i →
          holds s payload.ownerId i = false) →
        (write encryptor env payload s).1 = .ok result → result.status = "created") ∧
      ∀ call : CloudCall R, call.ForgetsKeyed s → ∃ o key i,
        (call.apply encryptor s).writeKeys.get? (o, key) = some i ∧
          holds (call.apply encryptor s) o i = false := by
  have hlive : KeysLive s := by
    refine hrun.kept (I := KeysLive) ?_ (fun _ _ _ h => by cases h)
    rintro s₁ s₂ ⟨call, hfresh, hcareful, rfl⟩ h
    exact h.apply hfresh hcareful
  refine ⟨fun o key i h => holds_iff.mpr (hlive o key i h),
    fun env payload message => hlive.write_ne_keyError payload message,
    fun env payload result => hlive.write_created, ?_⟩
  intro call hforgets
  have hnot := not_keysLive_of_forgetsKeyed encryptor hforgets
  unfold KeysLive at hnot
  push Not at hnot
  obtain ⟨o, key, i, hkey, habsent⟩ := hnot
  exact ⟨o, key, i, hkey, holds_eq_false_iff.mpr habsent⟩

/-- At the desk: after one write its key is live. -/
theorem deskKey_live :
    deskWritten.writeKeys.get? (deskOwner, "k") = some deskId ∧
      holds deskWritten deskOwner deskId = true := by
  have hkey : deskWritten.writeKeys.get? (deskOwner, "k") = some deskId := by decide +kernel
  have hrun : Reaches (CarefulStep deskEncryptor) (newService 1) deskWritten :=
    .single ⟨.write (deskEnv 7) (deskNote "k" "A"), ⟨rfl, fun _ => rfl⟩, id, rfl⟩
  exact ⟨hkey, (writeKeys_live hrun).1 deskOwner "k" deskId hkey⟩

/-- A write, a forget and the same write again: the key points to no record, and the write raises
`KeyError`. -/
theorem forgotten_key_dangles :
    Reachable deskEncryptor deskForgotten ∧
      deskForgotten.writeKeys.get? (deskOwner, "k") = some deskId ∧
      holds deskForgotten deskOwner deskId = false ∧
      (write deskEncryptor (deskEnv 8) (deskNote "k" "A") deskForgotten).1.map (fun _ => ()) =
        .error (.keyError deskId) := by
  refine ⟨reachable_deskForgotten, ?_⟩
  decide +kernel

end OpenMemory.Cloud
