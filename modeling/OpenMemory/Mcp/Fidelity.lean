import OpenMemory.Cloud.Search
import OpenMemory.Mcp.Patches

/-!
# The four paths of a patch

`memory.update` of v0 reaches the application service through the gateway, and the Cloud service
directly. The gateway translates a request into the same command as M1 does, so its updates land for
the same reason (`Translates.faithful`). The Cloud service writes the fields into the stored record,
encrypts a new content, and has no use for a provenance.

`patches_land_iff` puts the paths together: for a first execution that succeeds it says when the
stored memory shows all that was named.
-/

namespace OpenMemory.Mcp

open Lib MemoryApplicationService InMemoryStore
open Cloud (TenantEnvelopeEncryptor EncryptedCloudMemoryService StoredRecord PyObj PyKey PyDict
  ContentIs SameOwner)

variable {R : Type} [Python R] {Arguments : Type}

/-! ## Over the application service -/

/-- A stored provenance conveys what a v0 client said of the origin. `other` is unknown to the
domain, and an empty text is no evidence. -/
structure WireProvenance.ConveyedBy (R : Type) [Python R] (value : WireProvenance) (p : Provenance) :
    Prop where
  sourceType : p.sourceType.value =
    if value.sourceType = .other then "unknown" else value.sourceType.value
  capturedAt : ∃ d, datetime R value.capturedAt.val = .ok d ∧
    ensureAware d "captured_at" = .ok p.capturedAt
  sourceId : p.sourceId = value.sourceId.map Text.val
  sourceModel : p.sourceModel = value.sourceModel.map Text.val
  evidence : p.evidence = (value.evidence.map Text.val).toList.filter fun text => text ≠ ""

theorem conveyed_of_provenance {value : WireProvenance} {p : Provenance}
    (h : provenance R value = .ok p) : value.ConveyedBy R p := by
  simp only [provenance, except_bind_ok] at h
  obtain ⟨sourceType, htype, d, hd, hmake⟩ := h
  obtain ⟨at_, hat, hfields⟩ := make_provenance_ok hmake
  constructor
  case sourceType =>
    rw [hfields]
    refine (value_of_enumOf htype).trans ?_
    cases value.sourceType <;> rfl
  case capturedAt => exact ⟨d, hd, by rw [hat, hfields]⟩
  case sourceId => rw [hfields]
  case sourceModel => rw [hfields]
  -- an empty evidence text becomes an empty list
  case evidence =>
    rw [hfields]
    cases value.evidence with
    | none => rfl
    | some text =>
      show (if text.val = "" then [] else [text.val]) = [text.val].filter fun text => text ≠ ""
      by_cases hempty : text.val = ""
      · simp [hempty]
      · simp [hempty]

/-- The command of a v0 update. -/
theorem translates_updateCommand {request : UpdateRequest R} {c : UpdateMemoryCommand R}
    (h : updateCommand request = .ok c) :
    Translates (WireProvenance.ConveyedBy R) request.named request.id.val request.ownerId.val
      request.idempotencyKey.val c := by
  obtain ⟨hid, -⟩ := updateCommand_names h
  unfold updateCommand at h
  rw [hid] at h
  obtain ⟨_, hpure, h⟩ := except_bind_ok.mp h
  obtain ⟨type, htype, h⟩ := except_bind_ok.mp h
  obtain ⟨state, hstate, h⟩ := except_bind_ok.mp h
  obtain ⟨origin, horigin, h⟩ := except_bind_ok.mp h
  cases h
  refine ⟨hid, rfl, rfl, rfl, rfl, fun at_ descriptor => ?_⟩
  constructor
  -- what the patch names is passed on, each under its own name
  case type => exact map_value_of_optional htype
  case state => exact map_value_of_optional hstate
  case provenance =>
    intro value hvalue
    rcases optional_cases horigin with ⟨hnone, -⟩ | ⟨value', o, hsome, rfl, ho⟩
    · cases hnone.symm.trans hvalue
    · cases hsome.symm.trans hvalue
      exact ⟨o, rfl, conveyed_of_provenance ho⟩
  case noProvenance =>
    intro hnone
    rcases optional_cases horigin with ⟨-, rfl⟩ | ⟨value', o, hsome, -⟩
    · rfl
    · cases hsome.symm.trans hnone
  case space =>
    show (request.patch.space.map Text.val).map some = _
    rfl
  all_goals rfl

/-- A call that succeeds answers what the service has returned. -/
theorem MCPAdapter.callUpdate_success {adapter : MCPAdapter R Arguments} {b : UpdateService R}
    {arguments : Arguments} {requestId : Option String} {request : UpdateRequest R}
    {rid : Text 1 128} {data : ResponseData R} {s s' : b.Store}
    (hparse : adapter.coercion.update arguments >>= UpdateRequest.modelValidate = .ok request)
    (h : adapter.callUpdate b arguments requestId s = (.ok (.success rid data), s')) :
    b.update request s = (.ok data, s') := by
  -- a failure is no success
  have hfailure {rid' : String} {error : PublicError} :
      failure rid' error ≠ (.ok (.success rid data) : Except PyError (Envelope R)) := by
    unfold failure
    cases Text.modelValidate 1 128 rid' with
    | error e => nofun
    | ok rid => nofun
  unfold callUpdate at h
  split at h
  · exact absurd (Prod.mk.inj h).1 hfailure
  rw [hparse] at h
  dsimp only at h
  -- the request is valid, so the answer is that of the service
  split at h
  · exact absurd (Prod.mk.inj h).1 hfailure
  obtain ⟨hanswer, rfl⟩ := Prod.mk.inj h
  cases hupdate : (b.update request s).1 with
  | error e =>
    rw [hupdate] at hanswer
    exact absurd hanswer hfailure
  | ok data' =>
    rw [hupdate] at hanswer
    unfold success at hanswer
    -- the envelope carries the data of the service
    cases hrid : Text.modelValidate 1 128 (adapter.answerId requestId) with
    | error e =>
      dsimp only [bind, Except.bind] at hanswer
      rw [hrid] at hanswer
      exact absurd hanswer hfailure
    | ok rid' =>
      dsimp only [bind, Except.bind] at hanswer
      rw [hrid] at hanswer
      cases hanswer
      exact Prod.ext hupdate rfl

/-- Over the gateway everything that is named is handed on. -/
theorem gatewayUpdate_faithful {svc : MemoryApplicationService R} {request : UpdateRequest R}
    {data : ResponseData R} {s s' : InMemoryStore R} (hk : s.Keyed)
    (hfresh : (UpdateService.gateway svc).FreshKey s request)
    (h : (UpdateService.gateway svc).update request s = (.ok data, s')) :
    ∃ m m', Persists request.id.val s s' m m' ∧
      Faithful (WireProvenance.ConveyedBy R) request.named svc m m' := by
  cases hrun : (gatewayUpdate svc (inMemoryUnitOfWork R) request).run s with
  | error e => cases (gateway_update_error hrun).symm.trans h
  | ok out =>
    obtain ⟨memory, s₁⟩ := out
    have hrespond := MCPAdapter.respond_ok hrun fun memory => do
      let record ← MemoryRecord.modelValidate memory
      pure (.update record)
    obtain ⟨-, rfl⟩ := Prod.mk.inj (hrespond.symm.trans h)
    obtain ⟨c, m, hcommand, hupdate, -⟩ := gatewayUpdate_ok.mp hrun
    exact (translates_updateCommand hcommand).faithful hk hfresh hupdate

/-! ## Over the Cloud service -/

/-- The provenance as a Cloud write stores it. -/
def WireProvenance.json (value : WireProvenance) : JsonValue :=
  let text (key : String) (text : Option String) : List (String × JsonValue) :=
    (text.map fun text => (key, .str text)).toList
  .obj (text "source_type" (some value.sourceType.value) ++
    text "captured_at" (some value.capturedAt.val) ++
    text "source_id" (value.sourceId.map Text.val) ++
    text "source_model" (value.sourceModel.map Text.val) ++
    text "evidence" (value.evidence.map Text.val))

/-- What the provenance of a record decrypts to. -/
def OriginIs (encryptor : TenantEnvelopeEncryptor) (r : StoredRecord R) (value : JsonValue) : Prop :=
  ∃ tenant recordId text, Cloud.tenantOf R r.ownerId = .ok tenant ∧
    Cloud.recordIdOf R r.id = .ok recordId ∧
    Cloud.openField encryptor tenant recordId "provenance" r.provenanceCiphertext = some text ∧
    Cloud.loadsProvenance text = .ok value

/-- How a record of the Cloud service shows the values: what is encrypted shows as what it decrypts
to, and a provenance as what is read where it was written. -/
def recordShowing (encryptor : TenantEnvelopeEncryptor) :
    Showing PatchField (PatchField.Value R WireProvenance) (StoredRecord R) where
  shows
    | .content, v, r => ContentIs encryptor r v
    | .type, v, r => r.fields.get "type" = some (.str v)
    | .space, v, r => r.fields.get "space" = some (.str v)
    | .importance, v, r => r.fields.get "importance" = some (.float v)
    | .confidence, v, r => r.fields.get "confidence" = some (.float v)
    | .state, v, r => r.fields.get "state" = some (.str v)
    | .provenance, v, r =>
      ∃ value, Cloud.loadsProvenance v.json.dumps = .ok value ∧ OriginIs encryptor r value
  same
    | .content, r, r' => ∀ text, ContentIs encryptor r' text ↔ ContentIs encryptor r text
    | .type, r, r' => r'.fields.get "type" = r.fields.get "type"
    | .space, r, r' => r'.fields.get "space" = r.fields.get "space"
    | .importance, r, r' => r'.fields.get "importance" = r.fields.get "importance"
    | .confidence, r, r' => r'.fields.get "confidence" = r.fields.get "confidence"
    | .state, r, r' => r'.fields.get "state" = r.fields.get "state"
    | .provenance, r, r' => ∀ value, OriginIs encryptor r' value ↔ OriginIs encryptor r value

theorem recordShowing_same {encryptor : TenantEnvelopeEncryptor} {r r' : StoredRecord R}
    (f : PatchField) (v : f.Value R WireProvenance) (h : (recordShowing encryptor).same f r r') :
    (recordShowing encryptor).shows f v r' ↔ (recordShowing encryptor).shows f v r := by
  cases f with
  | content => exact h v
  | type => exact Eq.congr_left h
  | space => exact Eq.congr_left h
  | importance => exact Eq.congr_left h
  | confidence => exact Eq.congr_left h
  | state => exact Eq.congr_left h
  | provenance => exact exists_congr fun value => and_congr_right fun _ => h value

/-- The keys that an update may assign to. -/
def updatedKeys : List String :=
  ["type", "space", "importance", "confidence", "state", "version", "updated_at"]

/-- What every update of the Cloud service leaves and counts. -/
structure CloudStamped (env : Cloud.Environment) (r r' : StoredRecord R) : Prop where
  version : ∃ value next, r.fields.get "version" = some value ∧ value.succ = .ok next ∧
    r'.fields.get "version" = some next
  updatedAt : ∃ t, r'.fields.get "updated_at" = some (.str (env.now t).zulu)
  identity : SameOwner r r'
  others : ∀ key ∉ updatedKeys, r'.fields.get key = r.fields.get key

/-- The patch has landed in the record, and nothing else has changed. -/
def CloudFaithful (encryptor : TenantEnvelopeEncryptor) (env : Cloud.Environment)
    (named : NamedPatch R WireProvenance) (r r' : StoredRecord R) : Prop :=
  Patch.Lands (recordShowing encryptor) named r r' ∧ CloudStamped env r r'

/-- What the service takes of a request: everything but the provenance. -/
def UpdateRequest.cloudPassed (request : UpdateRequest R) : NamedPatch R WireProvenance
  | .provenance => none
  | f => request.named f

section CloudUpdate

variable {encryptor : TenantEnvelopeEncryptor} {env : Cloud.Environment}
  {s s' : EncryptedCloudMemoryService R} {request : UpdateRequest R} {r r' : StoredRecord R}

theorem contentIs_congr (howner : SameOwner r r')
    (henvelope : r'.contentCiphertext = r.contentCiphertext) (text : String) :
    ContentIs encryptor r' text ↔ ContentIs encryptor r text := by
  unfold ContentIs
  rw [howner.1, howner.2, henvelope]

theorem originIs_congr (howner : SameOwner r r')
    (henvelope : r'.provenanceCiphertext = r.provenanceCiphertext) (value : JsonValue) :
    OriginIs encryptor r' value ↔ OriginIs encryptor r value := by
  unfold OriginIs
  rw [howner.1, howner.2, henvelope]

omit [Python R] in
theorem get_patchField {key key' : String} (h : PyKey.str key ∉ Cloud.ownKeys)
    (value : Option (PyObj R)) (r : StoredRecord R) :
    (Cloud.patchField key h value r).fields.get key'
      = if key' = key then value.or (r.fields.get key) else r.fields.get key' := by
  cases value with
  | none =>
    show r.fields.get key' = _
    split_ifs with hkey
    · rw [hkey]
      rfl
    · rfl
  | some value => exact Cloud.get_set _ _ _ _

omit [Python R] in
/-- The other fields of a patch, key by key. -/
theorem get_patchFields (patch : Cloud.CloudPatch R) (r : StoredRecord R) (key : String) :
    (Cloud.patchFields patch r).fields.get key =
      if key = "state" then patch.state.or (r.fields.get "state")
      else if key = "confidence" then patch.confidence.or (r.fields.get "confidence")
      else if key = "importance" then patch.importance.or (r.fields.get "importance")
      else if key = "space" then patch.space.or (r.fields.get "space")
      else if key = "type" then patch.type.or (r.fields.get "type")
      else r.fields.get key := by
  unfold Cloud.patchFields
  simp only [get_patchField]
  split_ifs with h₁ h₂ h₃ h₄ h₅ <;> first | rfl | simp_all

omit [Python R] in
/-- A key that takes the value of the patch, if that has one. -/
theorem landed_of_or {α : Type} {encode : α → PyObj R} {named : Option α} {key : String}
    {value : Option (PyObj R)} (h : r'.fields.get key = value.or (r.fields.get key))
    (hvalue : value = named.map encode) :
    (∀ v, named = some v → r'.fields.get key = some (encode v)) ∧
      (named = none → r'.fields.get key = r.fields.get key) := by
  subst hvalue
  cases named with
  | none => exact ⟨nofun, fun _ => h⟩
  | some a =>
    refine ⟨fun v hv => ?_, nofun⟩
    cases hv
    exact h

/-- What is stored when an update returns. -/
theorem cloud_update_ok {result : Cloud.CloudResult R}
    (h : Cloud.update encryptor env (cloudPayload request) s = (.ok result, s')) :
    ∃ r r₁ t version next, s.records.get? request.id.val = some r ∧
      (Cloud.patchContent encryptor env s (cloudPayload request) r).run 0 = .ok (r₁, t) ∧
      (Cloud.patchFields (cloudPatch request.patch) r₁).fields.get "version" = some version ∧
      version.succ = .ok next ∧
      s'.records.get? request.id.val = some (Cloud.touch (env.now t).zulu
        ((Cloud.patchFields (cloudPatch request.patch) r₁).setField "version" next (by decide))) := by
  unfold Cloud.update at h
  cases hr : s.records.get? (cloudPayload request).id with
  | none =>
    -- every error is an error of the update
    rw [hr] at h
    cases h
  | some r =>
    rw [hr] at h
    dsimp only at h
    cases hpatch : (Cloud.patchContent encryptor env s (cloudPayload request) r).run 0 with
    | error e =>
      rw [hpatch] at h
      cases h
    | ok out =>
      obtain ⟨r₁, t⟩ := out
      rw [hpatch] at h
      dsimp only at h
      cases hbump : Cloud.bumpVersion (Cloud.patchFields (cloudPayload request).patch r₁) with
      | error e =>
        rw [hbump] at h
        cases h
      | ok r₂ =>
        rw [hbump] at h
        obtain ⟨-, rfl⟩ := Prod.mk.inj h
        obtain ⟨version, next, hversion, hnext, rfl⟩ := Cloud.bumpVersion_ok hbump
        exact ⟨r, r₁, t, version, next, hr, hpatch, hversion, hnext, Dict.get?_set_self _ _ _⟩

/-- The content that the patch leaves, once it is encrypted. -/
theorem content_of_patchContent (hlaw : encryptor.Lawful) {r₁ : StoredRecord R} {t : Nat}
    (h : (Cloud.patchContent encryptor env s (cloudPayload request) r).run 0 = .ok (r₁, t)) :
    (∀ v, request.named .content = some v → ContentIs encryptor r₁ v) ∧
      (request.named .content = none → r₁.contentCiphertext = r.contentCiphertext) := by
  refine ⟨fun v hv => ?_, fun hnone => ?_⟩
  · have hnew : (cloudPayload request).patch.content = some v := hv
    refine Cloud.contentIs_patchContent hlaw h ?_
    unfold Cloud.UpdatesTo
    rw [hnew]
  · have hnew : (cloudPayload request).patch.content = none := hnone
    unfold Cloud.patchContent at h
    obtain ⟨ids, _, -, h₁⟩ := Txn.bind_ok.mp h
    rw [hnew] at h₁
    obtain ⟨rfl, -⟩ := Txn.pure_ok.mp h₁
    rfl

/-- The record that an update has stored. -/
theorem cloud_update_lands (hlaw : encryptor.Lawful) {result : Cloud.CloudResult R}
    (h : Cloud.update encryptor env (cloudPayload request) s = (.ok result, s')) :
    ∃ r r', s.records.get? request.id.val = some r ∧ s'.records.get? request.id.val = some r' ∧
      Patch.Lands (recordShowing encryptor) request.cloudPassed r r' ∧ CloudStamped env r r' := by
  obtain ⟨r, r₁, t, version, next, hr, hpatch, hversion, hnext, hr'⟩ := cloud_update_ok h
  obtain ⟨-, -, -, -, hfields, hprovenance, -⟩ := Cloud.patchContent_needs hlaw hr hpatch
  obtain ⟨hnew, hkept⟩ := content_of_patchContent hlaw hpatch
  have hpatched := Cloud.sameOwner_patchContent hpatch
  have howner := Cloud.sameOwner_patchFields (cloudPatch request.patch) r₁
  obtain ⟨hcontent₂, hprovenance₂⟩ := Cloud.envelopes_patchFields (cloudPatch request.patch) r₁
  -- the record that is stored, and what it has of the one before
  generalize hstored : Cloud.touch (env.now t).zulu
    ((Cloud.patchFields (cloudPatch request.patch) r₁).setField "version" next (by decide)) = r'
    at hr'
  have howner' : SameOwner r₁ r' := by
    rw [← hstored]
    exact howner
  have hcontent' : r'.contentCiphertext = r₁.contentCiphertext := by
    rw [← hstored]
    exact hcontent₂
  have hprovenance' : r'.provenanceCiphertext = r.provenanceCiphertext := by
    rw [← hstored, ← hprovenance]
    exact hprovenance₂
  have hget {key : String} (hne : key ≠ "version") (hne' : key ≠ "updated_at") :
      r'.fields.get key = (Cloud.patchFields (cloudPatch request.patch) r₁).fields.get key := by
    rw [← hstored]
    exact Cloud.get_touch hne hne' (by decide)
  simp only [get_patchFields, hfields] at hget hversion
  -- field by field, what the request passes on is stored
  refine ⟨r, r', hr, hr', fun f => ?_, ?_⟩
  · cases f with
    | content =>
      refine ⟨fun v hv => ?_, fun hnone text => ?_⟩
      · exact (contentIs_congr howner' hcontent' v).mpr (hnew v hv)
      · exact contentIs_congr (hpatched.trans howner') (hcontent'.trans (hkept hnone)) text
    | type => exact landed_of_or (@hget "type" (by decide) (by decide)) (Option.map_map _ _ _).symm
    | space => exact landed_of_or (@hget "space" (by decide) (by decide)) (Option.map_map _ _ _).symm
    | importance =>
      exact landed_of_or (@hget "importance" (by decide) (by decide)) (Option.map_map _ _ _).symm
    | confidence =>
      exact landed_of_or (@hget "confidence" (by decide) (by decide)) (Option.map_map _ _ _).symm
    | state => exact landed_of_or (@hget "state" (by decide) (by decide)) (Option.map_map _ _ _).symm
    | provenance =>
      -- the provenance is never passed on
      refine ⟨fun v hv => ?_, fun _ value => ?_⟩
      · have hnone : request.cloudPassed .provenance = none := rfl
        cases hnone.symm.trans hv
      · exact originIs_congr (hpatched.trans howner') hprovenance' value
  · constructor
    case version =>
      refine ⟨version, next, hversion, hnext, ?_⟩
      rw [← hstored]
      unfold Cloud.touch StoredRecord.setField
      dsimp only
      rw [Cloud.get_set, if_neg (by decide), Cloud.get_set, if_pos rfl]
    case updatedAt =>
      refine ⟨t, ?_⟩
      rw [← hstored]
      exact (Cloud.get_set _ _ _ _).trans (if_pos rfl)
    case identity => exact hpatched.trans howner'
    -- and the fields that no update sets stay
    case others =>
      intro key hkey
      simp only [updatedKeys, List.mem_cons, List.not_mem_nil, or_false, not_or] at hkey
      obtain ⟨h₁, h₂, h₃, h₄, h₅, h₆, h₇⟩ := hkey
      rw [hget h₆ h₇, if_neg h₅, if_neg h₄, if_neg h₃, if_neg h₂, if_neg h₁]

/-- Over the Cloud service an update is faithful exactly if the record shows its provenance. -/
theorem cloudUpdate_faithful_iff (hlaw : encryptor.Lawful)
    {validate : Cloud.CloudMemory R → Except PyError (MemoryRecord R)} {data : ResponseData R}
    (h : (UpdateService.cloud encryptor env validate).update request s = (.ok data, s')) :
    ∃ r r', s.records.get? request.id.val = some r ∧ s'.records.get? request.id.val = some r' ∧
      (CloudFaithful encryptor env request.named r r' ↔
        ∀ v, request.named .provenance = some v → (recordShowing encryptor).shows .provenance v r) := by
  -- the service has answered
  obtain ⟨result, hupdate⟩ : ∃ result,
      Cloud.update encryptor env (cloudPayload request) s = (.ok result, s') := by
    cases hrun : Cloud.update encryptor env (cloudPayload request) s with
    | mk outcome s₁ =>
      obtain ⟨hdata, rfl⟩ := Prod.mk.inj h
      rw [hrun] at hdata
      cases outcome with
      | error e => cases hdata
      | ok result => exact ⟨result, by rw [hrun]⟩
  obtain ⟨r, r', hr, hr', hlands, hstamped⟩ := cloud_update_lands hlaw hupdate
  refine ⟨r, r', hr, hr', ?_⟩
  -- what is named is passed on, but for the provenance
  have hiff := Patch.lands_iff_of_kept (p := request.named) recordShowing_same ?_ ?_ hlands
  · constructor
    · intro hfaithful v hv
      rcases hiff.mp hfaithful.1 .provenance v hv with hpassed | ⟨-, hshows⟩
      · have hnone : request.cloudPassed .provenance = none := rfl
        cases hnone.symm.trans hpassed
      · exact hshows
    · intro hshows
      refine ⟨hiff.mpr fun f v hv => ?_, hstamped⟩
      cases f with
      | provenance => exact .inr ⟨rfl, hshows v hv⟩
      | _ => exact .inl hv
  · intro f hnone
    cases f with
    | provenance => rfl
    | _ => exact hnone
  · -- both name the same values
    intro f v w hv hw _ _
    cases f with
    | provenance =>
      have hnone : request.cloudPassed .provenance = none := rfl
      cases hnone.symm.trans hw
    | _ => exact Option.some.inj (hv.symm.trans hw)

end CloudUpdate

/-! ## The four paths -/

/-- When a patch lands, for first executions that succeed: an M1 update always; a confirmation
exactly if the memory shows what is not handed on; a v0 update over the gateway always; over the
Cloud service exactly if the record shows the provenance already. -/
theorem patches_land_iff :
    (∀ (svc : MemoryApplicationService R) (p : M1Principal) (id : String) (v : Int)
      (patch : M1Patch R) (key : String) (control control' : M1LocalControl R) (data : M1Data R),
      control.store.Reachable → patch.Accepted →
      control.store.idempotencyOperations.get? (p.ownerId, .update, key) = none →
      invoke svc p (.update id v patch key) control = (.ok data, control') →
      ∃ m m', Persists id control.store control'.store m m' ∧
        Faithful (M1Provenance.ConveyedBy R) patch.named svc m m') ∧
    (∀ (svc : MemoryApplicationService R) (p : M1Principal) (id : String) (v : Int)
      (patch : Option (M1Patch R)) (key : String) (control control' : M1LocalControl R)
      (data : M1Data R),
      control.store.Reachable → (∀ patch', patch = some patch' → patch'.Accepted) →
      control.store.idempotencyOperations.get? (p.ownerId, .confirm, key) = none →
      invoke svc p (.inboxConfirm id v key patch) control = (.ok data, control') →
      ∃ m m', Persists id control.store control'.store m m' ∧
        (Faithful (M1Provenance.ConveyedBy R) (confirmationNamed (patch.getD {})) svc m m' ↔
          Confirmable (patch.getD {}) m)) ∧
    (∀ (svc : MemoryApplicationService R) (adapter : MCPAdapter R Arguments) (arguments : Arguments)
      (requestId : Option String) (request : UpdateRequest R) (rid : Text 1 128)
      (data : ResponseData R) (s s' : InMemoryStore R),
      s.Reachable → adapter.coercion.update arguments >>= UpdateRequest.modelValidate = .ok request →
      s.idempotencyOperations.get? (ledgerKey request) = none →
      adapter.callUpdate (.gateway svc) arguments requestId s = (.ok (.success rid data), s') →
      ∃ m m', Persists request.id.val s s' m m' ∧
        Faithful (WireProvenance.ConveyedBy R) request.named svc m m') ∧
    (∀ (encryptor : TenantEnvelopeEncryptor) (env : Cloud.Environment)
      (validate : Cloud.CloudMemory R → Except PyError (MemoryRecord R))
      (adapter : MCPAdapter R Arguments) (arguments : Arguments) (requestId : Option String)
      (request : UpdateRequest R) (rid : Text 1 128) (data : ResponseData R)
      (s s' : EncryptedCloudMemoryService R),
      encryptor.Lawful →
      adapter.coercion.update arguments >>= UpdateRequest.modelValidate = .ok request →
      adapter.callUpdate (.cloud encryptor env validate) arguments requestId s
        = (.ok (.success rid data), s') →
      ∃ r r', s.records.get? request.id.val = some r ∧ s'.records.get? request.id.val = some r' ∧
        (CloudFaithful encryptor env request.named r r' ↔
          ∀ v, request.named .provenance = some v →
            (recordShowing encryptor).shows .provenance v r)) := by
  refine ⟨?_, ?_, ?_, ?_⟩
  · intro svc p id v patch key control control' data hreach haccepted hfresh h
    exact m1Update_faithful hreach.inv.keyed haccepted hfresh h
  · intro svc p id v patch key control control' data hreach haccepted hfresh h
    exact confirm_faithful_iff hreach.inv.keyed haccepted hfresh h
  · intro svc adapter arguments requestId request rid data s s' hreach hparse hfresh h
    exact gatewayUpdate_faithful hreach.inv.keyed hfresh (MCPAdapter.callUpdate_success hparse h)
  · intro encryptor env validate adapter arguments requestId request rid data s s' hlaw hparse h
    exact cloudUpdate_faithful_iff hlaw (MCPAdapter.callUpdate_success hparse h)

/-- Tool calls are calls of the service. -/
theorem reachable_of_toolCalls {control : M1LocalControl R} (h : Reaches ToolCall {} control) :
    control.store.Reachable := by
  refine Reaches.kept (I := fun c : M1LocalControl R => c.store.Reachable) h ?_ .refl
  rintro c c' ⟨svc, p, tool, hfresh, rfl⟩ hreach
  unfold invoke
  cases hreq : request p tool with
  | error e => exact hreach
  | ok req =>
    dsimp only
    have hnext : Step (fun _ _ => True) c.store ((⟨svc, req⟩ : Call R).attempt c.store).2 :=
      ⟨⟨svc, req⟩, hfresh req hreq, trivial, rfl⟩
    cases hrun : (⟨svc, req⟩ : Call R).attempt c.store with
    | mk outcome store =>
      rw [hrun] at hnext
      cases outcome with
      | error e => exact hreach.tail hnext
      | ok response => exact hreach.tail hnext

/-- `memory.inbox.confirm` of the memory that was drawn first. -/
def confirmTool (patch : M1Patch ℚ) : M1Tool ℚ :=
  .inboxConfirm ((serviceOn 1 8).uuid4.str) 1 "c1" (some patch)

/-- `acme` confirms its note, with the patch. -/
def acmeConfirmed (patch : M1Patch ℚ) : Except M1Error (M1Data ℚ) × M1LocalControl ℚ :=
  invoke (serviceOn 2 9) (deskOf "acme") (confirmTool patch) acmeCaptured

theorem acmeConfirmed_ok {patch : M1Patch ℚ}
    (h : (acmeConfirmed patch).1.toOption.isSome = true) :
    ∃ data, acmeConfirmed patch = (.ok data, (acmeConfirmed patch).2) := by
  cases hanswer : (acmeConfirmed patch).1 with
  | error e =>
    rw [hanswer] at h
    cases h
  | ok data => exact ⟨data, Prod.ext hanswer rfl⟩

/-- What pydantic reads of a record of the Cloud service. -/
def deskValidate (memory : Cloud.CloudMemory ℚ) : Except PyError (MemoryRecord ℚ) :=
  let text (key : String) : String := (memory.fields.getText key).getD ""
  let number (key : String) : ℚ :=
    match memory.fields.get key with
    | some (.float x) => x
    | _ => -1
  let version : Int :=
    match memory.fields.get "version" with
    | some (.int n) => n
    | _ => 0
  let origin (key : String) : Option String :=
    match memory.provenance with
    | .obj members =>
      match JsonValue.member key members with
      | some (.str text) => some text
      | _ => none
    | _ => none
  MemoryRecord.modelValidate
    { id := memory.id, ownerId := memory.ownerId, content := memory.content, type := text "type"
      space := memory.fields.getText "space", importance := number "importance"
      confidence := number "confidence", state := text "state", version := version
      createdAt := text "created_at", updatedAt := text "updated_at"
      occurredAt := memory.fields.getText "occurred_at"
      provenance :=
        { sourceType := (origin "source_type").getD "", capturedAt := (origin "captured_at").getD ""
          sourceId := origin "source_id", sourceModel := origin "source_model"
          evidence := origin "evidence" } }

/-- The Cloud service after a write of a note. -/
def deskNoted : EncryptedCloudMemoryService ℚ :=
  (Cloud.write Cloud.deskEncryptor (Cloud.deskEnv 7)
    { Cloud.deskNote "k" "A" with
      provenance :=
        .obj [("source_type", .str "user"), ("captured_at", .str "2026-01-01T00:00:00Z")] }
    (Cloud.newService 1)).2

/-- Its owner raises the importance. -/
def deskRaise : UpdateDict ℚ :=
  { raiseImportance with id := Cloud.deskId, ownerId := Cloud.deskOwner, expectedVersion := 1 }

theorem trimBoth_deskId : trimBoth isTrimmed Cloud.deskId = Cloud.deskId := by decide +kernel

theorem length_deskId : 1 ≤ Cloud.deskId.length ∧ Cloud.deskId.length ≤ 128 := by
  decide +kernel

theorem trimBoth_deskOwner : trimBoth isTrimmed Cloud.deskOwner = Cloud.deskOwner := by
  decide +kernel

theorem length_deskOwner : 1 ≤ Cloud.deskOwner.length ∧ Cloud.deskOwner.length ≤ 128 := by
  decide +kernel

theorem firstVersion_admitted : decide ((1 : Int) ≤ 1) = true := rfl

def deskRaiseRequest : UpdateRequest ℚ :=
  { raiseRequest with
    id := ⟨Cloud.deskId, trimBoth_deskId, length_deskId⟩
    ownerId := ⟨Cloud.deskOwner, trimBoth_deskOwner, length_deskOwner⟩
    expectedVersion := ⟨1, firstVersion_admitted⟩ }

def deskRaised : Except PyError (Envelope ℚ) × EncryptedCloudMemoryService ℚ :=
  (adapterOn 3).callUpdate (.cloud Cloud.deskEncryptor (Cloud.deskEnv 8) deskValidate)
    (.update deskRaise) none deskNoted

/-- `acme` moves its note to another space as it confirms it, and the importance is all that the
owner of the other note patches. -/
theorem patches_land_iff_desk :
    (∃ m m', Persists (serviceOn 1 8).uuid4.str acmeCaptured.store
        (acmeConfirmed { space := some "MBA" }).2.store m m' ∧
      Faithful (M1Provenance.ConveyedBy ℚ) (confirmationNamed { space := some "MBA" })
        (serviceOn 2 9) m m') ∧
    ∃ r r', deskNoted.records.get? Cloud.deskId = some r ∧
      deskRaised.2.records.get? Cloud.deskId = some r' ∧
      CloudFaithful Cloud.deskEncryptor (Cloud.deskEnv 8) deskRaiseRequest.named r r' := by
  obtain ⟨-, hconfirm, -, hcloud⟩ := @patches_land_iff ℚ _ (TypedArguments ℚ)
  -- both calls succeed
  have hconfirmed : (acmeConfirmed { space := some "MBA" }).1.toOption.isSome = true := by
    decide +kernel
  have hraised : deskRaised.1.toOption.map Envelope.isFailure = some false := by decide +kernel
  constructor
  · obtain ⟨data, h⟩ := acmeConfirmed_ok hconfirmed
    have haccepted : ∀ patch' : M1Patch ℚ, some { space := some "MBA" } = some patch' →
        patch'.Accepted := by
      rintro _ ⟨⟩
      exact ⟨{ space := some "MBA" }, rfl⟩
    obtain ⟨m, m', hpersists, hiff⟩ := hconfirm _ _ _ _ _ _ _ _ data
      (reachable_of_toolCalls reaches_acmeCaptured) haccepted (by decide +kernel) h
    -- the request names no provenance, so it is faithful
    exact ⟨m, m', hpersists, hiff.mpr ⟨nofun, nofun, nofun, nofun⟩⟩
  · cases h : deskRaised with
    | mk answer s' =>
      rw [h] at hraised
      obtain ⟨envelope, henvelope, hsuccess⟩ := Option.map_eq_some_iff.mp hraised
      cases answer with
      | error e => cases henvelope
      | ok envelope' =>
        cases henvelope
        cases envelope with
        | failure rid error => cases hsuccess
        | success rid data =>
          obtain ⟨r, r', hr, hr', hiff⟩ := hcloud _ _ _ _ _ _ deskRaiseRequest rid data _ s'
            Cloud.deskEncryptor_lawful rfl h
          have hnone : deskRaiseRequest.named .provenance = none := rfl
          exact ⟨r, r', hr, hr', hiff.mpr fun v hv => nomatch hnone.symm.trans hv⟩

/-- A confirmation with another importance succeeds, and the note has the importance of before. -/
theorem confirm_drops_importance :
    ¬∀ (svc : MemoryApplicationService ℚ) (p : M1Principal) (id : String) (v : Int)
      (patch : Option (M1Patch ℚ)) (key : String) (control control' : M1LocalControl ℚ)
      (data : M1Data ℚ),
      control.store.Reachable → (∀ patch', patch = some patch' → patch'.Accepted) →
      control.store.idempotencyOperations.get? (p.ownerId, .confirm, key) = none →
      invoke svc p (.inboxConfirm id v key patch) control = (.ok data, control') →
      ∃ m m', Persists id control.store control'.store m m' ∧
        Faithful (M1Provenance.ConveyedBy ℚ) (confirmationNamed (patch.getD {})) svc m m' := by
  intro hclaim
  have hran : (acmeConfirmed { importance := some 1 }).1.toOption.isSome = true ∧
      ((acmeConfirmed { importance := some 1 }).2.store.memories.get? ⟨8⟩).map
        (fun m => m.importance) = some (1 / 2) := by
    decide +kernel
  obtain ⟨hconfirmed, hkept⟩ := hran
  obtain ⟨data, h⟩ := acmeConfirmed_ok hconfirmed
  have haccepted : ∀ patch' : M1Patch ℚ, some { importance := some 1 } = some patch' →
      patch'.Accepted := by
    rintro _ ⟨⟩
    exact ⟨{ importance := some 1 }, rfl⟩
  obtain ⟨m, m', ⟨i, hid, -, hm'⟩, hlands, -⟩ := hclaim _ _ _ _ _ _ _ _ data
    (reachable_of_toolCalls reaches_acmeCaptured) haccepted (by decide +kernel) h
  have hshown : m'.importance = 1 := (hlands .importance).1 (1 : ℚ) rfl
  have hparse : Python.parseUuid ℚ (serviceOn 1 8).uuid4.str = some ⟨8⟩ := by decide +kernel
  cases hparse.symm.trans hid
  rw [hm', Option.map_some, hshown] at hkept
  exact absurd hkept (by decide +kernel)

end OpenMemory.Mcp
