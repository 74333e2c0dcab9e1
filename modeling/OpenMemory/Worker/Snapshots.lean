import OpenMemory.Worker.Registry

/-!
# The worker's own snapshot

`restore` reads back what `snapshot` wrote. An item carries its job with its state and its counter
(`itemJob_item`), and for the jobs of one worker no item is a duplicate, because each of them is in
both indexes (`LocalTenantWorker.Registered.pairwise_distinct`). What is left is the clock: `verify`
runs before the state is looked at, so an expired envelope rejects the snapshot even when its job
would have been skipped.

`restart_exact_iff` is the consequence. A restart brings back the live jobs exactly when no envelope
of the worker has expired.
-/

namespace OpenMemory.Worker

open Lib Cloud

variable {R : Type} [WorkerLibrary R]

/-! ## One item -/

section Fields

variable {item : PyDict R} {key : String}

/-- A text field of an item is read as it is. -/
theorem itemText_str {s : String} (h : item.get key = some (.str s)) :
    itemText item key = .ok s := by
  unfold itemText itemAt
  rw [h]
  exact congrArg Except.ok (WorkerLibrary.str_str s)

/-- An id reads back. -/
theorem itemUuid_str {u : UUID} (h : item.get key = some (.str u.str)) :
    itemUuid item key = .ok u := by
  refine except_bind_ok.mpr ⟨_, itemText_str h, ?_⟩
  rw [WorkerLibrary.parseUuid_str]

/-- A time reads back. -/
theorem itemDatetime_isoformat {d : DateTime} (h : item.get key = some (.str d.isoformat)) :
    itemDatetime item key = .ok d := by
  refine except_bind_ok.mpr ⟨_, itemText_str h, ?_⟩
  rw [WorkerLibrary.fromisoformat_isoformat]

/-- A state reads back. -/
theorem itemState_value {state : JobState} (h : item.get key = some (.str state.value)) :
    itemState item key = .ok state := by
  refine except_bind_ok.mpr ⟨_, itemText_str h, ?_⟩
  rw [JobState.ofValue_value]

theorem itemInt_int {n : Int} (h : item.get key = some (.int n)) : itemInt item key = .ok n := by
  have htext : itemText item key = .ok (WorkerLibrary.str (R := R) (.int n)) := by
    unfold itemText itemAt
    rw [h]
    rfl
  refine except_bind_ok.mpr ⟨_, htext, ?_⟩
  rw [WorkerLibrary.int_str]

end Fields

/-- It does not matter which of two texts is the signature. -/
theorem compareDigest_comm (a b : String) : compareDigest a b = compareDigest b a := by
  unfold compareDigest
  rw [Bool.and_comm, decide_eq_decide.mpr eq_comm]

/-- An item is accepted with the tag of its own message, and with no other. -/
theorem checkItem_ok {secret : Bytes} {item : PyDict R} :
    checkItem secret item = .ok () ↔ ∃ message, snapshotInput item = .ok message ∧
      itemText item "snapshot_signature" = .ok (hmacHexdigest secret message) := by
  unfold checkItem
  rw [except_bind_ok]
  constructor
  · rintro ⟨signature, hsignature, h⟩
    obtain ⟨message, hmessage, h⟩ := except_bind_ok.mp h
    rw [compareDigest_comm] at h
    cases hsame : compareDigest (hmacHexdigest secret message) signature with
    | none =>
      rw [hsame] at h
      cases h
    | some same =>
      rw [hsame] at h
      cases same with
      | false => cases h
      | true => exact ⟨message, hmessage, compareDigest_hmac.mp hsame ▸ hsignature⟩
  · rintro ⟨message, hmessage, hsignature⟩
    refine ⟨_, hsignature, except_bind_ok.mpr ⟨_, hmessage, ?_⟩⟩
    rw [compareDigest_hmac.mpr rfl]
    rfl

namespace LocalJob

variable {job : LocalJob} {secret : Bytes} {now : DateTime}

omit [WorkerLibrary R] in
/-- The members of a job are texts and numbers. -/
theorem isPlain_members (job : LocalJob) : IsPlain (job.members R) := by
  intro e he
  simp only [members, List.mem_cons, List.not_mem_nil, or_false] at he
  rcases he with rfl | rfl | rfl | rfl | rfl | rfl | rfl | rfl | rfl | rfl
  all_goals first
    | exact ⟨_, rfl, .inl ⟨_, rfl⟩⟩
    | exact ⟨_, rfl, .inr ⟨_, rfl⟩⟩

/-- The signature covers the fields of the job, whatever else is in the item. -/
theorem snapshotInput_members (job : LocalJob) (rest : PyDict R) :
    ∃ text, WorkerLibrary.dumps (job.members R) = some text ∧
      snapshotInput (job.members R ++ rest) = .ok (encodeText text) := by
  obtain ⟨text, htext⟩ := Option.isSome_iff_exists.mp
    (WorkerLibrary.isSome_dumps _ (job.isPlain_members (R := R)))
  refine ⟨text, htext, ?_⟩
  have hvalues : (signedKeys.mapM fun key =>
      (itemAt (job.members R ++ rest) key).map fun value => (PyKey.str key, value)) =
        .ok (job.members R) := rfl
  unfold snapshotInput
  rw [hvalues]
  dsimp only [bind, Except.bind]
  rw [htext]

/-- The item of a job, with the text that is signed. -/
theorem item_eq (secret : Bytes) (job : LocalJob) :
    ∃ text, WorkerLibrary.dumps (job.members R) = some text ∧
      job.item R secret = .ok (job.members R ++
        [(.str "snapshot_signature", .str (hmacHexdigest secret (encodeText text)))]) := by
  obtain ⟨text, htext, hinput⟩ := job.snapshotInput_members (R := R) []
  refine ⟨text, htext, ?_⟩
  rw [List.append_nil] at hinput
  unfold item
  rw [hinput]
  rfl

variable {item : PyDict R}

/-- An item is signed with its own message, which is that of the fields of its job. -/
theorem item_ok (hitem : job.item R secret = .ok item) :
    ∃ message, snapshotInput (job.members R) = .ok message ∧ snapshotInput item = .ok message ∧
      item = job.members R ++ [(.str "snapshot_signature", .str (hmacHexdigest secret message))] := by
  obtain ⟨text, htext, heq⟩ := job.item_eq (R := R) secret
  cases heq.symm.trans hitem
  obtain ⟨text₁, htext₁, hinput⟩ := job.snapshotInput_members (R := R)
    [(.str "snapshot_signature", .str (hmacHexdigest secret (encodeText text)))]
  obtain ⟨text₂, htext₂, hplain⟩ := job.snapshotInput_members (R := R) []
  cases htext.symm.trans htext₁
  cases htext.symm.trans htext₂
  rw [List.append_nil] at hplain
  exact ⟨_, hplain, hinput, rfl⟩

/-- An item that a snapshot signed passes the check. -/
theorem checkItem_item (hitem : job.item R secret = .ok item) : checkItem secret item = .ok () := by
  obtain ⟨message, -, hinput, rfl⟩ := item_ok hitem
  exact checkItem_ok.mpr ⟨message, hinput, itemText_str rfl⟩

/-- Its envelope reads back. -/
theorem itemEnvelope_item (hitem : job.item R secret = .ok item) :
    itemEnvelope item = .ok job.envelope := by
  obtain ⟨text, -, heq⟩ := job.item_eq (R := R) secret
  cases heq.symm.trans hitem
  refine except_bind_ok.mpr ⟨_, itemUuid_str rfl, except_bind_ok.mpr ⟨_, itemUuid_str rfl,
    except_bind_ok.mpr ⟨_, itemUuid_str rfl, except_bind_ok.mpr ⟨_, itemDatetime_isoformat rfl,
    except_bind_ok.mpr ⟨_, itemText_str rfl, except_bind_ok.mpr ⟨_, itemText_str rfl, rfl⟩⟩⟩⟩⟩⟩

/-- An item gives its job back while the envelope is valid; a terminal job is skipped. -/
theorem itemJob_item (hjob : job.WellFormed secret) (hitem : job.item R secret = .ok item)
    (htime : now.instant < job.envelope.expiresAt.instant) :
    itemJob secret now item = .ok (if job.state.isTerminal then none else some job) := by
  have hverify : job.envelope.verify secret now = .ok () :=
    WorkerEnvelope.verify_ok_iff.mpr ⟨hjob.isSealed, htime⟩
  refine except_bind_ok.mpr ⟨_, checkItem_item hitem, except_bind_ok.mpr ⟨_, itemEnvelope_item hitem,
    except_bind_ok.mpr ⟨_, hverify, ?_⟩⟩⟩
  obtain ⟨text, -, heq⟩ := job.item_eq (R := R) secret
  cases heq.symm.trans hitem
  refine except_bind_ok.mpr ⟨_, itemState_value rfl, except_bind_ok.mpr ⟨_, itemInt_int rfl,
    except_bind_ok.mpr ⟨_, itemText_str rfl, except_bind_ok.mpr ⟨_, safeRef_ok.mpr ⟨hjob.dedupeKey, rfl⟩,
    except_bind_ok.mpr ⟨_, itemText_str rfl, except_bind_ok.mpr ⟨_, safeRef_ok.mpr ⟨hjob.payloadRef, rfl⟩,
    ?_⟩⟩⟩⟩⟩⟩
  have herror := hjob.error
  obtain ⟨envelope, dedupeKey, payloadRef, state, attempts, error⟩ := job
  have hcount : ¬(attempts : Int) < 0 := by omega
  obtain rfl : error = errorOf state := herror
  cases state <;> simp [JobState.isTerminal, errorOf, hcount, pure, Except.pure]

/-- An expired envelope is refused before the state is looked at. -/
theorem itemJob_item_of_expired (hitem : job.item R secret = .ok item)
    (htime : job.envelope.expiresAt.instant ≤ now.instant) (found : Option LocalJob) :
    itemJob secret now item ≠ .ok found := by
  intro h
  obtain ⟨⟨⟩, -, h⟩ := except_bind_ok.mp h
  obtain ⟨envelope, henvelope, h⟩ := except_bind_ok.mp h
  obtain ⟨⟨⟩, hverify, -⟩ := except_bind_ok.mp h
  cases (itemEnvelope_item hitem).symm.trans henvelope
  have hlt := (WorkerEnvelope.verify_ok_iff.mp hverify).2
  omega

end LocalJob

/-! ## The loop -/

/-- Jobs that no index confuses. -/
structure LocalJob.Distinct (a b : LocalJob) : Prop where
  jobId : a.envelope.jobId ≠ b.envelope.jobId
  key : a.key ≠ b.key
  nonce : a.nonceKey ≠ b.nonceKey

namespace Registry

/-- Nothing is registered under the job's id, its dedupe key or its nonce. -/
structure Free (r : Registry) (job : LocalJob) : Prop where
  jobId : r.jobs.get? job.envelope.jobId = none
  key : r.dedupe.get? job.key = none
  nonce : r.nonces.get? job.nonceKey = none

/-- The maps with the jobs that are in no terminal state. -/
def registerLive (jobs : List LocalJob) (r : Registry) : Registry :=
  (jobs.filter fun job => !job.state.isTerminal).foldl (fun r job => r.register job) r

variable {r : Registry} {a b job : LocalJob} {jobs : List LocalJob}

/-- Registering one job leaves room for another one that is distinct from it. -/
theorem Free.register (h : r.Free b) (hab : a.Distinct b) : (r.register a).Free b where
  jobId := (Dict.get?_set_of_ne _ _ hab.jobId.symm).trans h.jobId
  key := (Dict.get?_set_of_ne _ _ hab.key.symm).trans h.key
  nonce := (Dict.get?_set_of_ne _ _ hab.nonce.symm).trans h.nonce

/-- Jobs in a terminal state are left out. -/
theorem registerLive_cons (job : LocalJob) (jobs : List LocalJob) (r : Registry) :
    r.registerLive (job :: jobs) =
      (if job.state.isTerminal then r else r.register job).registerLive jobs := by
  unfold registerLive
  cases hterminal : job.state.isTerminal with
  | true => simp [hterminal]
  | false => simp [hterminal]

/-- The restored jobs follow the earlier ones, in order. -/
theorem items_registerLive (hdistinct : jobs.Pairwise LocalJob.Distinct)
    (hfree : ∀ job ∈ jobs, r.Free job) :
    (r.registerLive jobs).jobs.items = r.jobs.items ++
      (jobs.filter fun job => !job.state.isTerminal).map fun job => (job.envelope.jobId, job) := by
  induction jobs generalizing r with
  | nil => simp [registerLive]
  | cons job jobs ih =>
    obtain ⟨hjob, hjobs⟩ := List.forall_mem_cons.mp hfree
    obtain ⟨hhead, htail⟩ := List.pairwise_cons.mp hdistinct
    rw [registerLive_cons]
    cases hterminal : job.state.isTerminal with
    | true => simp [ih htail hjobs, hterminal]
    | false =>
      have hrest := ih (r := r.register job) htail fun job' hjob' =>
        (hjobs job' hjob').register (hhead job' hjob')
      have hnew : (r.register job).jobs.items = r.jobs.items ++ [(job.envelope.jobId, job)] :=
        Dict.items_set_of_get?_eq_none hjob.jobId job
      rw [hnew] at hrest
      simp [hrest, hterminal]

end Registry

section Loop

variable {secret : Bytes} {now : Nat → DateTime} {k : Nat} {jobs : List LocalJob}
  {items : List (PyDict R)} {r : Registry}

/-- The clock readings all come before the expiries. -/
def Unexpired (now : Nat → DateTime) (k : Nat) (jobs : List LocalJob) : Prop :=
  ∀ n job, jobs[n]? = some job → (now (k + n)).instant < job.envelope.expiresAt.instant

/-- Each envelope is judged by its own reading of the clock. -/
theorem unexpired_cons {job : LocalJob} :
    Unexpired now k (job :: jobs) ↔
      (now k).instant < job.envelope.expiresAt.instant ∧ Unexpired now (k + 1) jobs := by
  constructor
  · intro h
    refine ⟨h 0 job rfl, fun n job' hn => ?_⟩
    have htime := h (n + 1) job' hn
    rwa [show k + (n + 1) = k + 1 + n by omega] at htime
  · rintro ⟨hhead, htail⟩ n job' hn
    cases n with
    | zero =>
      cases hn
      exact hhead
    | succ n =>
      have htime := htail n job' hn
      rwa [show k + 1 + n = k + (n + 1) by omega] at htime

/-- While no envelope has expired, the loop registers the jobs that are in no terminal state. -/
theorem restoreItems_of_unexpired
    (hitems : List.Forall₂ (fun job item => job.item R secret = .ok item) jobs items)
    (hjobs : ∀ job ∈ jobs, job.WellFormed secret) (hdistinct : jobs.Pairwise LocalJob.Distinct)
    (hfree : ∀ job ∈ jobs, r.Free job) (htime : Unexpired now k jobs) :
    restoreItems secret now k items r = .ok (r.registerLive jobs) := by
  induction hitems generalizing k r with
  | nil => rfl
  | @cons job item jobs items hitem hrest ih =>
    obtain ⟨hhead, htail⟩ := unexpired_cons.mp htime
    obtain ⟨hjob, hjobs⟩ := List.forall_mem_cons.mp hjobs
    obtain ⟨hfreeJob, hfree⟩ := List.forall_mem_cons.mp hfree
    obtain ⟨hdistinctJob, hdistinct⟩ := List.pairwise_cons.mp hdistinct
    have hread := LocalJob.itemJob_item hjob hitem hhead
    rw [Registry.registerLive_cons]
    cases hterminal : job.state.isTerminal with
    | true =>
      rw [hterminal] at hread
      have hitem : restoreItem secret (now k) item r = .ok r :=
        except_bind_ok.mpr ⟨none, hread, rfl⟩
      exact except_bind_ok.mpr ⟨r, hitem, ih hjobs hdistinct hfree htail⟩
    | false =>
      rw [hterminal] at hread
      have hadd : r.add job = .ok (r.register job) :=
        Registry.add_ok.mpr ⟨hfreeJob.jobId, hfreeJob.key, hfreeJob.nonce, rfl⟩
      have hitem : restoreItem secret (now k) item r = .ok (r.register job) :=
        except_bind_ok.mpr ⟨some job, hread, hadd⟩
      have hfree' : ∀ job' ∈ jobs, (r.register job).Free job' := fun job' hjob' =>
        (hfree job' hjob').register (hdistinctJob job' hjob')
      exact except_bind_ok.mpr ⟨_, hitem, ih hjobs hdistinct hfree' htail⟩

/-- A snapshot is only read to its end while no envelope has expired. -/
theorem unexpired_of_restoreItems
    (hitems : List.Forall₂ (fun job item => job.item R secret = .ok item) jobs items)
    {r' : Registry} (h : restoreItems secret now k items r = .ok r') : Unexpired now k jobs := by
  induction hitems generalizing k r with
  | nil => exact fun n job hn => by cases hn
  | @cons job item jobs items hitem hrest ih =>
    obtain ⟨r₁, hr₁, h⟩ := except_bind_ok.mp h
    obtain ⟨found, hread, -⟩ := except_bind_ok.mp hr₁
    refine unexpired_cons.mpr ⟨?_, ih h⟩
    by_contra htime
    exact LocalJob.itemJob_item_of_expired hitem (by omega) found hread

/-- A snapshot is only read to its end if all its items are accepted. -/
theorem checkItem_of_restoreItems {r' : Registry}
    (h : restoreItems secret now k items r = .ok r') :
    ∀ item ∈ items, checkItem secret item = .ok () := by
  induction items generalizing k r with
  | nil => exact fun _ hitem => absurd hitem List.not_mem_nil
  | cons item items ih =>
    obtain ⟨r₁, hone, hrest⟩ := except_bind_ok.mp h
    obtain ⟨found, hread, -⟩ := except_bind_ok.mp hone
    obtain ⟨⟨⟩, hcheck, -⟩ := except_bind_ok.mp hread
    exact List.forall_mem_cons.mpr ⟨hcheck, ih hrest⟩

end Loop

/-! ## Snapshot and restore -/

namespace LocalTenantWorker

variable {w target : LocalTenantWorker} {now : Nat → DateTime}

/-- The jobs of a worker differ in ids, keys and nonces. -/
theorem Registered.pairwise_distinct (h : w.Registered) :
    w.jobs.values.Pairwise LocalJob.Distinct := by
  refine List.pairwise_map.mpr ((List.pairwise_map.mp w.jobs.nodup).imp_of_mem ?_)
  rintro ⟨i, a⟩ ⟨j, b⟩ hi hj (hne : i ≠ j)
  have ha := (Dict.mem_items_iff _ _ _).mp hi
  have hb := (Dict.mem_items_iff _ _ _).mp hj
  refine ⟨?_, ?_, ?_⟩
  · show a.envelope.jobId ≠ b.envelope.jobId
    rw [h.indexed.jobId i a ha, h.indexed.jobId j b hb]
    exact hne
  · intro hkey
    have hindexed := h.indexed.key i a ha
    rw [hkey, h.indexed.key j b hb] at hindexed
    exact hne (Option.some.inj hindexed).symm
  · intro hnonce
    have hindexed := h.indexed.nonce i a ha
    rw [hnonce, h.indexed.nonce j b hb] at hindexed
    exact hne (Option.some.inj hindexed).symm

/-- Every worker has a snapshot, with an item for each job. -/
theorem exists_snapshot (w : LocalTenantWorker) :
    ∃ items, w.snapshot R = .ok items ∧
      List.Forall₂ (fun job item => job.item R w.secret = .ok item) w.jobs.values items := by
  obtain ⟨items, hitems⟩ := exists_mapM_ok.mpr fun job (_ : job ∈ w.jobs.values) => by
    obtain ⟨text, -, h⟩ := job.item_eq (R := R) w.secret
    exact ⟨_, h⟩
  exact ⟨items, hitems, mapM_ok.mp hitems⟩

/-- They are well formed. -/
theorem Registered.wellFormed_of_mem (h : w.Registered) {job : LocalJob}
    (hjob : job ∈ w.jobs.values) : job.WellFormed w.secret := by
  obtain ⟨j, hj⟩ := (Dict.mem_values_iff _ _).mp hjob
  exact h.wellFormed j job hj

/-- The jobs of a worker that a restart brings back, under their ids. -/
theorem Registered.jobs_registerLive (h : w.Registered) :
    (Registry.registerLive w.jobs.values {}).jobs =
      w.jobs.filter fun _ job => !job.state.isTerminal := by
  refine Dict.ext ?_
  rw [Registry.items_registerLive h.pairwise_distinct fun _ _ => ⟨rfl, rfl, rfl⟩]
  show [] ++ ((w.jobs.items.map Prod.snd).filter _).map _ = w.jobs.items.filter _
  rw [List.nil_append, List.filter_map, List.map_map]
  refine (List.map_congr_left ?_).trans (List.map_id _)
  rintro ⟨j, job⟩ hmem
  have hjob := (Dict.mem_items_iff _ _ _).mp (List.mem_of_mem_filter hmem)
  exact Prod.ext (h.indexed.jobId j job hjob) rfl

/-- A restart from the worker's own snapshot, while no envelope has expired. -/
theorem Registered.restore_of_unexpired (h : w.Registered) (hsecret : target.secret = w.secret)
    {items : List (PyDict R)} (hitems : w.snapshot R = .ok items)
    (htime : Unexpired now 0 w.jobs.values) :
    target.restore now items =
      (.ok (Registry.registerLive w.jobs.values {}).jobs.items.length,
        target.install (Registry.registerLive w.jobs.values {})) := by
  have hloop := restoreItems_of_unexpired (r := {}) (mapM_ok.mp hitems)
    (fun job => h.wellFormed_of_mem) h.pairwise_distinct (fun _ _ => ⟨rfl, rfl, rfl⟩) htime
  unfold restore
  rw [hsecret, hloop]

/-- A restart from the worker's own snapshot, when an envelope has expired. -/
theorem restore_of_expired (hsecret : target.secret = w.secret) {items : List (PyDict R)}
    (hitems : w.snapshot R = .ok items) (htime : ¬Unexpired now 0 w.jobs.values) :
    target.restore now items =
      (.error (.permissionError "worker snapshot rejected"), target) := by
  unfold restore
  rw [hsecret]
  cases hloop : restoreItems w.secret now 0 items {} with
  | error e => rfl
  | ok r => exact absurd (unexpired_of_restoreItems (mapM_ok.mp hitems) hloop) htime

/-- The jobs that a restart is to bring back: pending or failed ones, with an envelope that has not
expired when its item is read. -/
def surviving (now : Nat → DateTime) (w : LocalTenantWorker) : List LocalJob :=
  (w.jobs.values.zipIdx.filter fun e =>
    !e.1.state.isTerminal && decide ((now e.2).instant < e.1.envelope.expiresAt.instant)).map
      Prod.fst

/-- Where nothing has expired, the jobs that are not terminal survive. -/
theorem surviving_of_unexpired (htime : Unexpired now 0 w.jobs.values) :
    w.surviving now = w.jobs.values.filter fun job => !job.state.isTerminal := by
  have hlive : (w.jobs.values.zipIdx.filter fun e =>
      !e.1.state.isTerminal && decide ((now e.2).instant < e.1.envelope.expiresAt.instant)) =
        w.jobs.values.zipIdx.filter ((fun job => !job.state.isTerminal) ∘ Prod.fst) := by
    refine List.filter_congr ?_
    rintro ⟨job, n⟩ hmem
    have hlt := htime n job (List.mem_zipIdx_iff_getElem?.mp hmem)
    rw [Nat.zero_add] at hlt
    simp [hlt]
  unfold surviving
  rw [hlive, ← List.filter_map, List.zipIdx_map_fst]

end LocalTenantWorker

/-- A restart of `w`, by `target`, brings back exactly the live jobs; and what `target` rejects does
not change it. -/
structure RestartExact (R : Type) [WorkerLibrary R] (now : Nat → DateTime)
    (w target : LocalTenantWorker) : Prop where
  restored : ∃ items n w', w.snapshot R = .ok items ∧ target.restore now items = (.ok n, w') ∧
    w'.jobs.items = (w.surviving now).map fun job => (job.envelope.jobId, job)
  rejected : ∀ (now' : Nat → DateTime) (snapshot : List (PyDict R)) (e : CloudError),
    (target.restore now' snapshot).1 = .error e → (target.restore now' snapshot).2 = target

/-- A snapshot that is rejected changes nothing. -/
theorem LocalTenantWorker.restore_rejected (now : Nat → DateTime) (snapshot : List (PyDict R))
    (w : LocalTenantWorker) {e : CloudError} (h : (w.restore now snapshot).1 = .error e) :
    (w.restore now snapshot).2 = w := by
  rcases w.restore_cases now snapshot with ⟨e', hrun⟩ | ⟨r, -, hrun⟩
  · rw [hrun]
  · rw [hrun] at h
    cases h

/-- Where something has, the restart is not exact. -/
theorem not_restartExact {w target : LocalTenantWorker} {now : Nat → DateTime}
    (hsecret : target.secret = w.secret) (htime : ¬Unexpired now 0 w.jobs.values) :
    ¬RestartExact R now w target := by
  rintro ⟨⟨items, n, w', hitems, hrestore, -⟩, -⟩
  rw [LocalTenantWorker.restore_of_expired hsecret hitems htime] at hrestore
  cases hrestore

/-- A restart is exact if and only if every envelope of the worker is unexpired when its item is
read, those of terminal jobs included. -/
theorem restart_exact_iff (w : LocalTenantWorker) (calls : List (WorkerCall R))
    (target : LocalTenantWorker) (hsecret : target.secret = w.secret) (now : Nat → DateTime) :
    RestartExact R now (play WorkerCall.step w.fresh calls) target ↔
      ∀ n job, (play WorkerCall.step w.fresh calls).jobs.values[n]? = some job →
        (now n).instant < job.envelope.expiresAt.instant := by
  have hregistered := registered_play w calls
  have hsecret' : target.secret = (play WorkerCall.step w.fresh calls).secret := by
    rw [(config_play w calls).1, hsecret]
  have hunexpired : (∀ n job, (play WorkerCall.step w.fresh calls).jobs.values[n]? = some job →
      (now n).instant < job.envelope.expiresAt.instant) ↔
        Unexpired now 0 (play WorkerCall.step w.fresh calls).jobs.values := by
    simp [Unexpired]
  rw [hunexpired]
  constructor
  · intro hexact
    by_contra htime
    exact not_restartExact hsecret' htime hexact
  · intro htime
    refine ⟨?_, fun now' snapshot e => target.restore_rejected now' snapshot⟩
    obtain ⟨items, hitems, -⟩ := (play WorkerCall.step w.fresh calls).exists_snapshot (R := R)
    refine ⟨items, _, _, hitems, hregistered.restore_of_unexpired hsecret' hitems htime, ?_⟩
    rw [LocalTenantWorker.surviving_of_unexpired htime]
    exact Registry.items_registerLive hregistered.pairwise_distinct fun _ _ => ⟨rfl, rfl, rfl⟩

/-- The desk with one job: a restart on the second day brings it back. -/
theorem restart_exact_iff_desk :
    RestartExact ℚ (fun _ => day2026 2) (play WorkerCall.step deskWorker.fresh [deskEnqueue 1])
        deskWorker ↔
      ∀ (n : Nat) (job : LocalJob),
        (play WorkerCall.step deskWorker.fresh [deskEnqueue 1]).jobs.values[n]? = some job →
          (day2026 2).instant < job.envelope.expiresAt.instant :=
  restart_exact_iff deskWorker [deskEnqueue 1] deskWorker rfl fun _ => day2026 2

/-! ### A job lost to an expired neighbour -/

/-- An envelope of another tenant that expires on day 300. -/
def lateEnvelope : WorkerEnvelope :=
  WorkerEnvelope.sign [7]
    { jobId := ⟨10⟩, tenantId := ⟨2⟩, principalId := ⟨5⟩, expiresAt := day2026 300
      nonce := "job-2", signature := "" }

def lateEnqueue : WorkerCall ℚ := .enqueue (day2026 1) lateEnvelope "embed:1" "memory:1"

/-- On day 200 the envelope of the first job has expired, and the second job is not restored
either. -/
theorem live_job_lost :
    ¬∀ (w : LocalTenantWorker) (calls : List (WorkerCall ℚ)) (target : LocalTenantWorker)
        (now : DateTime), target.secret = w.secret →
      RestartExact ℚ (fun _ => now) (play WorkerCall.step w.fresh calls) target := by
  intro hclaim
  have hsealed : lateEnvelope.Sealed [7] :=
    WorkerEnvelope.sealed_sign (by decide) (by decide) (by decide)
  have haccepts := accepts_of (w := busyWorker) hsealed
    (show (day2026 1).instant < (day2026 300).instant by decide) isRef_embed isRef_memory
    (by decide) (by decide)
  have hexact := hclaim deskWorker [deskEnqueue 1, lateEnqueue] deskWorker (day2026 200) rfl
  rw [play_cons, play_cons, play_nil, step_deskEnqueue, lateEnqueue,
    WorkerCall.step_of_accepts haccepts] at hexact
  refine not_restartExact ?_ (fun htime => ?_) hexact
  · rfl
  · exact absurd (htime 0 _ rfl)
      (show ¬(day2026 200).instant < (day2026 100).instant by decide)

end OpenMemory.Worker
