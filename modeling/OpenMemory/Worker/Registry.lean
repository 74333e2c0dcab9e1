import OpenMemory.Lib.Runs
import OpenMemory.Worker.Model

/-!
# The registry of the worker

A job is found under its id, its tenant and dedupe key, and its tenant and nonce. Every job of a
worker is in both indexes, whatever the calls were (`Registry.Indexed`). The converse, that an index
entry leads to the job it was made for (`Registry.Resolves`), needs one thing that `enqueue` does not
check and `restore` does: that the id of a new job is not taken (`Reuses`).

`registry_sound_iff` says that this is all: the calls of a run keep the registry consistent, keep
earlier jobs and hand a tenant its own jobs exactly when none of them reuses an id.
-/

namespace OpenMemory.Worker

open Lib Cloud

variable {R : Type} [WorkerLibrary R]

/-! ## What the checks say -/

/-- What `verify` checks besides the time. -/
structure WorkerEnvelope.Sealed (secret : Bytes) (e : WorkerEnvelope) : Prop where
  aware : e.expiresAt.offset ≠ none
  nonce_ne_empty : e.nonce ≠ ""
  length_nonce_le : e.nonce.length ≤ 256
  signed : e.signature = hmacHexdigest secret e.signingInput

/-- A signature passes exactly if it is the tag. -/
theorem compareDigest_hmac {secret message : Bytes} {signature : String} :
    compareDigest (hmacHexdigest secret message) signature = some true ↔
      signature = hmacHexdigest secret message := by
  have hascii := isAscii_hmacHexdigest secret message
  unfold compareDigest
  rw [hascii, Bool.true_and]
  constructor
  · intro h
    split at h
    · exact (of_decide_eq_true (Option.some.inj h)).symm
    · cases h
  · rintro rfl
    rw [if_pos hascii, decide_eq_true rfl]

/-- An envelope is accepted exactly if it is sealed and has not expired. -/
theorem WorkerEnvelope.verify_ok_iff {e : WorkerEnvelope} {secret : Bytes} {now : DateTime} :
    e.verify secret now = .ok () ↔ e.Sealed secret ∧ now.instant < e.expiresAt.instant := by
  unfold verify
  by_cases hrefused : e.expiresAt.offset = none ∨ e.nonce = "" ∨ 256 < e.nonce.length ∨
      e.expiresAt.instant ≤ now.instant
  -- one of the checks refuses the envelope
  · rw [if_pos hrefused]
    refine iff_of_false (by simp) ?_
    rintro ⟨hsealed, htime⟩
    rcases hrefused with hnaive | hempty | hlong | hexpired
    · exact hsealed.aware hnaive
    · exact hsealed.nonce_ne_empty hempty
    · exact absurd hsealed.length_nonce_le (by omega)
    · omega
  -- they pass, and the digests are compared
  · rw [if_neg hrefused]
    push Not at hrefused
    obtain ⟨haware, hempty, hlong, htime⟩ := hrefused
    constructor
    · intro h
      have hsame : compareDigest (hmacHexdigest secret e.signingInput) e.signature = some true := by
        cases hcompare : compareDigest (hmacHexdigest secret e.signingInput) e.signature with
        | none =>
          rw [hcompare] at h
          cases h
        | some same =>
          rw [hcompare] at h
          cases same with
          | false => cases h
          | true => rfl
      exact ⟨⟨haware, hempty, hlong, compareDigest_hmac.mp hsame⟩, htime⟩
    · rintro ⟨hsealed, -⟩
      rw [compareDigest_hmac.mpr hsealed.signed]
      rfl

/-- An opaque reference. -/
structure IsRef (value : String) : Prop where
  ne_empty : value ≠ ""
  length_le : value.length ≤ 256
  chars : value.toList.all isRefChar = true

/-- A reference that passes is returned as it is. -/
theorem safeRef_ok {value label result : String} :
    safeRef value label = .ok result ↔ IsRef value ∧ result = value := by
  unfold safeRef
  by_cases hrefused : value = "" ∨ 256 < value.length ∨ value.toList.all isRefChar = false
  · rw [if_pos hrefused]
    refine iff_of_false (by simp) ?_
    rintro ⟨href, -⟩
    rcases hrefused with hempty | hlong | hchars
    · exact href.ne_empty hempty
    · exact absurd href.length_le (by omega)
    · rw [href.chars] at hchars
      cases hchars
  · rw [if_neg hrefused]
    push Not at hrefused
    obtain ⟨hempty, hlong, hchars⟩ := hrefused
    rw [Bool.ne_false_iff] at hchars
    simp [show IsRef value from ⟨hempty, hlong, hchars⟩, eq_comm]

/-- The error that goes with a state. -/
def errorOf : JobState → Option String
  | .failed => some "worker execution failed"
  | .deadLetter => some "worker execution failed"
  | _ => none

/-- What is true of every job a worker holds. -/
structure LocalJob.WellFormed (secret : Bytes) (job : LocalJob) : Prop where
  isSealed : job.envelope.Sealed secret
  dedupeKey : IsRef job.dedupeKey
  payloadRef : IsRef job.payloadRef
  error : job.error = errorOf job.state

/-- What `enqueue` makes a job of, before it looks at the registry. -/
theorem LocalTenantWorker.vet_ok {w : LocalTenantWorker} {now : DateTime}
    {envelope : WorkerEnvelope} {dedupeKey payloadRef : String} {job : LocalJob} :
    w.vet now envelope dedupeKey payloadRef = .ok job ↔
      (envelope.Sealed w.secret ∧ now.instant < envelope.expiresAt.instant) ∧ IsRef dedupeKey ∧
        IsRef payloadRef ∧
        job = { envelope := envelope, dedupeKey := dedupeKey, payloadRef := payloadRef } := by
  simp only [vet, except_bind_ok, except_pure_ok, safeRef_ok]
  constructor
  · rintro ⟨⟨⟩, hverify, _, ⟨hkey, rfl⟩, _, ⟨hpayload, rfl⟩, rfl⟩
    exact ⟨WorkerEnvelope.verify_ok_iff.mp hverify, hkey, hpayload, rfl⟩
  · rintro ⟨hverify, hkey, hpayload, rfl⟩
    exact ⟨(), WorkerEnvelope.verify_ok_iff.mpr hverify, _, ⟨hkey, rfl⟩, _, ⟨hpayload, rfl⟩, rfl⟩

/-! ## The indexes -/

namespace Registry

/-- Every job is under its own id and in both indexes. -/
structure Indexed (r : Registry) : Prop where
  jobId : ∀ j job, r.jobs.get? j = some job → job.envelope.jobId = j
  key : ∀ j job, r.jobs.get? j = some job → r.dedupe.get? job.key = some j
  nonce : ∀ j job, r.jobs.get? j = some job → r.nonces.get? job.nonceKey = some j

/-- Every index entry leads to a job with that key. -/
structure Resolves (r : Registry) : Prop where
  key : ∀ k j, r.dedupe.get? k = some j → ∃ job, r.jobs.get? j = some job ∧ job.key = k
  nonce : ∀ k j, r.nonces.get? k = some j → ∃ job, r.jobs.get? j = some job ∧ job.nonceKey = k

theorem indexed_empty : Indexed {} where
  jobId _ _ h := by cases h
  key _ _ h := by cases h
  nonce _ _ h := by cases h

theorem resolves_empty : Resolves {} where
  key _ _ h := by cases h
  nonce _ _ h := by cases h

variable {r : Registry} {job : LocalJob}

/-- A registered job is found under its id, and the others where they were. -/
theorem get?_jobs_register {j : UUID} {job' : LocalJob} :
    (r.register job).jobs.get? j = some job' ↔
      j = job.envelope.jobId ∧ job' = job ∨
        j ≠ job.envelope.jobId ∧ r.jobs.get? j = some job' := by
  show (r.jobs.set job.envelope.jobId job).get? j = some job' ↔ _
  rw [Dict.get?_set]
  by_cases hid : j = job.envelope.jobId
  · simp [hid, eq_comm]
  · simp [hid]

/-- A job with a new key and a new nonce can be registered. -/
theorem Indexed.register (h : r.Indexed) (hkey : r.dedupe.get? job.key = none)
    (hnonce : r.nonces.get? job.nonceKey = none) : (r.register job).Indexed := by
  refine ⟨?_, ?_, ?_⟩
  · intro j job' hj
    rcases get?_jobs_register.mp hj with ⟨rfl, rfl⟩ | ⟨-, hold⟩
    · rfl
    · exact h.jobId j job' hold
  · intro j job' hj
    rcases get?_jobs_register.mp hj with ⟨rfl, rfl⟩ | ⟨-, hold⟩
    · exact Dict.get?_set_self _ _ _
    · -- the key of an earlier job is taken, the new one was not
      have hne : job'.key ≠ job.key := by
        intro heq
        have hindexed := h.key j job' hold
        rw [heq, hkey] at hindexed
        cases hindexed
      exact (Dict.get?_set_of_ne _ _ hne).trans (h.key j job' hold)
  · intro j job' hj
    rcases get?_jobs_register.mp hj with ⟨rfl, rfl⟩ | ⟨-, hold⟩
    · exact Dict.get?_set_self _ _ _
    -- so is its nonce
    · have hne : job'.nonceKey ≠ job.nonceKey := by
        intro heq
        have hindexed := h.nonce j job' hold
        rw [heq, hnonce] at hindexed
        cases hindexed
      exact (Dict.get?_set_of_ne _ _ hne).trans (h.nonce j job' hold)

/-- A new job under a new id leaves the entries of the others alone. -/
theorem Resolves.register (h : r.Resolves) (hid : r.jobs.get? job.envelope.jobId = none) :
    (r.register job).Resolves := by
  -- the id is new, so no earlier job is replaced
  have hold : ∀ j job', r.jobs.get? j = some job' → (r.register job).jobs.get? j = some job' := by
    intro j job' hj
    refine get?_jobs_register.mpr (.inr ⟨?_, hj⟩)
    rintro rfl
    rw [hid] at hj
    cases hj
  have hnew : (r.register job).jobs.get? job.envelope.jobId = some job := Dict.get?_set_self _ _ _
  -- a key leads to the new job or to an earlier one
  constructor
  · intro k j hk
    change (r.dedupe.set job.key job.envelope.jobId).get? k = some j at hk
    rw [Dict.get?_set] at hk
    by_cases hkey : k = job.key
    · rw [if_pos hkey] at hk
      cases hk
      exact ⟨job, hnew, hkey.symm⟩
    · rw [if_neg hkey] at hk
      obtain ⟨job', hj, hkey'⟩ := h.key k j hk
      exact ⟨job', hold j job' hj, hkey'⟩
  -- so does a nonce
  · intro k j hk
    change (r.nonces.set job.nonceKey job.envelope.jobId).get? k = some j at hk
    rw [Dict.get?_set] at hk
    by_cases hnonce : k = job.nonceKey
    · rw [if_pos hnonce] at hk
      cases hk
      exact ⟨job, hnew, hnonce.symm⟩
    · rw [if_neg hnonce] at hk
      obtain ⟨job', hj, hnonce'⟩ := h.nonce k j hk
      exact ⟨job', hold j job' hj, hnonce'⟩

end Registry

/-! ## One call -/

/-- The job with another state, counter and error. -/
structure LocalJob.SameJob (job job' : LocalJob) : Prop where
  envelope : job'.envelope = job.envelope
  dedupeKey : job'.dedupeKey = job.dedupeKey
  payloadRef : job'.payloadRef = job.payloadRef

theorem LocalJob.SameJob.trans {a b c : LocalJob} (hab : a.SameJob b) (hbc : b.SameJob c) :
    a.SameJob c :=
  ⟨hbc.envelope.trans hab.envelope, hbc.dedupeKey.trans hab.dedupeKey,
    hbc.payloadRef.trans hab.payloadRef⟩

theorem LocalJob.SameJob.key {job job' : LocalJob} (h : job.SameJob job') : job'.key = job.key := by
  unfold LocalJob.key
  rw [h.envelope, h.dedupeKey]

theorem LocalJob.SameJob.nonceKey {job job' : LocalJob} (h : job.SameJob job') :
    job'.nonceKey = job.nonceKey := by
  unfold LocalJob.nonceKey
  rw [h.envelope]

namespace LocalJob

variable {job : LocalJob} {secret : Bytes} {maxAttempts : Nat} {now : DateTime}
  {outcome : HandlerOutcome}

theorem sameJob_fail (maxAttempts : Nat) (job : LocalJob) : job.SameJob (job.fail maxAttempts) :=
  ⟨rfl, rfl, rfl⟩

theorem error_fail (maxAttempts : Nat) (job : LocalJob) :
    (job.fail maxAttempts).error = errorOf (job.fail maxAttempts).state := by
  unfold fail
  dsimp only
  split <;> rfl

/-- A job that fails without a dead letter has attempts left. -/
theorem isTerminal_fail :
    (job.fail maxAttempts).state.isTerminal = false ↔ job.attempts < maxAttempts := by
  unfold fail
  dsimp only
  split
  · rename_i hspent
    exact iff_of_false (by simp [JobState.isTerminal]) (by omega)
  · rename_i hleft
    exact iff_of_true rfl (by omega)

theorem sameJob_settle (maxAttempts : Nat) (outcome : HandlerOutcome) (job : LocalJob) :
    job.SameJob (job.settle maxAttempts outcome) := by
  cases outcome with
  | raised => exact sameJob_fail maxAttempts job
  | returned result =>
    unfold settle
    dsimp only
    split
    · exact ⟨rfl, rfl, rfl⟩
    · exact sameJob_fail maxAttempts job

/-- The error of a settled job is the one of its state. -/
theorem error_settle (maxAttempts : Nat) (outcome : HandlerOutcome) (job : LocalJob) :
    (job.settle maxAttempts outcome).error = errorOf (job.settle maxAttempts outcome).state := by
  cases outcome with
  | raised => exact error_fail maxAttempts job
  | returned result =>
    unfold settle
    dsimp only
    split
    · rename_i hresult
      rcases hresult with rfl | rfl <;> rfl
    · exact error_fail maxAttempts job

/-- The three ways a call of `run_one` ends. -/
theorem runOne_cases (secret : Bytes) (maxAttempts : Nat) (now : DateTime)
    (outcome : HandlerOutcome) (job : LocalJob) :
    (job.state.isTerminal = true ∧ job.runOne secret maxAttempts now outcome = job) ∨
    (job.state.isTerminal = false ∧ job.envelope.verify secret now ≠ .ok () ∧
      job.runOne secret maxAttempts now outcome = job.fail maxAttempts) ∨
    (job.state.isTerminal = false ∧ job.envelope.verify secret now = .ok () ∧
      job.runOne secret maxAttempts now outcome =
        LocalJob.settle maxAttempts outcome { job with attempts := job.attempts + 1 }) := by
  unfold runOne start
  cases hterminal : job.state.isTerminal with
  | true => exact .inl ⟨rfl, rfl⟩
  | false =>
    cases hverify : job.envelope.verify secret now with
    | error e => exact .inr (.inl ⟨rfl, by simp, rfl⟩)
    | ok u => exact .inr (.inr ⟨rfl, rfl, rfl⟩)

/-- A terminal job is left alone. -/
theorem runOne_of_isTerminal (h : job.state.isTerminal = true) :
    job.runOne secret maxAttempts now outcome = job := by
  unfold runOne start
  rw [h]
  rfl

/-- Running a job changes its state, its attempts and its error only. -/
theorem sameJob_runOne (secret : Bytes) (maxAttempts : Nat) (now : DateTime)
    (outcome : HandlerOutcome) (job : LocalJob) :
    job.SameJob (job.runOne secret maxAttempts now outcome) := by
  rcases runOne_cases secret maxAttempts now outcome job with ⟨-, h⟩ | ⟨-, -, h⟩ | ⟨-, -, h⟩
  · rw [h]
    exact ⟨rfl, rfl, rfl⟩
  · rw [h]
    exact sameJob_fail maxAttempts job
  · rw [h]
    have hsame := sameJob_settle maxAttempts outcome { job with attempts := job.attempts + 1 }
    exact ⟨hsame.envelope, hsame.dedupeKey, hsame.payloadRef⟩

/-- A run keeps a job well formed. -/
theorem WellFormed.runOne (h : job.WellFormed secret) :
    (job.runOne secret maxAttempts now outcome).WellFormed secret := by
  have hsame := sameJob_runOne secret maxAttempts now outcome job
  refine ⟨hsame.envelope ▸ h.isSealed, hsame.dedupeKey ▸ h.dedupeKey,
    hsame.payloadRef ▸ h.payloadRef, ?_⟩
  rcases runOne_cases secret maxAttempts now outcome job with ⟨-, h'⟩ | ⟨-, -, h'⟩ | ⟨-, -, h'⟩
  · rw [h']
    exact h.error
  · rw [h']
    exact error_fail maxAttempts job
  · rw [h']
    exact error_settle maxAttempts outcome _

end LocalJob

/-- The job that a call of `enqueue` is about to register: the arguments pass the checks, and
neither the dedupe key nor the nonce is known. -/
structure Accepts (w : LocalTenantWorker) (now : DateTime) (envelope : WorkerEnvelope)
    (dedupeKey payloadRef : String) (job : LocalJob) : Prop where
  admitted : w.vet now envelope dedupeKey payloadRef = .ok job
  key : w.dedupe.get? job.key = none
  nonce : w.nonces.get? job.nonceKey = none

section Accepts

variable {w : LocalTenantWorker} {now : DateTime} {envelope : WorkerEnvelope}
  {dedupeKey payloadRef : String} {job : LocalJob}

theorem Accepts.job_eq (h : Accepts w now envelope dedupeKey payloadRef job) :
    job = { envelope := envelope, dedupeKey := dedupeKey, payloadRef := payloadRef } :=
  (LocalTenantWorker.vet_ok.mp h.admitted).2.2.2

/-- A job that is accepted is well formed. -/
theorem Accepts.wellFormed (h : Accepts w now envelope dedupeKey payloadRef job) :
    job.WellFormed w.secret := by
  obtain ⟨⟨hsealed, -⟩, hkey, hpayload, rfl⟩ := LocalTenantWorker.vet_ok.mp h.admitted
  exact ⟨hsealed, hkey, hpayload, rfl⟩

end Accepts

namespace LocalTenantWorker

variable {w : LocalTenantWorker} {now : DateTime} {envelope : WorkerEnvelope}
  {dedupeKey payloadRef : String}

/-- `enqueue` registers a new job, or hands out the one of a known key, or raises. -/
theorem enqueue_cases (now : DateTime) (envelope : WorkerEnvelope) (dedupeKey payloadRef : String)
    (w : LocalTenantWorker) :
    (∃ job, Accepts w now envelope dedupeKey payloadRef job ∧
      w.enqueue now envelope dedupeKey payloadRef =
        (.ok job, w.install (w.toRegistry.register job))) ∨
    (∃ j job, w.dedupe.get? (envelope.tenantId, dedupeKey) = some j ∧ w.jobs.get? j = some job ∧
      w.enqueue now envelope dedupeKey payloadRef = (.ok job, w)) ∨
    ∃ e, w.enqueue now envelope dedupeKey payloadRef = (.error e, w) := by
  unfold enqueue
  cases hvet : w.vet now envelope dedupeKey payloadRef with
  | error e => exact .inr (.inr ⟨e, rfl⟩)
  | ok job =>
    obtain ⟨-, -, -, rfl⟩ := vet_ok.mp hvet
    dsimp only
    cases hkey : w.dedupe.get? (LocalJob.key ⟨envelope, dedupeKey, payloadRef, .pending, 0, none⟩) with
    | some existing =>
      dsimp only
      cases hjob : w.jobs.get? existing with
      | none => exact .inr (.inr ⟨_, rfl⟩)
      | some found => exact .inr (.inl ⟨existing, found, hkey, hjob, rfl⟩)
    | none =>
      dsimp only
      split
      · exact .inr (.inr ⟨_, rfl⟩)
      · rename_i hnonce
        refine .inl ⟨_, ⟨hvet, hkey, ?_⟩, rfl⟩
        exact (Dict.contains_eq_false_iff _ _).mp (Bool.eq_false_of_not_eq_true hnonce)

/-- A job that is accepted is new to the worker. -/
theorem enqueue_of_accepts {job : LocalJob} (h : Accepts w now envelope dedupeKey payloadRef job) :
    w.enqueue now envelope dedupeKey payloadRef =
      (.ok job, w.install (w.toRegistry.register job)) := by
  have hnonce : w.nonces.contains job.nonceKey = false := (Dict.contains_eq_false_iff _ _).mpr h.nonce
  unfold enqueue
  rw [h.admitted]
  dsimp only
  rw [h.key]
  dsimp only
  rw [hnonce]
  rfl

/-- `run_one` raises for an unknown id, and otherwise puts the job back. -/
theorem runOne_snd (now : DateTime) (j : UUID) (outcome : HandlerOutcome) (w : LocalTenantWorker) :
    (w.runOne now j outcome).2 =
      match w.jobs.get? j with
      | none => w
      | some job => w.putJob j (job.runOne w.secret w.maxAttempts now outcome) := by
  unfold runOne
  cases w.jobs.get? j <;> rfl

end LocalTenantWorker

/-! ## Restoring -/

/-- What `restore` makes a job of: sealed, not expired, pending or failed. -/
theorem itemJob_ok {secret : Bytes} {now : DateTime} {item : PyDict R} {job : LocalJob}
    (h : itemJob secret now item = .ok (some job)) :
    job.WellFormed secret ∧ now.instant < job.envelope.expiresAt.instant ∧
      (job.state = .pending ∨ job.state = .failed) := by
  simp only [itemJob, except_bind_ok, safeRef_ok] at h
  obtain ⟨⟨⟩, -, envelope, -, ⟨⟩, hverify, state, -, attempts, -, _, -, _, ⟨hkey, rfl⟩, _, -, _,
    ⟨hpayload, rfl⟩, h⟩ := h
  split at h
  · cases h
  · rename_i hlive
    cases h
    push Not at hlive
    obtain ⟨hsealed, htime⟩ := WorkerEnvelope.verify_ok_iff.mp hverify
    have hstate : state = .pending ∨ state = .failed := by
      by_cases hpending : state = .pending
      · exact .inl hpending
      · exact .inr (hlive.2 hpending)
    refine ⟨⟨hsealed, hkey, hpayload, ?_⟩, htime, hstate⟩
    rcases hstate with rfl | rfl <;> rfl

/-- `restore` registers a job if its id, its key and its nonce are new. -/
theorem Registry.add_ok {job : LocalJob} {r r' : Registry} :
    r.add job = .ok r' ↔
      r.jobs.get? job.envelope.jobId = none ∧ r.dedupe.get? job.key = none ∧
        r.nonces.get? job.nonceKey = none ∧ r' = r.register job := by
  unfold add
  rw [← Dict.contains_eq_false_iff, ← Dict.contains_eq_false_iff, ← Dict.contains_eq_false_iff]
  cases r.jobs.contains job.envelope.jobId <;> cases r.dedupe.contains job.key <;>
    cases r.nonces.contains job.nonceKey <;> simp [eq_comm]

/-- What a restore has built so far. -/
structure Registry.Built (secret : Bytes) (r : Registry) : Prop where
  indexed : r.Indexed
  resolves : r.Resolves
  wellFormed : ∀ j job, r.jobs.get? j = some job → job.WellFormed secret

/-- An item that is restored keeps the registry well built. -/
theorem Registry.Built.restoreItem {secret : Bytes} {now : DateTime} {item : PyDict R}
    {r r' : Registry} (hr : r.Built secret) (h : restoreItem secret now item r = .ok r') :
    r'.Built secret := by
  obtain ⟨job, hjob, h⟩ := except_bind_ok.mp h
  cases job with
  | none =>
    cases h
    exact hr
  | some job =>
    obtain ⟨hid, hkey, hnonce, rfl⟩ := Registry.add_ok.mp h
    refine ⟨hr.indexed.register hkey hnonce, hr.resolves.register hid, ?_⟩
    intro j job' hj
    rcases Registry.get?_jobs_register.mp hj with ⟨-, rfl⟩ | ⟨-, hold⟩
    · exact (itemJob_ok hjob).1
    · exact hr.wellFormed j job' hold

/-- So do all of them. -/
theorem Registry.Built.restoreItems {secret : Bytes} {now : Nat → DateTime}
    {items : List (PyDict R)} {k : Nat} {r r' : Registry} (hr : r.Built secret)
    (h : restoreItems secret now k items r = .ok r') : r'.Built secret := by
  induction items generalizing k r with
  | nil =>
    cases h
    exact hr
  | cons item items ih =>
    obtain ⟨r₁, h₁, h⟩ := except_bind_ok.mp h
    exact ih (hr.restoreItem h₁) h

theorem built_empty (secret : Bytes) : Registry.Built secret {} where
  indexed := Registry.indexed_empty
  resolves := Registry.resolves_empty
  wellFormed _ _ h := by cases h

/-- `restore` raises and changes nothing, or installs what it has built. -/
theorem LocalTenantWorker.restore_cases (now : Nat → DateTime) (snapshot : List (PyDict R))
    (w : LocalTenantWorker) :
    (∃ e, w.restore now snapshot = (.error e, w)) ∨
      ∃ r, restoreItems w.secret now 0 snapshot {} = .ok r ∧
        w.restore now snapshot = (.ok r.jobs.items.length, w.install r) := by
  unfold restore
  cases restoreItems w.secret now 0 snapshot {} with
  | error e => exact .inl ⟨_, rfl⟩
  | ok r => exact .inr ⟨r, rfl, rfl⟩

/-! ## Calls -/

/-- A call of the worker, with the clock it reads and what its handler does. -/
inductive WorkerCall (R : Type)
  | enqueue (now : DateTime) (envelope : WorkerEnvelope) (dedupeKey payloadRef : String)
  | runOne (now : DateTime) (jobId : UUID) (outcome : HandlerOutcome)
  | restore (now : Nat → DateTime) (snapshot : List (PyDict R))

namespace WorkerCall

/-- The worker after a call. -/
def step (w : LocalTenantWorker) : WorkerCall R → LocalTenantWorker
  | enqueue now envelope dedupeKey payloadRef => (w.enqueue now envelope dedupeKey payloadRef).2
  | runOne now jobId outcome => (w.runOne now jobId outcome).2
  | restore now snapshot => (w.restore now snapshot).2

/-- The worker after the `enqueue` of a new job. -/
theorem step_of_accepts {w : LocalTenantWorker} {now : DateTime} {envelope : WorkerEnvelope}
    {dedupeKey payloadRef : String} {job : LocalJob}
    (h : Accepts w now envelope dedupeKey payloadRef job) :
    step w (enqueue now envelope dedupeKey payloadRef : WorkerCall R) =
      w.install (w.toRegistry.register job) :=
  congrArg Prod.snd (LocalTenantWorker.enqueue_of_accepts h)

/-- The call is about to register a job under the id of another one. -/
def Reuses (w : LocalTenantWorker) : WorkerCall R → Prop
  | enqueue now envelope dedupeKey payloadRef =>
    (∃ job, Accepts w now envelope dedupeKey payloadRef job) ∧
      w.jobs.contains envelope.jobId = true
  | _ => False

end WorkerCall

/-- A new worker with the secret and the budget of this one. -/
def LocalTenantWorker.fresh (w : LocalTenantWorker) : LocalTenantWorker := w.install {}

/-- What holds of every worker, whatever was called. -/
structure LocalTenantWorker.Registered (w : LocalTenantWorker) : Prop where
  indexed : w.Indexed
  wellFormed : ∀ j job, w.jobs.get? j = some job → job.WellFormed w.secret

theorem LocalTenantWorker.registered_fresh (w : LocalTenantWorker) : w.fresh.Registered :=
  ⟨Registry.indexed_empty, fun _ _ h => by cases h⟩

section Step

variable {w : LocalTenantWorker}

/-- `enqueue` of a job with a new key and nonce keeps the invariant. -/
theorem LocalTenantWorker.Registered.register {job : LocalJob} (h : w.Registered)
    (hjob : job.WellFormed w.secret) (hkey : w.dedupe.get? job.key = none)
    (hnonce : w.nonces.get? job.nonceKey = none) :
    (w.install (w.toRegistry.register job)).Registered := by
  refine ⟨h.indexed.register hkey hnonce, ?_⟩
  intro j job' hj
  rcases Registry.get?_jobs_register.mp hj with ⟨-, rfl⟩ | ⟨-, hold⟩
  · exact hjob
  · exact h.wellFormed j job' hold

/-- What another version of a job does to the map of jobs. -/
theorem LocalTenantWorker.get?_putJob {j i : UUID} {job job' : LocalJob}
    (h : (w.putJob j job).jobs.get? i = some job') :
    i = j ∧ job' = job ∨ i ≠ j ∧ w.jobs.get? i = some job' := by
  change (w.jobs.set j job).get? i = some job' at h
  rw [Dict.get?_set] at h
  by_cases hi : i = j
  · rw [if_pos hi] at h
    exact .inl ⟨hi, (Option.some.inj h).symm⟩
  · rw [if_neg hi] at h
    exact .inr ⟨hi, h⟩

theorem LocalTenantWorker.get?_putJob_self (w : LocalTenantWorker) (j : UUID) (job : LocalJob) :
    (w.putJob j job).jobs.get? j = some job := Dict.get?_set_self _ _ _

theorem LocalTenantWorker.get?_putJob_of_ne (w : LocalTenantWorker) {i j : UUID} (job : LocalJob)
    (h : i ≠ j) : (w.putJob j job).jobs.get? i = w.jobs.get? i := Dict.get?_set_of_ne _ _ h

/-- So does another state of the same job. -/
theorem LocalTenantWorker.Registered.putJob {j : UUID} {job job' : LocalJob} (h : w.Registered)
    (hj : w.jobs.get? j = some job) (hsame : job.SameJob job') (hjob : job'.WellFormed w.secret) :
    (w.putJob j job').Registered := by
  have hkey := hsame.key
  have hnonce := hsame.nonceKey
  refine ⟨⟨?_, ?_, ?_⟩, ?_⟩
  · intro i job₁ hi
    rcases get?_putJob hi with ⟨rfl, rfl⟩ | ⟨-, hold⟩
    · exact hsame.envelope ▸ h.indexed.jobId i job hj
    · exact h.indexed.jobId i job₁ hold
  · intro i job₁ hi
    rcases get?_putJob hi with ⟨rfl, rfl⟩ | ⟨-, hold⟩
    · exact hkey ▸ h.indexed.key i job hj
    · exact h.indexed.key i job₁ hold
  · intro i job₁ hi
    rcases get?_putJob hi with ⟨rfl, rfl⟩ | ⟨-, hold⟩
    · exact hnonce ▸ h.indexed.nonce i job hj
    · exact h.indexed.nonce i job₁ hold
  · intro i job₁ hi
    rcases get?_putJob hi with ⟨-, rfl⟩ | ⟨-, hold⟩
    · exact hjob
    · exact h.wellFormed i job₁ hold

/-- Every call keeps the invariant. -/
theorem LocalTenantWorker.Registered.step (h : w.Registered) (call : WorkerCall R) :
    (WorkerCall.step w call).Registered := by
  cases call with
  | enqueue now envelope dedupeKey payloadRef =>
    show (w.enqueue now envelope dedupeKey payloadRef).2.Registered
    rcases w.enqueue_cases now envelope dedupeKey payloadRef with
      ⟨job, hnew, hrun⟩ | ⟨j, job, -, -, hrun⟩ | ⟨e, hrun⟩
    -- only a new job is registered
    · rw [hrun]
      exact h.register hnew.wellFormed hnew.key hnew.nonce
    · rw [hrun]
      exact h
    · rw [hrun]
      exact h
  | runOne now j outcome =>
    show (w.runOne now j outcome).2.Registered
    rw [LocalTenantWorker.runOne_snd]
    cases hj : w.jobs.get? j with
    | none => exact h
    | some job =>
      exact h.putJob hj (LocalJob.sameJob_runOne _ _ now outcome job) (h.wellFormed j job hj).runOne
  | restore now snapshot =>
    show (w.restore now snapshot).2.Registered
    rcases w.restore_cases now snapshot with ⟨e, hrun⟩ | ⟨r, hr, hrun⟩
    · rw [hrun]
      exact h
    · rw [hrun]
      have hbuilt := (built_empty w.secret).restoreItems hr
      -- a restored registry is built from the snapshot
      exact ⟨hbuilt.indexed, hbuilt.wellFormed⟩

/-- The calls of a run keep what holds of every worker. -/
theorem registered_play (w : LocalTenantWorker) (calls : List (WorkerCall R)) :
    (play WorkerCall.step w.fresh calls).Registered :=
  Along.kept (along_of_forall (fun _ _ => trivial) w.fresh calls)
    (fun _ call hw _ => hw.step call) w.registered_fresh

/-- No call changes the secret or the limit of attempts. -/
theorem config_step (w : LocalTenantWorker) (call : WorkerCall R) :
    (WorkerCall.step w call).secret = w.secret ∧
      (WorkerCall.step w call).maxAttempts = w.maxAttempts := by
  cases call with
  | enqueue now envelope dedupeKey payloadRef =>
    show (w.enqueue now envelope dedupeKey payloadRef).2.secret = _ ∧
      (w.enqueue now envelope dedupeKey payloadRef).2.maxAttempts = _
    rcases w.enqueue_cases now envelope dedupeKey payloadRef with
      ⟨job, -, hrun⟩ | ⟨j, job, -, -, hrun⟩ | ⟨e, hrun⟩
    -- enqueuing, running and restoring write jobs and indexes only
    · rw [hrun]
      exact ⟨rfl, rfl⟩
    · rw [hrun]
      exact ⟨rfl, rfl⟩
    · rw [hrun]
      exact ⟨rfl, rfl⟩
  | runOne now j outcome =>
    show (w.runOne now j outcome).2.secret = _ ∧ (w.runOne now j outcome).2.maxAttempts = _
    rw [LocalTenantWorker.runOne_snd]
    cases w.jobs.get? j with
    | none => exact ⟨rfl, rfl⟩
    | some job => exact ⟨rfl, rfl⟩
  | restore now snapshot =>
    show (w.restore now snapshot).2.secret = _ ∧ (w.restore now snapshot).2.maxAttempts = _
    rcases w.restore_cases now snapshot with ⟨e, hrun⟩ | ⟨r, -, hrun⟩
    · rw [hrun]
      exact ⟨rfl, rfl⟩
    · rw [hrun]
      exact ⟨rfl, rfl⟩

theorem config_play (w : LocalTenantWorker) (calls : List (WorkerCall R)) :
    (play WorkerCall.step w.fresh calls).secret = w.secret ∧
      (play WorkerCall.step w.fresh calls).maxAttempts = w.maxAttempts :=
  Along.kept (I := fun w' => w'.secret = w.secret ∧ w'.maxAttempts = w.maxAttempts)
    (along_of_forall (fun _ _ => trivial) w.fresh calls)
    (fun w' call hw' _ => by
      rw [(config_step w' call).1, (config_step w' call).2]
      exact hw')
    ⟨rfl, rfl⟩

/-- A call leaves the registry consistent; as an `enqueue` it keeps the jobs accepted earlier and
hands out a job of the tenant that asked. -/
structure Sound (w : LocalTenantWorker) (call : WorkerCall R) : Prop where
  resolves : (WorkerCall.step w call).Resolves
  keeps : ∀ now envelope dedupeKey payloadRef,
    call = .enqueue now envelope dedupeKey payloadRef →
    ∀ j job, w.jobs.get? j = some job → (WorkerCall.step w call).jobs.get? j = some job
  own : ∀ now envelope dedupeKey payloadRef,
    call = .enqueue now envelope dedupeKey payloadRef →
    ∀ job, (w.enqueue now envelope dedupeKey payloadRef).1 = .ok job →
      job.envelope.tenantId = envelope.tenantId

/-- Keys still lead to their jobs. -/
theorem resolves_putJob {j : UUID} {job job' : LocalJob} (h : w.Resolves)
    (hj : w.jobs.get? j = some job) (hsame : job.SameJob job') : (w.putJob j job').Resolves := by
  have hput : ∀ i job₁, w.jobs.get? i = some job₁ → ∃ job₂, (w.putJob j job').jobs.get? i = some job₂ ∧
      job₂.key = job₁.key ∧ job₂.nonceKey = job₁.nonceKey := by
    intro i job₁ hi
    by_cases hij : i = j
    · subst hij
      rw [hj] at hi
      cases hi
      exact ⟨job', Dict.get?_set_self _ _ _, hsame.key, hsame.nonceKey⟩
    · exact ⟨job₁, (Dict.get?_set_of_ne _ _ hij).trans hi, rfl, rfl⟩
  constructor
  · intro k i hk
    obtain ⟨job₁, hi, hkey⟩ := h.key k i hk
    obtain ⟨job₂, hi', hkey', -⟩ := hput i job₁ hi
    exact ⟨job₂, hi', hkey'.trans hkey⟩
  · intro k i hk
    obtain ⟨job₁, hi, hnonce⟩ := h.nonce k i hk
    obtain ⟨job₂, hi', -, hnonce'⟩ := hput i job₁ hi
    exact ⟨job₂, hi', hnonce'.trans hnonce⟩

/-- An `enqueue` that takes no other job's id is sound. -/
theorem sound_enqueue {now : DateTime} {envelope : WorkerEnvelope} {dedupeKey payloadRef : String}
    (h : w.Resolves)
    (hid : ¬WorkerCall.Reuses w (.enqueue now envelope dedupeKey payloadRef : WorkerCall R)) :
    Sound w (.enqueue now envelope dedupeKey payloadRef : WorkerCall R) := by
  rcases w.enqueue_cases now envelope dedupeKey payloadRef with
    ⟨job, hnew, hrun⟩ | ⟨j, job, hkey, hj, hrun⟩ | ⟨e, hrun⟩
  -- a new job comes under an id that is not in use
  · have hfree : w.jobs.get? job.envelope.jobId = none := by
      rw [hnew.job_eq]
      refine (Dict.contains_eq_false_iff _ _).mp (Bool.eq_false_of_not_eq_true fun htaken => ?_)
      exact hid ⟨⟨job, hnew⟩, htaken⟩
    refine ⟨?_, ?_, ?_⟩
    · show (w.enqueue now envelope dedupeKey payloadRef).2.Resolves
      rw [hrun]
      exact h.register hfree
    · rintro _ _ _ _ - j job' hj
      show (w.enqueue now envelope dedupeKey payloadRef).2.jobs.get? j = some job'
      rw [hrun]
      refine Registry.get?_jobs_register.mpr (.inr ⟨?_, hj⟩)
      rintro rfl
      rw [hfree] at hj
      cases hj
    · rintro _ _ _ _ heq job' hjob'
      cases heq
      rw [hrun] at hjob'
      cases hjob'
      rw [hnew.job_eq]
  · -- the job of a known key is one of the same tenant, because the index resolves
    refine ⟨?_, ?_, ?_⟩
    · show (w.enqueue now envelope dedupeKey payloadRef).2.Resolves
      rw [hrun]
      exact h
    · rintro _ _ _ _ - j' job' hj'
      show (w.enqueue now envelope dedupeKey payloadRef).2.jobs.get? j' = some job'
      rw [hrun]
      exact hj'
    · rintro _ _ _ _ heq job' hjob'
      cases heq
      rw [hrun] at hjob'
      cases hjob'
      obtain ⟨found, hfound, hkey'⟩ := h.key _ j hkey
      rw [hj] at hfound
      cases hfound
      exact congrArg Prod.fst hkey'
  -- a refused call changes nothing
  · refine ⟨?_, ?_, ?_⟩
    · show (w.enqueue now envelope dedupeKey payloadRef).2.Resolves
      rw [hrun]
      exact h
    · rintro _ _ _ _ - j' job' hj'
      show (w.enqueue now envelope dedupeKey payloadRef).2.jobs.get? j' = some job'
      rw [hrun]
      exact hj'
    · rintro _ _ _ _ heq job' hjob'
      cases heq
      rw [hrun] at hjob'
      cases hjob'

/-- The other calls are sound, because `restore` checks ids. -/
theorem sound_of_not_enqueue {call : WorkerCall R} (h : w.Resolves)
    (hcall : ∀ now envelope dedupeKey payloadRef,
      call ≠ .enqueue now envelope dedupeKey payloadRef) : Sound w call := by
  refine ⟨?_, fun _ _ _ _ heq => absurd heq (hcall _ _ _ _),
    fun _ _ _ _ heq => absurd heq (hcall _ _ _ _)⟩
  cases call with
  | enqueue now envelope dedupeKey payloadRef => exact absurd rfl (hcall _ _ _ _)
  | runOne now j outcome =>
    show (w.runOne now j outcome).2.Resolves
    rw [LocalTenantWorker.runOne_snd]
    cases hj : w.jobs.get? j with
    | none => exact h
    | some job => exact resolves_putJob h hj (LocalJob.sameJob_runOne _ _ now outcome job)
  | restore now snapshot =>
    show (w.restore now snapshot).2.Resolves
    rcases w.restore_cases now snapshot with ⟨e, hrun⟩ | ⟨r, hr, hrun⟩
    · rw [hrun]
      exact h
    · rw [hrun]
      exact ((built_empty w.secret).restoreItems hr).resolves

/-- A job that is registered under the id of another one replaces it: the two have different
nonces. -/
theorem not_sound_of_reuses {call : WorkerCall R} (h : w.Registered) (hreuses : call.Reuses w) :
    ¬Sound w call := by
  cases call with
  | enqueue now envelope dedupeKey payloadRef =>
    obtain ⟨⟨job, hnew⟩, htaken⟩ := hreuses
    obtain ⟨old, hold⟩ := (Dict.contains_iff _ _).mp htaken
    intro hsound
    have hkept := hsound.keeps now envelope dedupeKey payloadRef rfl _ old hold
    change (w.enqueue now envelope dedupeKey payloadRef).2.jobs.get? _ = _ at hkept
    rw [LocalTenantWorker.enqueue_of_accepts hnew] at hkept
    rcases Registry.get?_jobs_register.mp hkept with ⟨-, hsame⟩ | ⟨hne, -⟩
    · have hindexed := h.indexed.nonce _ old hold
      rw [hsame, hnew.nonce] at hindexed
      cases hindexed
    · rw [hnew.job_eq] at hne
      exact hne rfl
  | runOne now j outcome => exact hreuses.elim
  | restore now snapshot => exact hreuses.elim

/-- A call is sound exactly if it does not reuse the id of a registered job. -/
theorem sound_iff {call : WorkerCall R} (h : w.Registered) (hresolves : w.Resolves) :
    Sound w call ↔ ¬call.Reuses w := by
  constructor
  · exact fun hsound hreuses => not_sound_of_reuses h hreuses hsound
  · intro hid
    cases call with
    | enqueue now envelope dedupeKey payloadRef => exact sound_enqueue hresolves hid
    | runOne now j outcome =>
      exact sound_of_not_enqueue hresolves fun _ _ _ _ heq => by cases heq
    | restore now snapshot =>
      exact sound_of_not_enqueue hresolves fun _ _ _ _ heq => by cases heq

end Step

/-- The calls of a run are all sound if and only if none registers a job under the id of another
one. -/
theorem registry_sound_iff (w : LocalTenantWorker) (calls : List (WorkerCall R)) :
    Along WorkerCall.step Sound w.fresh calls ↔
      Along WorkerCall.step (fun w call => ¬call.Reuses w) w.fresh calls := by
  refine along_congr (I := fun w => w.Registered ∧ w.Resolves) ?_ ?_ ?_
  · exact ⟨w.registered_fresh, Registry.resolves_empty⟩
  · intro w call hw
    exact sound_iff hw.1 hw.2
  · intro w call hw hsound
    exact ⟨hw.1.step call, hsound.resolves⟩

/-! ### Two tenants and one job id -/

/-- A signed envelope is sealed. -/
theorem WorkerEnvelope.sealed_sign {secret : Bytes} {unsigned : WorkerEnvelope}
    (haware : unsigned.expiresAt.offset ≠ none) (hne : unsigned.nonce ≠ "")
    (hle : unsigned.nonce.length ≤ 256) : (sign secret unsigned).Sealed secret where
  aware := haware
  nonce_ne_empty := hne
  length_nonce_le := hle
  signed := rfl

/-- An envelope that is sealed and new is accepted. -/
theorem accepts_of {w : LocalTenantWorker} {now : DateTime} {envelope : WorkerEnvelope}
    {dedupeKey payloadRef : String} (hsealed : envelope.Sealed w.secret)
    (htime : now.instant < envelope.expiresAt.instant) (hdedupe : IsRef dedupeKey)
    (hpayload : IsRef payloadRef) (hkey : w.dedupe.get? (envelope.tenantId, dedupeKey) = none)
    (hnonce : w.nonces.get? (envelope.tenantId, envelope.nonce) = none) :
    Accepts w now envelope dedupeKey payloadRef
      { envelope := envelope, dedupeKey := dedupeKey, payloadRef := payloadRef } where
  admitted := LocalTenantWorker.vet_ok.mpr ⟨⟨hsealed, htime⟩, hdedupe, hpayload, rfl⟩
  key := hkey
  nonce := hnonce

/-- A worker with a budget of three attempts. -/
def deskWorker : LocalTenantWorker where
  secret := [7]
  maxAttempts := 3
  secret_ne_nil := by decide
  one_le_maxAttempts := by decide

/-- The tenant's envelope for job 9; it expires on the hundredth day. -/
def deskEnvelope (tenant : Fin (2 ^ 128)) : WorkerEnvelope :=
  WorkerEnvelope.sign [7]
    { jobId := ⟨9⟩, tenantId := ⟨tenant⟩, principalId := ⟨5⟩, expiresAt := day2026 100
      nonce := "job-1", signature := "" }

theorem deskExpiry_aware : (day2026 100).offset ≠ none := by decide

theorem firstDay_lt : (day2026 1).instant < (day2026 100).instant := by decide

theorem sealed_deskEnvelope (tenant : Fin (2 ^ 128)) : (deskEnvelope tenant).Sealed [7] :=
  WorkerEnvelope.sealed_sign deskExpiry_aware (show "job-1" ≠ "" by decide)
    (show "job-1".length ≤ 256 by decide)

theorem isRef_embed : IsRef "embed:1" := ⟨by decide, by decide, by decide⟩

theorem isRef_memory : IsRef "memory:1" := ⟨by decide, by decide, by decide⟩

/-- A tenant enqueues its envelope on the first day. -/
def deskEnqueue (tenant : Fin (2 ^ 128)) : WorkerCall ℚ :=
  .enqueue (day2026 1) (deskEnvelope tenant) "embed:1" "memory:1"

theorem accepts_deskEnqueue {w : LocalTenantWorker} (hsecret : w.secret = [7])
    {tenant : Fin (2 ^ 128)} (hkey : w.dedupe.get? (⟨tenant⟩, "embed:1") = none)
    (hnonce : w.nonces.get? (⟨tenant⟩, "job-1") = none) :
    Accepts w (day2026 1) (deskEnvelope tenant) "embed:1" "memory:1"
      { envelope := deskEnvelope tenant, dedupeKey := "embed:1", payloadRef := "memory:1" } :=
  accepts_of (hsecret ▸ sealed_deskEnvelope tenant) firstDay_lt isRef_embed isRef_memory hkey hnonce

def deskJob : LocalJob :=
  { envelope := deskEnvelope 1, dedupeKey := "embed:1", payloadRef := "memory:1" }

/-- The worker after the first tenant has enqueued. -/
def busyWorker : LocalTenantWorker :=
  deskWorker.fresh.install (deskWorker.fresh.toRegistry.register
    { envelope := deskEnvelope 1, dedupeKey := "embed:1", payloadRef := "memory:1" })

theorem step_deskEnqueue : WorkerCall.step deskWorker.fresh (deskEnqueue 1) = busyWorker :=
  WorkerCall.step_of_accepts (accepts_deskEnqueue rfl rfl rfl)

/-- After tenant 1 has enqueued, tenant 2 replaces its job with an envelope of the same job id. -/
theorem job_id_replaced :
    ¬∀ (w : LocalTenantWorker) (calls : List (WorkerCall ℚ)),
      Along WorkerCall.step Sound w.fresh calls := by
  intro hclaim
  obtain ⟨-, hsecond, -⟩ := hclaim deskWorker [deskEnqueue 1, deskEnqueue 2]
  refine not_sound_of_reuses (deskWorker.registered_fresh.step (deskEnqueue 1)) ?_ hsecond
  rw [step_deskEnqueue]
  exact ⟨⟨_, accepts_deskEnqueue rfl (by decide) (by decide)⟩, by decide⟩

end OpenMemory.Worker
