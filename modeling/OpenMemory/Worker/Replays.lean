import OpenMemory.Worker.Snapshots

/-!
# Replays across restarts

An envelope is refused a second time because its nonce is registered, and a job that has reached a
terminal state is not run again because the worker still has it. A restart keeps neither: `restore`
registers only the jobs that the snapshot lists as pending or failed.

`no_replay_iff` says when that does no harm: when no job has reached a terminal state before a
restart, and no envelope was accepted between the snapshot and the restart (`ServiceMove.Safe`).
-/

namespace OpenMemory.Worker

open Lib Cloud

variable {R : Type} [WorkerLibrary R]

/-! ## Runs with snapshots -/

/-- The job that `enqueue` is about to register, if it is about to register one. -/
def LocalTenantWorker.newJob (now : DateTime) (envelope : WorkerEnvelope)
    (dedupeKey payloadRef : String) (w : LocalTenantWorker) : Option LocalJob :=
  match w.vet now envelope dedupeKey payloadRef with
  | .error _ => none
  | .ok job => if w.dedupe.contains job.key || w.nonces.contains job.nonceKey then none else some job

/-- A worker and its latest snapshot. The rest is history: the jobs that the snapshot was made of, the
jobs as they were accepted, and the nonces of those that have reached a terminal state. -/
structure Service (R : Type) where
  worker : LocalTenantWorker
  latest : Option (List (PyDict R)) := none
  listed : List LocalJob := []
  accepted : List LocalJob := []
  finished : List (UUID × String) := []

inductive ServiceMove
  | enqueue (now : DateTime) (envelope : WorkerEnvelope) (dedupeKey payloadRef : String)
  | runOne (now : DateTime) (jobId : UUID) (outcome : HandlerOutcome)
  | snapshot
  | restore (now : Nat → DateTime)

/-- The nonce of the job under an id, if that job is in a terminal state. -/
def LocalTenantWorker.finishedAt (jobId : UUID) (w : LocalTenantWorker) :
    Option (UUID × String) :=
  ((w.jobs.get? jobId).filter fun job => job.state.isTerminal).map LocalJob.nonceKey

def Service.step (s : Service R) : ServiceMove → Service R
  | .enqueue now envelope dedupeKey payloadRef =>
    { s with
      worker := (s.worker.enqueue now envelope dedupeKey payloadRef).2
      accepted := (s.worker.newJob now envelope dedupeKey payloadRef).toList ++ s.accepted }
  | .runOne now jobId outcome =>
    let worker := (s.worker.runOne now jobId outcome).2
    { s with worker := worker, finished := (worker.finishedAt jobId).toList ++ s.finished }
  | .snapshot => { s with latest := (s.worker.snapshot R).toOption, listed := s.worker.jobs.values }
  | .restore now =>
    match s.latest with
    | none => s
    | some items => { s with worker := (s.worker.restore now items).2 }

/-- A new job has a new nonce, and a handler only runs on a job that has reached no terminal state. -/
def ServiceMove.Fresh (s : Service R) : ServiceMove → Prop
  | enqueue now envelope dedupeKey payloadRef =>
    ∀ job, s.worker.newJob now envelope dedupeKey payloadRef = some job →
      job.nonceKey ∉ s.accepted.map LocalJob.nonceKey
  | runOne now jobId _ =>
    ∀ job job', s.worker.jobs.get? jobId = some job →
      job.start s.worker.secret s.worker.maxAttempts now = .awaits job' →
        job.nonceKey ∉ s.finished
  | snapshot => True
  | restore _ => True

/-- A restart that goes through comes before any job has reached a terminal state, and the snapshot
lists every envelope accepted so far. -/
def ServiceMove.Safe (s : Service R) : ServiceMove → Prop
  | restore now =>
    ∀ items n, s.latest = some items → (s.worker.restore now items).1 = .ok n →
      s.finished = [] ∧ ∀ job ∈ s.accepted, job.nonceKey ∈ s.listed.map LocalJob.nonceKey
  | _ => True

/-! ## The invariant -/

theorem LocalTenantWorker.newJob_eq_some {w : LocalTenantWorker} {now : DateTime}
    {envelope : WorkerEnvelope} {dedupeKey payloadRef : String} {job : LocalJob} :
    w.newJob now envelope dedupeKey payloadRef = some job ↔
      Accepts w now envelope dedupeKey payloadRef job := by
  unfold newJob
  cases hvet : w.vet now envelope dedupeKey payloadRef with
  | error e =>
    exact iff_of_false (fun h => by cases h) fun h => by cases hvet.symm.trans h.admitted
  | ok job' =>
    dsimp only
    constructor
    · intro h
      split at h
      · cases h
      · rename_i hfree
        cases h
        rw [Bool.or_eq_true, not_or, Bool.not_eq_true, Bool.not_eq_true,
          Dict.contains_eq_false_iff, Dict.contains_eq_false_iff] at hfree
        exact ⟨hvet, hfree.1, hfree.2⟩
    · intro h
      obtain rfl : job' = job := Except.ok.inj (hvet.symm.trans h.admitted)
      rw [(Dict.contains_eq_false_iff _ _).mpr h.key, (Dict.contains_eq_false_iff _ _).mpr h.nonce]
      rfl

theorem LocalTenantWorker.finishedAt_eq_some {w : LocalTenantWorker} {j : UUID}
    {k : UUID × String} :
    w.finishedAt j = some k ↔
      ∃ job, w.jobs.get? j = some job ∧ job.state.isTerminal = true ∧ job.nonceKey = k := by
  unfold finishedAt
  simp [Option.filter_eq_some_iff, and_assoc]

/-- `enqueue` registers its new job, or leaves the worker as it was. -/
theorem LocalTenantWorker.enqueue_snd (now : DateTime) (envelope : WorkerEnvelope)
    (dedupeKey payloadRef : String) (w : LocalTenantWorker) :
    (∃ job, Accepts w now envelope dedupeKey payloadRef job ∧
      w.newJob now envelope dedupeKey payloadRef = some job ∧
      (w.enqueue now envelope dedupeKey payloadRef).2 = w.install (w.toRegistry.register job)) ∨
    w.newJob now envelope dedupeKey payloadRef = none ∧
      (w.enqueue now envelope dedupeKey payloadRef).2 = w := by
  cases hnew : w.newJob now envelope dedupeKey payloadRef with
  | some job =>
    have haccepts := newJob_eq_some.mp hnew
    exact .inl ⟨job, haccepts, rfl, by rw [enqueue_of_accepts haccepts]⟩
  | none =>
    refine .inr ⟨rfl, ?_⟩
    rcases w.enqueue_cases now envelope dedupeKey payloadRef with
      ⟨job, haccepts, -⟩ | ⟨j, job, -, -, hrun⟩ | ⟨e, hrun⟩
    · rw [newJob_eq_some.mpr haccepts] at hnew
      cases hnew
    · rw [hrun]
    · rw [hrun]

/-- The job is a later version of one that was accepted. -/
def Service.Knows (s : Service R) (job : LocalJob) : Prop :=
  ∃ a ∈ s.accepted, a.SameJob job

/-- What the latest snapshot is made of. -/
structure Service.Lists (s : Service R) (items : List (PyDict R)) : Prop where
  items : List.Forall₂ (fun job item => job.item R s.worker.secret = .ok item) s.listed items
  wellFormed : ∀ job ∈ s.listed, job.WellFormed s.worker.secret
  distinct : s.listed.Pairwise LocalJob.Distinct
  known : ∀ job ∈ s.listed, s.Knows job
  finished : ∀ job ∈ s.listed, job.state.isTerminal = true → job.nonceKey ∈ s.finished

/-- Every accepted job is in both indexes of the worker, and the worker has the finished ones in a
terminal state. -/
structure Service.Remembers (s : Service R) : Prop where
  registered : s.worker.Registered
  keys : ∀ a ∈ s.accepted, s.worker.dedupe.contains a.key = true
  nonces : ∀ a ∈ s.accepted, s.worker.nonces.contains a.nonceKey = true
  distinct : s.accepted.Pairwise fun a b => a.key ≠ b.key ∧ a.nonceKey ≠ b.nonceKey
  admitted : ∀ a ∈ s.accepted, a.WellFormed s.worker.secret ∧ ∃ now : DateTime,
    now.instant < a.envelope.expiresAt.instant
  known : ∀ j job, s.worker.jobs.get? j = some job → s.Knows job
  finished : ∀ j job, s.worker.jobs.get? j = some job →
    (job.nonceKey ∈ s.finished ↔ job.state.isTerminal = true)
  finished_accepted : ∀ k ∈ s.finished, k ∈ s.accepted.map LocalJob.nonceKey
  latest : ∀ items, s.latest = some items → s.Lists items

section Step

variable {s : Service R}

theorem Service.Lists.grow {items : List (PyDict R)} (h : s.Lists items) {s' : Service R}
    (hsecret : s'.worker.secret = s.worker.secret) (hlisted : s'.listed = s.listed)
    (haccepted : ∀ a ∈ s.accepted, a ∈ s'.accepted)
    (hfinished : ∀ k ∈ s.finished, k ∈ s'.finished) : s'.Lists items := by
  refine ⟨?_, ?_, hlisted ▸ h.distinct, ?_, ?_⟩
  · rw [hsecret, hlisted]
    exact h.items
  · rw [hsecret, hlisted]
    exact h.wellFormed
  · rw [hlisted]
    intro job hjob
    obtain ⟨a, ha, hsame⟩ := h.known job hjob
    exact ⟨a, haccepted a ha, hsame⟩
  · rw [hlisted]
    exact fun job hjob hterminal => hfinished _ (h.finished job hjob hterminal)

theorem Service.remembers_of (w : LocalTenantWorker) :
    Remembers ({ worker := w.fresh } : Service R) where
  registered := w.registered_fresh
  keys _ h := by cases h
  nonces _ h := by cases h
  distinct := .nil
  admitted _ h := by cases h
  known _ _ h := by cases h
  finished _ _ h := by cases h
  finished_accepted _ h := by cases h
  latest _ h := by cases h

/-- Jobs with one nonce are one job. -/
theorem LocalTenantWorker.Registered.eq_of_nonceKey {w : LocalTenantWorker} (h : w.Registered)
    {i j : UUID} {a b : LocalJob} (hi : w.jobs.get? i = some a) (hj : w.jobs.get? j = some b)
    (hnonce : a.nonceKey = b.nonceKey) : i = j := by
  have hindexed := h.indexed.nonce i a hi
  rw [hnonce, h.indexed.nonce j b hj] at hindexed
  exact (Option.some.inj hindexed).symm

theorem Service.Remembers.enqueue (h : s.Remembers) (now : DateTime) (envelope : WorkerEnvelope)
    (dedupeKey payloadRef : String) :
    (s.step (.enqueue now envelope dedupeKey payloadRef)).Remembers := by
  have hregistered := h.registered.step (.enqueue now envelope dedupeKey payloadRef : WorkerCall R)
  change (s.worker.enqueue now envelope dedupeKey payloadRef).2.Registered at hregistered
  unfold step
  dsimp only
  rcases s.worker.enqueue_snd now envelope dedupeKey payloadRef with
    ⟨job, haccepts, hnew, hrun⟩ | ⟨hnew, hrun⟩
  · rw [hrun] at hregistered
    rw [hrun, hnew]
    -- an accepted job has a key and a nonce that no earlier one had
    have hnewKey : ∀ a ∈ s.accepted, job.key ≠ a.key := by
      intro a ha hsame
      have hcontains := h.keys a ha
      rw [← hsame, (Dict.contains_eq_false_iff _ _).mpr haccepts.key] at hcontains
      cases hcontains
    have hnewNonce : ∀ a ∈ s.accepted, job.nonceKey ≠ a.nonceKey := by
      intro a ha hsame
      have hcontains := h.nonces a ha
      rw [← hsame, (Dict.contains_eq_false_iff _ _).mpr haccepts.nonce] at hcontains
      cases hcontains
    have hunknown : job.nonceKey ∉ s.accepted.map LocalJob.nonceKey := by
      intro hmem
      obtain ⟨a, ha, hsame⟩ := List.mem_map.mp hmem
      exact hnewNonce a ha hsame.symm
    have hvet := LocalTenantWorker.vet_ok.mp haccepts.admitted
    -- the laws, one by one, for the new job and the earlier ones
    refine ⟨hregistered, ?_, ?_, ?_, ?_, ?_, ?_, ?_, ?_⟩
    · intro a ha
      show (s.worker.dedupe.set job.key _).contains a.key = true
      rw [Dict.contains_set]
      rcases List.mem_cons.mp ha with rfl | ha
      · simp
      · simp [h.keys a ha]
    · intro a ha
      show (s.worker.nonces.set job.nonceKey _).contains a.nonceKey = true
      rw [Dict.contains_set]
      rcases List.mem_cons.mp ha with rfl | ha
      · simp
      · simp [h.nonces a ha]
    · exact List.pairwise_cons.mpr ⟨fun a ha => ⟨hnewKey a ha, hnewNonce a ha⟩, h.distinct⟩
    · intro a ha
      rcases List.mem_cons.mp ha with rfl | ha
      · refine ⟨haccepts.wellFormed, now, ?_⟩
        rw [haccepts.job_eq]
        exact hvet.1.2
      · exact h.admitted a ha
    · intro j job' hj
      rcases Registry.get?_jobs_register.mp hj with ⟨-, rfl⟩ | ⟨-, hold⟩
      · exact ⟨_, List.mem_cons_self, rfl, rfl, rfl⟩
      · obtain ⟨a, ha, hsame⟩ := h.known j job' hold
        exact ⟨a, List.mem_cons_of_mem _ ha, hsame⟩
    · intro j job' hj
      rcases Registry.get?_jobs_register.mp hj with ⟨-, rfl⟩ | ⟨-, hold⟩
      · -- a new job has not finished
        refine iff_of_false (fun hmem => hunknown (h.finished_accepted _ hmem)) ?_
        rw [haccepts.job_eq]
        simp [JobState.isTerminal]
      · exact h.finished j job' hold
    · exact fun k hk => List.mem_cons_of_mem _ (h.finished_accepted k hk)
    · intro items hitems
      exact (h.latest items hitems).grow rfl rfl (fun a ha => List.mem_cons_of_mem _ ha)
        fun k hk => hk
  · rw [hrun, hnew]
    exact h

theorem Service.Remembers.runOne (h : s.Remembers) (now : DateTime) (j : UUID)
    (outcome : HandlerOutcome) : (s.step (.runOne now j outcome)).Remembers := by
  have hregistered := h.registered.step (.runOne now j outcome : WorkerCall R)
  change (s.worker.runOne now j outcome).2.Registered at hregistered
  unfold step
  dsimp only
  rw [LocalTenantWorker.runOne_snd] at hregistered ⊢
  cases hj : s.worker.jobs.get? j with
  -- an unknown job is not run
  | none =>
    have hnone : s.worker.finishedAt j = none := by
      unfold LocalTenantWorker.finishedAt
      rw [hj]
      rfl
    dsimp only
    rw [hnone]
    exact h
  | some job =>
    rw [hj] at hregistered
    dsimp only at hregistered ⊢
    have hsame := LocalJob.sameJob_runOne s.worker.secret s.worker.maxAttempts now outcome job
    -- a job that has ended is not run again
    have hkept : job.state.isTerminal = true → (job.runOne s.worker.secret s.worker.maxAttempts now
        outcome).state.isTerminal = true := fun hterminal => by
      rw [LocalJob.runOne_of_isTerminal hterminal]
      exact hterminal
    generalize LocalJob.runOne s.worker.secret s.worker.maxAttempts now outcome job = job' at *
    have hfound := LocalTenantWorker.get?_putJob_self s.worker j job'
    have hnew : ∀ k, k ∈ ((s.worker.putJob j job').finishedAt j).toList ↔
        job'.state.isTerminal = true ∧ job'.nonceKey = k := by
      intro k
      rw [Option.mem_toList, LocalTenantWorker.finishedAt_eq_some, hfound]
      simp
    obtain ⟨a, ha, hknown⟩ := h.known j job hj
    refine ⟨hregistered, h.keys, h.nonces, h.distinct, h.admitted, ?_, ?_, ?_, ?_⟩
    -- the job that was run is still the accepted one
    · intro i job₁ hi
      rcases LocalTenantWorker.get?_putJob hi with ⟨-, rfl⟩ | ⟨-, hi'⟩
      · exact ⟨a, ha, hknown.trans hsame⟩
      · exact h.known i job₁ hi'
    -- it is counted as finished exactly when it has ended
    · intro i job₁ hi
      rw [List.mem_append, hnew]
      rcases LocalTenantWorker.get?_putJob hi with ⟨-, rfl⟩ | ⟨hne, hi'⟩
      · constructor
        · rintro (⟨hterminal, -⟩ | hmem)
          · exact hterminal
          · rw [hsame.nonceKey] at hmem
            exact hkept ((h.finished j job hj).mp hmem)
        · exact fun hterminal => .inl ⟨hterminal, rfl⟩
      · constructor
        · rintro (⟨-, hnonce⟩ | hmem)
          · rw [hsame.nonceKey] at hnonce
            exact absurd (h.registered.eq_of_nonceKey hj hi' hnonce).symm hne
          · exact (h.finished i job₁ hi').mp hmem
        · exact fun hterminal => .inr ((h.finished i job₁ hi').mpr hterminal)
    · intro k hk
      rcases List.mem_append.mp hk with hk | hk
      · rw [← ((hnew k).mp hk).2, (hknown.trans hsame).nonceKey]
        exact List.mem_map_of_mem ha
      · exact h.finished_accepted k hk
    · intro items hitems
      exact (h.latest items hitems).grow rfl rfl (fun a ha => ha)
        fun k hk => List.mem_append_right _ hk

theorem Service.Remembers.snapshot (h : s.Remembers) :
    (s.step .snapshot).Remembers := by
  refine ⟨h.registered, h.keys, h.nonces, h.distinct, h.admitted, h.known, h.finished,
    h.finished_accepted, ?_⟩
  intro items hitems
  obtain ⟨items', hitems', hpairs⟩ := s.worker.exists_snapshot (R := R)
  change (s.worker.snapshot R).toOption = some items at hitems
  rw [hitems'] at hitems
  cases hitems
  refine ⟨hpairs, fun job => h.registered.wellFormed_of_mem, h.registered.pairwise_distinct, ?_, ?_⟩
  · intro job hjob
    obtain ⟨j, hj⟩ := (Dict.mem_values_iff _ _).mp hjob
    exact h.known j job hj
  · intro job hjob hterminal
    obtain ⟨j, hj⟩ := (Dict.mem_values_iff _ _).mp hjob
    exact (h.finished j job hj).mpr hterminal

/-- The jobs that a restored worker has. -/
theorem Service.Lists.get?_registerLive {items : List (PyDict R)} (h : s.Lists items) {j : UUID}
    {job : LocalJob} :
    (Registry.registerLive s.listed {}).jobs.get? j = some job ↔
      (job ∈ s.listed ∧ job.state.isTerminal = false) ∧ job.envelope.jobId = j := by
  rw [← Dict.mem_items_iff, Registry.items_registerLive h.distinct fun _ _ => ⟨rfl, rfl, rfl⟩]
  show (j, job) ∈ [] ++ _ ↔ _
  rw [List.nil_append, List.mem_map]
  constructor
  · rintro ⟨job', hjob', heq⟩
    cases heq
    obtain ⟨hmem, hlive⟩ := List.mem_filter.mp hjob'
    exact ⟨⟨hmem, by simpa using hlive⟩, rfl⟩
  · rintro ⟨⟨hmem, hlive⟩, rfl⟩
    exact ⟨job, List.mem_filter.mpr ⟨hmem, by simp [hlive]⟩, rfl⟩

/-- Accepted jobs that share their key or their nonce are one job. -/
theorem Service.Remembers.eq_of_mem (h : s.Remembers) {a b : LocalJob} (ha : a ∈ s.accepted)
    (hb : b ∈ s.accepted) (hsame : a.key = b.key ∨ a.nonceKey = b.nonceKey) : a = b := by
  by_contra hne
  have hsymm : Std.Symm fun a b : LocalJob => a.key ≠ b.key ∧ a.nonceKey ≠ b.nonceKey :=
    ⟨fun _ _ hab => ⟨hab.1.symm, hab.2.symm⟩⟩
  obtain ⟨hkey, hnonce⟩ := h.distinct.forall ha hb hne
  rcases hsame with hsame | hsame
  · exact hkey hsame
  · exact hnonce hsame

/-- A later version of an accepted job is found by its key and by its nonce. -/
theorem Service.Remembers.eq_of_knows (h : s.Remembers) {a job : LocalJob} (ha : a ∈ s.accepted)
    (hknown : s.Knows job) (hsame : job.key = a.key ∨ job.nonceKey = a.nonceKey) :
    a.SameJob job := by
  obtain ⟨b, hb, hversion⟩ := hknown
  rw [hversion.key, hversion.nonceKey] at hsame
  rw [← h.eq_of_mem hb ha hsame]
  exact hversion

/-- A restart that goes through registers the live jobs of the snapshot. -/
theorem Service.Lists.restore_cases {items : List (PyDict R)} (hitems : s.Lists items)
    (hlatest : s.latest = some items) (now : Nat → DateTime) :
    (∃ e, (s.worker.restore now items).1 = .error e) ∧ s.step (.restore now) = s ∨
    ∃ n, (s.worker.restore now items).1 = .ok n ∧ Unexpired now 0 s.listed ∧
      (Registry.registerLive s.listed {}).Built s.worker.secret ∧
      s.step (.restore now) =
        { s with worker := s.worker.install (Registry.registerLive s.listed {}) } := by
  have hstep : s.step (.restore now) = { s with worker := (s.worker.restore now items).2 } := by
    conv_lhs => unfold step
    dsimp only
    rw [hlatest]
  rw [hstep]
  rcases s.worker.restore_cases now items with ⟨e, hrun⟩ | ⟨r, hr, hrun⟩
  · rw [hrun]
    exact .inl ⟨⟨e, rfl⟩, rfl⟩
  · have htime := unexpired_of_restoreItems hitems.items hr
    have hloop := restoreItems_of_unexpired (r := {}) hitems.items hitems.wellFormed
      hitems.distinct (fun _ _ => ⟨rfl, rfl, rfl⟩) htime
    obtain rfl := Except.ok.inj (hr.symm.trans hloop)
    rw [hrun]
    exact .inr ⟨_, rfl, htime, (built_empty s.worker.secret).restoreItems hr, rfl⟩

theorem Service.Remembers.restore (h : s.Remembers) {now : Nat → DateTime}
    (hsafe : ServiceMove.Safe s (.restore now)) : (s.step (.restore now)).Remembers := by
  cases hlatest : s.latest with
  | none =>
    have hstep : s.step (.restore now) = s := by
      unfold step
      dsimp only
      rw [hlatest]
    rw [hstep]
    exact h
  | some items =>
    have hlists := h.latest items hlatest
    have hjobs := @Service.Lists.get?_registerLive _ _ s items hlists
    rcases hlists.restore_cases hlatest now with ⟨-, hstep⟩ | ⟨n, hrun, -, hbuilt, hstep⟩
    · rw [hstep]
      exact h
    · obtain ⟨hnone, hall⟩ := hsafe items n hlatest hrun
      have hlive : ∀ job ∈ s.listed, job.state.isTerminal = false := by
        intro job hjob
        by_contra hterminal
        have hmem := hlists.finished job hjob (by simpa using hterminal)
        rw [hnone] at hmem
        cases hmem
      have hregistered : (s.worker.install (Registry.registerLive s.listed {})).Registered :=
        ⟨hbuilt.indexed, hbuilt.wellFormed⟩
      rw [hstep]
      -- every accepted job is restored
      have hback : ∀ a ∈ s.accepted, ∃ job, a.SameJob job ∧
          (Registry.registerLive s.listed {}).jobs.get? job.envelope.jobId = some job := by
        intro a ha
        obtain ⟨job, hjob, hsame⟩ := List.mem_map.mp (hall a ha)
        exact ⟨job, h.eq_of_knows ha (hlists.known job hjob) (.inr hsame),
          hjobs.mpr ⟨⟨hjob, hlive job hjob⟩, rfl⟩⟩
      refine ⟨hregistered, ?_, ?_, h.distinct, h.admitted, ?_, ?_, h.finished_accepted, ?_⟩
      · intro a ha
        obtain ⟨job, hsame, hfound⟩ := hback a ha
        rw [← hsame.key]
        exact (Dict.contains_iff _ _).mpr ⟨_, hregistered.indexed.key _ job hfound⟩
      · intro a ha
        obtain ⟨job, hsame, hfound⟩ := hback a ha
        rw [← hsame.nonceKey]
        exact (Dict.contains_iff _ _).mpr ⟨_, hregistered.indexed.nonce _ job hfound⟩
      · intro j job hj
        exact hlists.known job (hjobs.mp hj).1.1
      · intro j job hj
        refine iff_of_false ?_ ?_
        · show job.nonceKey ∉ s.finished
          rw [hnone]
          exact List.not_mem_nil
        · rw [(hjobs.mp hj).1.2]
          simp
      · intro items' hitems'
        exact (h.latest items' hitems').grow rfl rfl (fun a ha => ha) fun k hk => hk

theorem Service.Remembers.step (h : s.Remembers) {m : ServiceMove} (hsafe : m.Safe s) :
    (s.step m).Remembers := by
  cases m with
  | enqueue now envelope dedupeKey payloadRef => exact h.enqueue now envelope dedupeKey payloadRef
  | runOne now jobId outcome => exact h.runOne now jobId outcome
  | snapshot => exact h.snapshot
  | restore now => exact h.restore hsafe

/-- What the worker remembers makes every move fresh. -/
theorem Service.Remembers.fresh (h : s.Remembers) (m : ServiceMove) : m.Fresh s := by
  cases m with
  | enqueue now envelope dedupeKey payloadRef =>
    intro job hnew hmem
    obtain ⟨job', hjob', hsame⟩ := List.mem_map.mp hmem
    have hcontains := h.nonces job' hjob'
    have haccepts := LocalTenantWorker.newJob_eq_some.mp hnew
    rw [hsame, (Dict.contains_eq_false_iff _ _).mpr haccepts.nonce] at hcontains
    cases hcontains
  | runOne now jobId outcome =>
    intro job job' hj hstart hmem
    have hterminal := (h.finished jobId job hj).mp hmem
    unfold LocalJob.start at hstart
    rw [hterminal] at hstart
    cases hstart
  | snapshot => trivial
  | restore now => trivial

/-- After a restart that is not safe, an envelope can be accepted again or a finished job be run. -/
theorem Service.Remembers.exists_replay (h : s.Remembers) {m : ServiceMove} (hm : ¬m.Safe s) :
    ∃ next : ServiceMove, ¬next.Fresh (s.step m) := by
  cases m with
  | enqueue now envelope dedupeKey payloadRef => exact absurd trivial hm
  | runOne now jobId outcome => exact absurd trivial hm
  | snapshot => exact absurd trivial hm
  | restore now =>
    unfold ServiceMove.Safe at hm
    push Not at hm
    obtain ⟨items, n, hlatest, hrun, hunsafe⟩ := hm
    -- the jobs of the latest snapshot are restored if they are alive
    have hlists := h.latest items hlatest
    have hjobs := @Service.Lists.get?_registerLive _ _ s items hlists
    rcases hlists.restore_cases hlatest now with ⟨⟨e, herror⟩, -⟩ | ⟨-, -, htime, hbuilt, hstep⟩
    · rw [hrun] at herror
      cases herror
    rw [hstep]
    by_cases hforgets : ∃ a ∈ s.accepted, ∀ job ∈ s.listed, job.state.isTerminal = false →
        job.nonceKey ≠ a.nonceKey
    · -- the envelope of a forgotten job is accepted again
      obtain ⟨a, ha, hforgotten⟩ := hforgets
      obtain ⟨hwell, now', hnow'⟩ := h.admitted a ha
      have hfree : ∀ j job, (Registry.registerLive s.listed {}).jobs.get? j = some job →
          job.key ≠ a.key ∧ job.nonceKey ≠ a.nonceKey := by
        intro j job hj
        obtain ⟨⟨hjob, hlive⟩, -⟩ := hjobs.mp hj
        have hnonce := hforgotten job hjob hlive
        refine ⟨fun hkey => hnonce ?_, hnonce⟩
        exact (h.eq_of_knows ha (hlists.known job hjob) (.inl hkey)).nonceKey
      -- neither its key nor its nonce is registered now
      have haccepts : Accepts (s.worker.install (Registry.registerLive s.listed {})) now' a.envelope
          a.dedupeKey a.payloadRef
          { envelope := a.envelope, dedupeKey := a.dedupeKey, payloadRef := a.payloadRef } := by
        refine accepts_of hwell.isSealed hnow' hwell.dedupeKey hwell.payloadRef ?_ ?_
        · by_contra hfound
          obtain ⟨j, hj⟩ := Option.ne_none_iff_exists'.mp hfound
          obtain ⟨job, hjob, hkey⟩ := hbuilt.resolves.key _ j hj
          exact (hfree j job hjob).1 hkey
        · by_contra hfound
          obtain ⟨j, hj⟩ := Option.ne_none_iff_exists'.mp hfound
          obtain ⟨job, hjob, hnonce⟩ := hbuilt.resolves.nonce _ j hj
          exact (hfree j job hjob).2 hnonce
      refine ⟨.enqueue now' a.envelope a.dedupeKey a.payloadRef, fun hfresh => ?_⟩
      exact hfresh _ (LocalTenantWorker.newJob_eq_some.mpr haccepts)
        (List.mem_map.mpr ⟨a, ha, rfl⟩)
    · -- every accepted job is listed as a live one, and one of them has finished
      push Not at hforgets
      have hfinished : s.finished ≠ [] := by
        intro hnone
        obtain ⟨a, ha, hmissing⟩ := hunsafe hnone
        obtain ⟨job, hjob, -, hsame⟩ := hforgets a ha
        exact hmissing (List.mem_map.mpr ⟨job, hjob, hsame⟩)
      obtain ⟨k, hk⟩ := List.exists_mem_of_ne_nil _ hfinished
      obtain ⟨a, ha, rfl⟩ := List.mem_map.mp (h.finished_accepted k hk)
      obtain ⟨job, hjob, hlive, hsame⟩ := hforgets a ha
      obtain ⟨i, hi⟩ := List.mem_iff_getElem?.mp hjob
      -- that job is run once more
      have hverify : job.envelope.verify s.worker.secret (now (0 + i)) = .ok () :=
        WorkerEnvelope.verify_ok_iff.mpr ⟨(hlists.wellFormed job hjob).isSealed, htime i job hi⟩
      refine ⟨.runOne (now (0 + i)) job.envelope.jobId .raised, fun hfresh => ?_⟩
      refine hfresh job { job with attempts := job.attempts + 1 } (hjobs.mpr ⟨⟨hjob, hlive⟩, rfl⟩)
        ?_ ?_
      · show job.start s.worker.secret s.worker.maxAttempts (now (0 + i)) = _
        unfold LocalJob.start
        rw [hlive, hverify]
        rfl
      · rw [hsame]
        exact hk

end Step

/-- No envelope is accepted twice and no finished job is run, whatever call comes after any part of a
run, if and only if the restarts of the run are safe. -/
theorem no_replay_iff (w : LocalTenantWorker) (moves : List ServiceMove) :
    (∀ before, before <+: moves → ∀ next,
      Along (Service.step (R := R)) ServiceMove.Fresh { worker := w.fresh } (before ++ [next])) ↔
      Along (Service.step (R := R)) ServiceMove.Safe { worker := w.fresh } moves := by
  constructor
  · intro hfresh
    by_contra hcon
    obtain ⟨before, m, after, rfl, hbefore, hm⟩ := exists_first_of_not_along hcon
    have hremembers := hbefore.kept (fun _ _ hs hm => Service.Remembers.step hs hm)
      (Service.remembers_of w)
    obtain ⟨next, hnext⟩ := hremembers.exists_replay hm
    have hprefix : before ++ [m] <+: before ++ m :: after := ⟨after, by simp⟩
    have halong := (along_append.mp (hfresh _ hprefix next)).2
    rw [play_append] at halong
    exact hnext halong.1
  · rintro hsafe before ⟨after, rfl⟩ next
    have hbefore := (along_append.mp hsafe).1
    have hremembers := hbefore.kept (fun _ _ hs hm => Service.Remembers.step hs hm)
      (Service.remembers_of w)
    refine along_append.mpr ⟨?_, hremembers.fresh next, trivial⟩
    exact hbefore.weaken (Service.remembers_of w) (fun _ _ hs hm => hs.step hm)
      fun _ m hs _ => hs.fresh m

/-! ### An envelope that is accepted again after a restart -/

/-- The busy worker when the handler of its job has returned ready. -/
def doneWorker : LocalTenantWorker :=
  busyWorker.putJob ⟨9⟩ { deskJob with state := .ready, attempts := 1 }

theorem runOne_busyWorker :
    (busyWorker.runOne (day2026 1) ⟨9⟩ (.returned .ready)).2 = doneWorker := by
  have hverify : deskJob.envelope.verify [7] (day2026 1) = .ok () :=
    WorkerEnvelope.verify_ok_iff.mpr ⟨sealed_deskEnvelope 1, firstDay_lt⟩
  have hjob : busyWorker.jobs.get? ⟨9⟩ = some deskJob := Dict.get?_set_self _ _ _
  rw [LocalTenantWorker.runOne_snd, hjob]
  show busyWorker.putJob ⟨9⟩ (deskJob.runOne [7] 3 (day2026 1) (.returned .ready)) = doneWorker
  rcases LocalJob.runOne_cases [7] 3 (day2026 1) (.returned .ready) deskJob with
    ⟨h, -⟩ | ⟨-, h, -⟩ | ⟨-, -, h⟩
  · cases h
  · exact absurd hverify h
  · rw [h]
    rfl

/-- The job is done, the worker restarts from a snapshot that it has taken after that, and the
envelope of the job is accepted for another execution. -/
theorem accepted_again :
    ¬∀ (w : LocalTenantWorker) (moves : List ServiceMove),
      Along (Service.step (R := ℚ)) ServiceMove.Fresh { worker := w.fresh } moves := by
  intro hclaim
  obtain ⟨items, hitems, -⟩ := doneWorker.exists_snapshot (R := ℚ)
  have hnew : deskWorker.fresh.newJob (day2026 1) (deskEnvelope 1) "embed:1" "memory:1" =
      some deskJob := LocalTenantWorker.newJob_eq_some.mpr (accepts_deskEnqueue rfl rfl rfl)
  have henqueue : (deskWorker.fresh.enqueue (day2026 1) (deskEnvelope 1) "embed:1" "memory:1").2 =
      busyWorker :=
    congrArg Prod.snd (LocalTenantWorker.enqueue_of_accepts (accepts_deskEnqueue rfl rfl rfl))
  -- the desk enqueues a job, and runs it
  have hregistered : doneWorker.Registered := by
    have hbusy := deskWorker.registered_fresh.step (deskEnqueue 1)
    rw [step_deskEnqueue] at hbusy
    have hdone := hbusy.step (.runOne (day2026 1) ⟨9⟩ (.returned .ready) : WorkerCall ℚ)
    change (busyWorker.runOne (day2026 1) ⟨9⟩ (.returned .ready)).2.Registered at hdone
    rw [runOne_busyWorker] at hdone
    exact hdone
  -- the snapshot is restored on the same day
  have hunexpired : Unexpired (fun _ => day2026 1) 0 doneWorker.jobs.values := by
    refine unexpired_cons.mpr ⟨firstDay_lt, fun n job hn => by cases hn⟩
  have hrestore : doneWorker.restore (fun _ => day2026 1) items = _ :=
    hregistered.restore_of_unexpired rfl hitems hunexpired
  have h₁ : Service.step ({ worker := deskWorker.fresh } : Service ℚ)
      (.enqueue (day2026 1) (deskEnvelope 1) "embed:1" "memory:1") =
        { worker := busyWorker, accepted := [deskJob] } := by
    unfold Service.step
    dsimp only
    rw [henqueue, hnew]
    rfl
  have h₂ : Service.step ({ worker := busyWorker, accepted := [deskJob] } : Service ℚ)
      (.runOne (day2026 1) ⟨9⟩ (.returned .ready)) =
        { worker := doneWorker, accepted := [deskJob], finished := [deskJob.nonceKey] } := by
    unfold Service.step
    dsimp only
    rw [runOne_busyWorker]
    rfl
  have h₃ : Service.step ({ worker := doneWorker, accepted := [deskJob]
                            finished := [deskJob.nonceKey] } : Service ℚ) .snapshot =
        { worker := doneWorker, latest := some items, listed := doneWorker.jobs.values
          accepted := [deskJob], finished := [deskJob.nonceKey] } := by
    unfold Service.step
    dsimp only
    rw [hitems]
    rfl
  have h₄ : Service.step ({ worker := doneWorker, latest := some items
                            listed := doneWorker.jobs.values, accepted := [deskJob]
                            finished := [deskJob.nonceKey] } : Service ℚ)
      (.restore fun _ => day2026 1) =
        { worker := doneWorker.install (Registry.registerLive doneWorker.jobs.values {})
          latest := some items, listed := doneWorker.jobs.values, accepted := [deskJob]
          finished := [deskJob.nonceKey] } := by
    unfold Service.step
    dsimp only
    rw [hrestore]
  have hlast := hclaim deskWorker
    [.enqueue (day2026 1) (deskEnvelope 1) "embed:1" "memory:1",
      .runOne (day2026 1) ⟨9⟩ (.returned .ready), .snapshot, .restore fun _ => day2026 1,
      .enqueue (day2026 1) (deskEnvelope 1) "embed:1" "memory:1"]
  unfold Along Along Along Along Along at hlast
  rw [h₁, h₂, h₃, h₄] at hlast
  obtain ⟨-, -, -, -, hfresh, -⟩ := hlast
  refine hfresh deskJob ?_ List.mem_cons_self
  exact LocalTenantWorker.newJob_eq_some.mpr (accepts_deskEnqueue rfl rfl rfl)

end OpenMemory.Worker
