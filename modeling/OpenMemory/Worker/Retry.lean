import OpenMemory.Worker.Snapshots

/-!
# Bounded retry

A call of `run_one` spends an attempt only after the envelope has been verified. A call that comes
too late therefore fails without spending one, and so do all later ones: the job stays failed, with
attempts left, however often it is run.

- `LocalJob.isTerminal_runAll_iff` settles it for one job and a list of calls.
- `Watch.Follows` ties a run of the whole worker, with other jobs and with restarts from its own
  snapshot, to such a list.
- `bounded_retry_iff`: after as many calls as the budget allows the job is settled exactly when the
  envelope lasted that long or a handler was done before it expired.
-/

namespace OpenMemory.Worker

open Lib Cloud

variable {R : Type} [WorkerLibrary R]

/-! ## One job -/

/-- A call of `run_one`: its time, and what its handler does. -/
abbrev Attempt := DateTime × HandlerOutcome

namespace LocalJob

/-- The job after calls of `run_one`. -/
def runAll (secret : Bytes) (maxAttempts : Nat) (job : LocalJob) (calls : List Attempt) : LocalJob :=
  calls.foldl (fun job call => job.runOne secret maxAttempts call.1 call.2) job

/-- The call comes before the envelope expires. -/
def InTime (job : LocalJob) (call : Attempt) : Prop :=
  call.1.instant < job.envelope.expiresAt.instant

/-- The handler of the call is done with the job. -/
def IsDone (call : Attempt) : Prop :=
  call.2 = .returned .ready ∨ call.2 = .returned .stale

variable {secret : Bytes} {maxAttempts : Nat} {job : LocalJob} {call : Attempt}
  {calls : List Attempt}

theorem runAll_cons :
    job.runAll secret maxAttempts (call :: calls) =
      (job.runOne secret maxAttempts call.1 call.2).runAll secret maxAttempts calls := rfl

/-- Attempts are made one after the other. -/
theorem runAll_append {before after : List Attempt} :
    job.runAll secret maxAttempts (before ++ after) =
      (job.runAll secret maxAttempts before).runAll secret maxAttempts after :=
  List.foldl_append

/-- Attempts change the job's state and counter, not what it is about. -/
theorem sameJob_runAll (secret : Bytes) (maxAttempts : Nat) (job : LocalJob)
    (calls : List Attempt) : job.SameJob (job.runAll secret maxAttempts calls) := by
  induction calls generalizing job with
  | nil => exact ⟨rfl, rfl, rfl⟩
  | cons call calls ih =>
    exact (sameJob_runOne secret maxAttempts call.1 call.2 job).trans (ih _)

/-- A terminal job is not run again. -/
theorem runAll_of_isTerminal (h : job.state.isTerminal = true) :
    job.runAll secret maxAttempts calls = job := by
  induction calls with
  | nil => rfl
  | cons call calls ih => rw [runAll_cons, runOne_of_isTerminal h, ih]

/-- A late call fails the job and spends nothing. -/
theorem runOne_of_late (hlive : job.state.isTerminal = false) (hlate : ¬job.InTime call) :
    job.runOne secret maxAttempts call.1 call.2 = job.fail maxAttempts := by
  rcases runOne_cases secret maxAttempts call.1 call.2 job with ⟨h, -⟩ | ⟨-, -, h⟩ | ⟨-, h, -⟩
  · rw [hlive] at h
    cases h
  · exact h
  · exact absurd (WorkerEnvelope.verify_ok_iff.mp h).2 hlate

/-- An attempt in time is counted and settled by the handler's answer. -/
theorem runOne_of_inTime (hsealed : job.envelope.Sealed secret)
    (hlive : job.state.isTerminal = false) (htime : job.InTime call) :
    job.runOne secret maxAttempts call.1 call.2 =
      settle maxAttempts call.2 { job with attempts := job.attempts + 1 } := by
  rcases runOne_cases secret maxAttempts call.1 call.2 job with ⟨h, -⟩ | ⟨-, h, -⟩ | ⟨-, -, h⟩
  · rw [hlive] at h
    cases h
  · exact absurd (WorkerEnvelope.verify_ok_iff.mpr ⟨hsealed, htime⟩) h
  · exact h

/-- A handler that is done ends the job. -/
theorem settle_of_isDone (h : IsDone call) :
    (job.settle maxAttempts call.2).state.isTerminal = true := by
  rcases h with h | h <;> rw [h] <;> rfl

/-- One that is not fails it. -/
theorem settle_of_not_isDone (h : ¬IsDone call) :
    job.settle maxAttempts call.2 = job.fail maxAttempts := by
  unfold settle
  split
  · rfl
  · rename_i result hresult
    refine if_neg fun hdone => h ?_
    rcases hdone with rfl | rfl
    · exact .inl hresult
    · exact .inr hresult

/-- Once the envelope has expired a job with attempts left stays failed. -/
theorem isTerminal_runAll_of_late (hlive : job.state.isTerminal = false)
    (hleft : job.attempts < maxAttempts) (hlate : ∀ call ∈ calls, ¬job.InTime call) :
    (job.runAll secret maxAttempts calls).state.isTerminal = false := by
  induction calls generalizing job with
  | nil => exact hlive
  | cons call calls ih =>
    obtain ⟨hhead, htail⟩ := List.forall_mem_cons.mp hlate
    rw [runAll_cons, runOne_of_late hlive hhead]
    exact ih (isTerminal_fail.mpr hleft) hleft htail

/-- After as many calls as there are attempts left. -/
theorem isTerminal_runAll_iff (hsealed : job.envelope.Sealed secret)
    (hlive : job.state.isTerminal = false) (hleft : job.attempts < maxAttempts)
    (hclock : calls.Pairwise fun a b => a.1.instant ≤ b.1.instant)
    (hlength : maxAttempts - job.attempts ≤ calls.length) :
    (job.runAll secret maxAttempts calls).state.isTerminal = true ↔
      (∀ call ∈ calls.take (maxAttempts - job.attempts), job.InTime call) ∨
        ∃ call ∈ calls, job.InTime call ∧ IsDone call := by
  induction calls generalizing job with
  | nil =>
    rw [List.length_nil] at hlength
    omega
  | cons call calls ih =>
    obtain ⟨n, hn⟩ : ∃ n, maxAttempts - job.attempts = n + 1 := ⟨maxAttempts - job.attempts - 1, by omega⟩
    obtain ⟨hhead, htail⟩ := List.pairwise_cons.mp hclock
    rw [hn, List.take_succ_cons]
    by_cases htime : job.InTime call
    · have hrun : job.runOne secret maxAttempts call.1 call.2 =
          settle maxAttempts call.2 { job with attempts := job.attempts + 1 } :=
        runOne_of_inTime hsealed hlive htime
      by_cases hdone : IsDone call
      · -- the handler is done
        rw [runAll_cons, hrun, runAll_of_isTerminal (settle_of_isDone hdone)]
        exact iff_of_true (settle_of_isDone hdone) (.inr ⟨call, List.mem_cons_self, htime, hdone⟩)
      · rw [settle_of_not_isDone hdone] at hrun
        rw [runAll_cons, hrun]
        by_cases hspent : maxAttempts ≤ job.attempts + 1
        · -- the last attempt: a dead letter
          have hdead : (fail maxAttempts { job with attempts := job.attempts + 1 }).state.isTerminal =
              true := by
            unfold fail
            dsimp only
            rw [if_pos hspent]
            rfl
          obtain rfl : n = 0 := by omega
          rw [runAll_of_isTerminal hdead]
          refine iff_of_true hdead (.inl fun call' hcall' => ?_)
          rw [List.take_zero, List.mem_singleton] at hcall'
          rw [hcall']
          exact htime
        -- an attempt is left, and the rest decides
        · have hrest := @ih (fail maxAttempts { job with attempts := job.attempts + 1 }) hsealed
            (isTerminal_fail.mpr (show job.attempts + 1 < maxAttempts by omega))
            (show job.attempts + 1 < maxAttempts by omega) htail
            (show maxAttempts - (job.attempts + 1) ≤ calls.length by
              rw [List.length_cons] at hlength
              omega)
          change _ ↔ (∀ call ∈ calls.take (maxAttempts - (job.attempts + 1)), job.InTime call) ∨
            ∃ call ∈ calls, job.InTime call ∧ IsDone call at hrest
          rw [show maxAttempts - (job.attempts + 1) = n by omega] at hrest
          rw [hrest, List.forall_mem_cons, List.exists_mem_cons_iff]
          tauto
    · -- late, as are all calls after it
      have hlate : ∀ call' ∈ calls, ¬job.InTime call' := fun call' hcall' htime' =>
        htime (lt_of_le_of_lt (hhead call' hcall') htime')
      rw [runAll_cons, runOne_of_late hlive htime]
      refine iff_of_false ?_ ?_
      · rw [isTerminal_runAll_of_late (isTerminal_fail.mpr hleft) hleft hlate]
        simp
      · rintro (hfirst | ⟨call', hcall', htime', -⟩)
        · exact htime (hfirst call List.mem_cons_self)
        · rcases List.mem_cons.mp hcall' with rfl | hcall'
          · exact htime htime'
          · exact hlate call' hcall' htime'

end LocalJob

/-! ## The worker -/

/-- A move of a worker that now and then restarts from its own snapshot. -/
inductive WorkMove
  | enqueue (now : DateTime) (envelope : WorkerEnvelope) (dedupeKey payloadRef : String)
  | runOne (now : DateTime) (jobId : UUID) (outcome : HandlerOutcome)
  | restart (now : Nat → DateTime)

/-- The call that a move makes; a restart passes the snapshot of the moment to `restore`. -/
def WorkMove.call (R : Type) [WorkerLibrary R] (w : LocalTenantWorker) :
    WorkMove → Option (WorkerCall R)
  | enqueue now envelope dedupeKey payloadRef => some (.enqueue now envelope dedupeKey payloadRef)
  | runOne now jobId outcome => some (.runOne now jobId outcome)
  | restart now => (w.snapshot R).toOption.map (.restore now)

/-- The worker after a move. -/
def WorkMove.step (R : Type) [WorkerLibrary R] (w : LocalTenantWorker) (m : WorkMove) :
    LocalTenantWorker :=
  ((m.call R w).map (WorkerCall.step w)).getD w

/-- The calls that a move completes on the job with an id. -/
def WorkMove.attempts (w : LocalTenantWorker) (jobId : UUID) : WorkMove → List Attempt
  | runOne now j outcome => if j = jobId ∧ w.jobs.contains j = true then [(now, outcome)] else []
  | _ => []

/-- The worker still has the job that it had under an id: no `enqueue` has put another one there and
no restart has dropped it. -/
def WorkMove.keeps (R : Type) [WorkerLibrary R] (w : LocalTenantWorker) (jobId : UUID)
    (m : WorkMove) : Bool :=
  match m with
  | enqueue .. => decide ((m.step R w).jobs.get? jobId = w.jobs.get? jobId)
  | runOne .. => true
  | restart _ => (m.step R w).jobs.contains jobId

/-- A job that is followed through a run: the worker, the job as the worker has it or last had it,
and the calls of `run_one` on it that did not raise. -/
structure Watch where
  worker : LocalTenantWorker
  job : LocalJob
  held : Bool := true
  calls : List Attempt := []

def Watch.step (R : Type) [WorkerLibrary R] (s : Watch) (m : WorkMove) : Watch :=
  let jobId := s.job.envelope.jobId
  let worker := m.step R s.worker
  if s.held then
    let held := m.keeps R s.worker jobId
    { worker := worker
      job := if held then (worker.jobs.get? jobId).getD s.job else s.job
      held := held
      calls := s.calls ++ m.attempts s.worker jobId }
  else { s with worker := worker }

/-- The job is in a terminal state and not listed for a retry. -/
def Watch.Settled (s : Watch) : Prop :=
  s.job.state.isTerminal = true ∧ (s.held = true → s.job ∉ s.worker.retryable)

/-- The job is what the calls on it made of the job `start`. -/
structure Watch.Follows (start : LocalJob) (w : LocalTenantWorker) (s : Watch) : Prop where
  registered : s.worker.Registered
  secret : s.worker.secret = w.secret
  maxAttempts : s.worker.maxAttempts = w.maxAttempts
  job : s.job = start.runAll w.secret w.maxAttempts s.calls
  held : s.held = true → s.worker.jobs.get? start.envelope.jobId = some s.job

/-- A restart is refused, or drops the terminal jobs. -/
theorem WorkMove.restart_cases {w : LocalTenantWorker} (h : w.Registered) (now : Nat → DateTime) :
    step R w (.restart now) = w ∨
      (step R w (.restart now)).jobs = w.jobs.filter fun _ job => !job.state.isTerminal := by
  obtain ⟨items, hitems, -⟩ := w.exists_snapshot (R := R)
  have hstep : step R w (.restart now) = (w.restore now items).2 := by
    unfold step call
    rw [hitems]
    rfl
  by_cases htime : Unexpired now 0 w.jobs.values
  · refine .inr ?_
    rw [hstep, h.restore_of_unexpired rfl hitems htime]
    exact h.jobs_registerLive
  · refine .inl ?_
    rw [hstep, LocalTenantWorker.restore_of_expired rfl hitems htime]

/-- Moves keep the jobs under their ids. -/
theorem WorkMove.registered_step {w : LocalTenantWorker} (h : w.Registered) (m : WorkMove) :
    (m.step R w).Registered := by
  unfold step
  cases m.call R w with
  | none => exact h
  | some call => exact h.step call

/-- Moves change neither the secret nor the maximum. -/
theorem WorkMove.config_step (w : LocalTenantWorker) (m : WorkMove) :
    (m.step R w).secret = w.secret ∧ (m.step R w).maxAttempts = w.maxAttempts := by
  unfold step
  cases m.call R w with
  | none => exact ⟨rfl, rfl⟩
  | some call => exact Worker.config_step w call

/-- What a move does to a job that the worker keeps. -/
theorem WorkMove.get?_step {w : LocalTenantWorker} {j : UUID} {job : LocalJob} {m : WorkMove}
    (h : w.Registered) (hj : w.jobs.get? j = some job) (hkeeps : m.keeps R w j = true) :
    (m.step R w).jobs.get? j = some (job.runAll w.secret w.maxAttempts (m.attempts w j)) := by
  cases m with
  -- the job stays where it is
  | enqueue now envelope dedupeKey payloadRef => exact (of_decide_eq_true hkeeps).trans hj
  | runOne now i outcome =>
    show (w.runOne now i outcome).2.jobs.get? j = _
    rw [LocalTenantWorker.runOne_snd]
    by_cases hij : i = j
    · subst hij
      -- the attempt is the job's own
      have hcontains : w.jobs.contains i = true := (Dict.contains_iff _ _).mpr ⟨job, hj⟩
      have hone : attempts w i (.runOne now i outcome) = [(now, outcome)] :=
        if_pos ⟨rfl, hcontains⟩
      rw [hone, hj]
      exact Dict.get?_set_self _ _ _
    · have hnone : attempts w j (.runOne now i outcome) = [] := if_neg fun h => hij h.1
      rw [hnone]
      refine Eq.trans ?_ hj
      cases w.jobs.get? i with
      | none => rfl
      | some job => exact Dict.get?_set_of_ne _ _ (Ne.symm hij)
  -- a restart that keeps the job keeps it as it was
  | restart now =>
    obtain ⟨job', hjob'⟩ := (Dict.contains_iff _ _).mp hkeeps
    rcases restart_cases (R := R) h now with hstep | hstep
    · rw [hstep]
      exact hj
    · rw [hstep] at hjob' ⊢
      have hold := (Dict.get?_filter_eq_some.mp hjob').1
      rw [hj] at hold
      cases hold
      exact hjob'

/-- Only `run_one` completes a call, and it keeps every job. -/
theorem WorkMove.attempts_of_not_keeps {w : LocalTenantWorker} {j : UUID} {m : WorkMove}
    (hkeeps : m.keeps R w j = false) : m.attempts w j = [] := by
  cases m with
  | enqueue now envelope dedupeKey payloadRef => rfl
  | runOne now i outcome => cases hkeeps
  | restart now => rfl

section Follows

variable {start : LocalJob} {w : LocalTenantWorker} {s : Watch}

theorem Watch.Follows.envelope (h : s.Follows start w) : s.job.envelope = start.envelope := by
  rw [h.job]
  exact (LocalJob.sameJob_runAll _ _ _ _).envelope

/-- A move keeps the watch in step with the worker. -/
theorem Watch.Follows.step (h : s.Follows start w) (m : WorkMove) :
    (s.step R m).Follows start w := by
  have hid : s.job.envelope.jobId = start.envelope.jobId := by rw [h.envelope]
  have hregistered := m.registered_step (R := R) h.registered
  have hconfig := m.config_step (R := R) s.worker
  have hsecret := hconfig.1.trans h.secret
  have hmaxAttempts := hconfig.2.trans h.maxAttempts
  cases hheld : s.held with
  | false =>
    have hstep : s.step R m = { s with worker := m.step R s.worker } := by
      unfold Watch.step
      rw [hheld]
      rfl
    rw [hstep]
    refine ⟨hregistered, hsecret, hmaxAttempts, h.job, fun hcon => ?_⟩
    rw [hheld] at hcon
    cases hcon
  | true =>
    cases hkeeps : m.keeps R s.worker start.envelope.jobId with
    | false =>
      -- the worker has lost the job, and the move has completed no call on it
      have hstep : s.step R m =
          { worker := m.step R s.worker, job := s.job, held := false, calls := s.calls } := by
        unfold Watch.step
        rw [hheld, hid]
        simp [hkeeps, m.attempts_of_not_keeps hkeeps]
      rw [hstep]
      exact ⟨hregistered, hsecret, hmaxAttempts, h.job, fun hcon => by cases hcon⟩
    | true =>
      have hget := m.get?_step h.registered (h.held hheld) hkeeps
      rw [h.secret, h.maxAttempts] at hget
      have hstep : s.step R m =
          { worker := m.step R s.worker
            job := s.job.runAll w.secret w.maxAttempts
              (m.attempts s.worker start.envelope.jobId)
            held := true
            calls := s.calls ++ m.attempts s.worker start.envelope.jobId } := by
        unfold Watch.step
        rw [hheld, hid]
        simp [hkeeps, hget]
      rw [hstep]
      refine ⟨hregistered, hsecret, hmaxAttempts, ?_, fun _ => hget⟩
      show s.job.runAll w.secret w.maxAttempts _ = _
      rw [h.job, LocalJob.runAll_append]

/-- So does a whole run. -/
theorem Watch.Follows.play (h : s.Follows start w) (moves : List WorkMove) :
    (Lib.play (Watch.step R) s moves).Follows start w := by
  induction moves generalizing s with
  | nil => exact h
  | cons m moves ih => exact ih (h.step m)

/-- A terminal job is not listed. -/
theorem Watch.settled_iff : s.Settled ↔ s.job.state.isTerminal = true := by
  refine and_iff_left_of_imp fun hterminal _ hjob => ?_
  rw [of_decide_eq_true (List.mem_filter.mp hjob).2] at hterminal
  cases hterminal

end Follows

/-- After as many completed calls on an accepted job as there are attempts, the job is settled if and
only if the first of them, as many as there are attempts, all came before the envelope expired, or a
handler was done before it expired. -/
theorem bounded_retry_iff (w : LocalTenantWorker) (earlier : List (WorkerCall R)) {now : DateTime}
    {envelope : WorkerEnvelope} {dedupeKey payloadRef : String} {job : LocalJob}
    (haccepts : Accepts (play WorkerCall.step w.fresh earlier) now envelope dedupeKey payloadRef job)
    (moves : List WorkMove) (s : Watch)
    (hs : s = play (Watch.step R)
      { worker := WorkerCall.step (play WorkerCall.step w.fresh earlier)
          (.enqueue now envelope dedupeKey payloadRef : WorkerCall R)
        job := job } moves)
    (hclock : s.calls.Pairwise fun a b => a.1.instant ≤ b.1.instant)
    (hlength : w.maxAttempts ≤ s.calls.length) :
    s.Settled ↔
      (∀ call ∈ s.calls.take w.maxAttempts, call.1.instant < envelope.expiresAt.instant) ∨
        ∃ call ∈ s.calls, call.1.instant < envelope.expiresAt.instant ∧
          (call.2 = .returned .ready ∨ call.2 = .returned .stale) := by
  have hconfig := config_play w earlier
  have hjob := haccepts.job_eq
  have hsealed := haccepts.wellFormed.isSealed
  -- the watch starts at the job that was accepted
  have hstart : Watch.Follows job w
      { worker := WorkerCall.step (play WorkerCall.step w.fresh earlier)
          (.enqueue now envelope dedupeKey payloadRef : WorkerCall R)
        job := job } := by
    have hcall := config_step (play WorkerCall.step w.fresh earlier)
      (.enqueue now envelope dedupeKey payloadRef : WorkerCall R)
    have hnext := (registered_play w earlier).step
      (.enqueue now envelope dedupeKey payloadRef : WorkerCall R)
    refine ⟨hnext, hcall.1.trans hconfig.1, hcall.2.trans hconfig.2, rfl, fun _ => ?_⟩
    rw [WorkerCall.step_of_accepts haccepts]
    exact Dict.get?_set_self _ _ _
  have hfollows : s.Follows job w := hs ▸ hstart.play moves
  rw [Watch.settled_iff, hfollows.job]
  rw [hconfig.1] at hsealed
  rw [hjob] at hsealed ⊢
  have hiff := LocalJob.isTerminal_runAll_iff hsealed rfl w.one_le_maxAttempts hclock hlength
  exact hiff

/-! ### An envelope that expires -/

/-- Three calls on day 200, when the envelope of the job has expired. -/
def lateCalls : List WorkMove :=
  [.runOne (day2026 200) ⟨9⟩ .raised, .runOne (day2026 200) ⟨9⟩ .raised,
    .runOne (day2026 200) ⟨9⟩ .raised]

/-- The job of the busy worker, followed through the late calls. -/
def lateWatch : Watch :=
  play (Watch.step ℚ)
    { worker := busyWorker
      job := { envelope := deskEnvelope 1, dedupeKey := "embed:1", payloadRef := "memory:1" } }
    lateCalls

theorem calls_lateWatch : lateWatch.calls =
    [(day2026 200, .raised), (day2026 200, .raised), (day2026 200, .raised)] := by
  rfl

theorem lateWatch_eq : lateWatch = play (Watch.step ℚ)
    { worker := WorkerCall.step (play WorkerCall.step deskWorker.fresh ([] : List (WorkerCall ℚ)))
        (deskEnqueue 1)
      job := { envelope := deskEnvelope 1, dedupeKey := "embed:1", payloadRef := "memory:1" } }
    lateCalls := by
  rw [play_nil, step_deskEnqueue]
  rfl

theorem bounded_retry_iff_late :
    lateWatch.Settled ↔
      (∀ call ∈ lateWatch.calls.take deskWorker.maxAttempts,
          call.1.instant < (deskEnvelope 1).expiresAt.instant) ∨
        ∃ call ∈ lateWatch.calls, call.1.instant < (deskEnvelope 1).expiresAt.instant ∧
          (call.2 = .returned .ready ∨ call.2 = .returned .stale) :=
  bounded_retry_iff (R := ℚ) deskWorker [] (accepts_deskEnqueue rfl rfl rfl) lateCalls
    lateWatch lateWatch_eq (by rw [calls_lateWatch]; simp) (by rw [calls_lateWatch]; decide)

/-- The budget of three is used up three times over, and the job is still listed as failed. -/
theorem failed_forever :
    ¬∀ (w : LocalTenantWorker) (earlier : List (WorkerCall ℚ)) (now : DateTime)
        (envelope : WorkerEnvelope) (dedupeKey payloadRef : String) (job : LocalJob)
        (moves : List WorkMove) (s : Watch),
      Accepts (play WorkerCall.step w.fresh earlier) now envelope dedupeKey payloadRef job →
      s = play (Watch.step ℚ)
        { worker := WorkerCall.step (play WorkerCall.step w.fresh earlier)
            (.enqueue now envelope dedupeKey payloadRef : WorkerCall ℚ)
          job := job } moves →
      s.calls.Pairwise (fun a b => a.1.instant ≤ b.1.instant) →
      w.maxAttempts ≤ s.calls.length → s.Settled := by
  intro hclaim
  have hsettled := hclaim deskWorker [] _ _ _ _ _ lateCalls lateWatch
    (accepts_deskEnqueue rfl rfl rfl) lateWatch_eq
    (by rw [calls_lateWatch]; simp) (by rw [calls_lateWatch]; decide)
  have hfailed : lateWatch.job.state = .failed := rfl
  have hterminal := hsettled.1
  rw [hfailed] at hterminal
  cases hterminal

end OpenMemory.Worker
