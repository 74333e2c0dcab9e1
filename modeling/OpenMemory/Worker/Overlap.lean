import OpenMemory.Worker.Registry

/-!
# Calls of `run_one` that overlap

`run_one` looks at the state of its job before the await and writes it after. Between the two other
calls run, on the same job as well. A move of `Calls` is a call up to its await (`start`), the end of
a handler that a call awaits (`finish`), or the end of a call that is cancelled there (`cancel`); any
order of moves is an interleaving.

`absorbing_iff` says which ones are safe, whatever comes after: those in which no call gets past the
test of the state while another one awaits on its job (`CallMove.Overlaps`), and none is cancelled on
the last attempt (`CallMove.Abandons`). In these a terminal state is final and no job's handler is
started more often than the budget allows.
-/

namespace OpenMemory.Worker

open Lib Cloud

/-! ## Interleavings -/

/-- A worker with calls of `run_one` at their awaits, and how often the handler of each job was
started. -/
structure Calls where
  worker : LocalTenantWorker
  awaiting : UUID → Nat
  started : UUID → Nat

/-- The worker before the first call. An attempt is counted just before the handler is started. -/
def LocalTenantWorker.calls (w : LocalTenantWorker) : Calls where
  worker := w
  awaiting := fun _ => 0
  started j := ((w.jobs.get? j).map LocalJob.attempts).getD 0

inductive CallMove
  | start (now : DateTime) (jobId : UUID)
  | finish (jobId : UUID) (outcome : HandlerOutcome)
  | cancel (jobId : UUID)

/-- One move. Calls that await on one job share its record, so it does not matter which one ends. -/
def Calls.step (s : Calls) : CallMove → Calls
  | .start now j =>
    match s.worker.jobs.get? j with
    | none => s
    | some job =>
      match job.start s.worker.secret s.worker.maxAttempts now with
      | .returned => s
      | .failed job' => { s with worker := s.worker.putJob j job' }
      | .awaits job' =>
        { worker := s.worker.putJob j job'
          awaiting := Function.update s.awaiting j (s.awaiting j + 1)
          started := Function.update s.started j (s.started j + 1) }
  | .finish j outcome =>
    match s.awaiting j, s.worker.jobs.get? j with
    | n + 1, some job =>
      { s with
        worker := s.worker.putJob j (job.settle s.worker.maxAttempts outcome)
        awaiting := Function.update s.awaiting j n }
    | _, _ => s
  | .cancel j =>
    -- `CancelledError` is no `Exception`: the call leaves, and its job stays as it is
    match s.awaiting j with
    | n + 1 => { s with awaiting := Function.update s.awaiting j n }
    | 0 => s

/-- A call that finds its job in no terminal state although another one awaits on it, and goes on: to
its handler, or to a dead letter. -/
def CallMove.Overlaps (s : Calls) : CallMove → Prop
  | start now j =>
    0 < s.awaiting j ∧ ∃ job, s.worker.jobs.get? j = some job ∧ job.state.isTerminal = false ∧
      (job.envelope.verify s.worker.secret now = .ok () ∨ s.worker.maxAttempts ≤ job.attempts)
  | finish _ _ => False
  | cancel _ => False

/-- A call that awaits the handler of its job's last attempt, or of one beyond it, is cancelled. -/
def CallMove.Abandons (s : Calls) : CallMove → Prop
  | start _ _ => False
  | finish _ _ => False
  | cancel j =>
    0 < s.awaiting j ∧ ∃ job, s.worker.jobs.get? j = some job ∧ s.worker.maxAttempts ≤ job.attempts

/-- Nothing overlaps and nothing is cancelled. -/
def Calls.Orderly (s : Calls) (m : CallMove) : Prop := ¬m.Overlaps s ∧ ∀ j, m ≠ .cancel j

/-- Jobs that can still be run have attempts left. -/
def LocalTenantWorker.HasSpare (w : LocalTenantWorker) : Prop :=
  ∀ j job now, w.jobs.get? j = some job → job.state.isTerminal = false →
    job.envelope.verify w.secret now = .ok () → job.attempts < w.maxAttempts

/-- A move leaves terminal states alone, and a handler that it starts is within the budget. -/
structure Calls.Lawful (s : Calls) (m : CallMove) : Prop where
  absorbs : ∀ j job, s.worker.jobs.get? j = some job → job.state.isTerminal = true →
    ∃ job', (s.step m).worker.jobs.get? j = some job' ∧ job'.state = job.state
  bounded : ∀ j, s.started j < (s.step m).started j →
    (s.step m).started j ≤ s.worker.maxAttempts

/-! ## One move -/

section Step

variable {s : Calls} {now : DateTime} {i j : UUID} {outcome : HandlerOutcome} {job : LocalJob}

/-- The four ways a call gets to its await, or does not. -/
theorem Calls.start_cases (s : Calls) (now : DateTime) (j : UUID) :
    s.step (.start now j) = s ∧
        (∀ job, s.worker.jobs.get? j = some job → job.state.isTerminal = true) ∨
    ∃ job, s.worker.jobs.get? j = some job ∧ job.state.isTerminal = false ∧
      (job.envelope.verify s.worker.secret now ≠ .ok () ∧
          s.step (.start now j) =
            { s with worker := s.worker.putJob j (job.fail s.worker.maxAttempts) } ∨
        job.envelope.verify s.worker.secret now = .ok () ∧
          s.step (.start now j) =
            { worker := s.worker.putJob j { job with attempts := job.attempts + 1 }
              awaiting := Function.update s.awaiting j (s.awaiting j + 1)
              started := Function.update s.started j (s.started j + 1) }) := by
  -- an unknown job
  cases hj : s.worker.jobs.get? j with
  | none =>
    refine .inl ⟨?_, fun job h => by cases h⟩
    unfold step
    dsimp only
    rw [hj]
  | some job =>
    cases hterminal : job.state.isTerminal with
    -- one that has ended already
    | true =>
      refine .inl ⟨?_, ?_⟩
      · unfold step
        dsimp only
        rw [hj]
        simp only [LocalJob.start, hterminal, if_true]
      · intro job' h
        cases h
        exact hterminal
    | false =>
      refine .inr ⟨job, rfl, hterminal, ?_⟩
      cases hverify : job.envelope.verify s.worker.secret now with
      -- the envelope is refused, and the attempt fails the job
      | error e =>
        refine .inl ⟨by simp, ?_⟩
        unfold step
        dsimp only
        rw [hj]
        simp [LocalJob.start, hterminal, hverify]
      -- the handler is started, and the call awaits
      | ok u =>
        refine .inr ⟨rfl, ?_⟩
        unfold step
        dsimp only
        rw [hj]
        simp [LocalJob.start, hterminal, hverify]

/-- A handler that nothing awaits does nothing. -/
theorem Calls.finish_of_idle (h : s.awaiting j = 0) : s.step (.finish j outcome) = s := by
  unfold step
  dsimp only
  rw [h]

theorem Calls.finish_of_awaiting {n : Nat} (h : s.awaiting j = n + 1)
    (hj : s.worker.jobs.get? j = some job) :
    s.step (.finish j outcome) =
      { s with
        worker := s.worker.putJob j (job.settle s.worker.maxAttempts outcome)
        awaiting := Function.update s.awaiting j n } := by
  conv_lhs => unfold step
  dsimp only
  rw [h, hj]

/-- A handler ends on a job that is there, or nothing happens. -/
theorem Calls.finish_cases (s : Calls) (j : UUID) (outcome : HandlerOutcome) :
    s.step (.finish j outcome) = s ∨
    ∃ n job, s.awaiting j = n + 1 ∧ s.worker.jobs.get? j = some job ∧
      s.step (.finish j outcome) =
        { s with
          worker := s.worker.putJob j (job.settle s.worker.maxAttempts outcome)
          awaiting := Function.update s.awaiting j n } := by
  cases hawaiting : s.awaiting j with
  | zero => exact .inl (finish_of_idle hawaiting)
  | succ n =>
    cases hj : s.worker.jobs.get? j with
    | none =>
      refine .inl ?_
      unfold step
      dsimp only
      rw [hawaiting, hj]
    | some job => exact .inr ⟨n, job, rfl, rfl, finish_of_awaiting hawaiting hj⟩

/-- A call that is cancelled leaves its job alone. -/
theorem Calls.cancel_cases (s : Calls) (j : UUID) :
    s.awaiting j = 0 ∧ s.step (.cancel j) = s ∨ ∃ n, s.awaiting j = n + 1 ∧
      s.step (.cancel j) = { s with awaiting := Function.update s.awaiting j n } := by
  cases hawaiting : s.awaiting j with
  | zero =>
    refine .inl ⟨rfl, ?_⟩
    unfold step
    dsimp only
    rw [hawaiting]
  | succ n =>
    refine .inr ⟨n, rfl, ?_⟩
    conv_lhs => unfold step
    dsimp only
    rw [hawaiting]

/-- A call that gets to its handler. -/
theorem Calls.start_of_verify (hj : s.worker.jobs.get? j = some job)
    (hlive : job.state.isTerminal = false)
    (hverify : job.envelope.verify s.worker.secret now = .ok ()) :
    s.step (.start now j) =
      { worker := s.worker.putJob j { job with attempts := job.attempts + 1 }
        awaiting := Function.update s.awaiting j (s.awaiting j + 1)
        started := Function.update s.started j (s.started j + 1) } := by
  rcases s.start_cases now j with
    ⟨-, hterminal⟩ | ⟨job', hj', -, ⟨hrefused, -⟩ | ⟨-, hstart⟩⟩
  · rw [hterminal job hj] at hlive
    cases hlive
  · rw [hj] at hj'
    cases hj'
    exact absurd hverify hrefused
  · rw [hj] at hj'
    cases hj'
    exact hstart

/-- A call that is nowhere cancelled or overlapped is `runOne`. -/
theorem Calls.runOne_eq (hidle : s.awaiting j = 0) :
    ((s.step (.start now j)).step (.finish j outcome)).worker =
      (s.worker.runOne now j outcome).2 := by
  rw [LocalTenantWorker.runOne_snd]
  rcases s.start_cases now j with
    ⟨hstart, hterminal⟩ | ⟨job, hj, hlive, ⟨hverify, hstart⟩ | ⟨hverify, hstart⟩⟩
  · rw [hstart, finish_of_idle hidle]
    cases hj : s.worker.jobs.get? j with
    | none => rfl
    | some job =>
      -- a terminal job is put back as it was
      have hsame : job.runOne s.worker.secret s.worker.maxAttempts now outcome = job := by
        unfold LocalJob.runOne LocalJob.start
        rw [hterminal job hj]
        rfl
      show s.worker = s.worker.putJob j _
      rw [hsame]
      unfold LocalTenantWorker.putJob
      rw [Dict.set_eq_self hj]
  · rw [hstart, finish_of_idle (by exact hidle), hj]
    refine congrArg (s.worker.putJob j) ?_
    rcases LocalJob.runOne_cases s.worker.secret s.worker.maxAttempts now outcome job with
      ⟨h, -⟩ | ⟨-, -, h⟩ | ⟨-, h, -⟩
    · rw [hlive] at h
      cases h
    · exact h.symm
    · exact absurd h hverify
  · rw [hstart, finish_of_awaiting (n := 0) (by simp [hidle]) (s.worker.get?_putJob_self j _), hj]
    rcases LocalJob.runOne_cases s.worker.secret s.worker.maxAttempts now outcome job with
      ⟨h, -⟩ | ⟨-, h, -⟩ | ⟨-, -, h⟩
    · rw [hlive] at h
      cases h
    · exact absurd hverify h
    · show (s.worker.putJob j _).putJob j _ = s.worker.putJob j _
      rw [h]
      unfold LocalTenantWorker.putJob
      simp

end Step

/-! ## One call at a time -/

/-- At most one call awaits on a job, on one with a valid envelope in no terminal state; and while
none does the budget is not used up. -/
structure Exclusive (secret : Bytes) (maxAttempts awaiting started : Nat)
    (found : Option LocalJob) : Prop where
  one : awaiting ≤ 1
  live : ∀ job, found = some job → 0 < awaiting → job.state.isTerminal = false
  valid : ∀ job, found = some job → 0 < awaiting → ∃ now, job.envelope.verify secret now = .ok ()
  counted : ∀ job, found = some job → started = job.attempts
  spare : ∀ job now, found = some job → job.state.isTerminal = false →
    job.envelope.verify secret now = .ok () → awaiting = 0 → job.attempts < maxAttempts

theorem LocalJob.attempts_settle (maxAttempts : Nat) (outcome : HandlerOutcome) (job : LocalJob) :
    (job.settle maxAttempts outcome).attempts = job.attempts := by
  unfold settle
  split
  · rfl
  · split <;> rfl

/-- A handler leaves its job in a terminal state or with attempts left. -/
theorem LocalJob.lt_of_settle {maxAttempts : Nat} {outcome : HandlerOutcome} {job : LocalJob}
    (h : (job.settle maxAttempts outcome).state.isTerminal = false) :
    job.attempts < maxAttempts := by
  unfold settle at h
  split at h
  · exact isTerminal_fail.mp h
  · split at h
    · rename_i hresult
      rcases hresult with rfl | rfl <;> cases h
    · exact isTerminal_fail.mp h

namespace Exclusive

variable {secret : Bytes} {maxAttempts awaiting started : Nat} {job : LocalJob}

/-- A call whose envelope is refused. -/
theorem fail (h : Exclusive secret maxAttempts awaiting started (some job))
    (hleft : awaiting = 0 ∨ job.attempts < maxAttempts) :
    Exclusive secret maxAttempts awaiting started (some (job.fail maxAttempts)) := by
  refine ⟨h.one, ?_, ?_, ?_, ?_⟩
  · rintro _ ⟨⟩ hawaiting
    rcases hleft with hidle | hleft
    · omega
    · exact LocalJob.isTerminal_fail.mpr hleft
  · rintro _ ⟨⟩
    exact h.valid job rfl
  · rintro _ ⟨⟩
    exact h.counted job rfl
  · rintro _ now ⟨⟩ hlive - -
    exact LocalJob.isTerminal_fail.mp hlive

/-- A call that gets to its handler. -/
theorem launch {now : DateTime} (h : Exclusive secret maxAttempts 0 started (some job))
    (hlive : job.state.isTerminal = false) (hverify : job.envelope.verify secret now = .ok ()) :
    Exclusive secret maxAttempts 1 (started + 1)
      (some { job with attempts := job.attempts + 1 }) := by
  have hcount := h.counted job rfl
  refine ⟨le_refl 1, ?_, ?_, ?_, ?_⟩
  · rintro _ ⟨⟩ -
    exact hlive
  · rintro _ ⟨⟩ -
    exact ⟨now, hverify⟩
  · rintro _ ⟨⟩
    show started + 1 = job.attempts + 1
    omega
  · rintro _ _ ⟨⟩ - - hidle
    omega

/-- The handler of the one call that awaits has ended. -/
theorem settle {n : Nat} (h : Exclusive secret maxAttempts (n + 1) started (some job))
    (outcome : HandlerOutcome) :
    Exclusive secret maxAttempts n started (some (job.settle maxAttempts outcome)) := by
  have hone := h.one
  refine ⟨by omega, ?_, ?_, ?_, ?_⟩
  · rintro _ - hawaiting
    omega
  · rintro _ - hawaiting
    omega
  · rintro _ ⟨⟩
    rw [LocalJob.attempts_settle]
    exact h.counted job rfl
  · rintro _ now ⟨⟩ hlive - -
    rw [LocalJob.attempts_settle]
    exact LocalJob.lt_of_settle hlive

/-- The one call that awaits is cancelled before the last attempt. -/
theorem cancel {n : Nat} {found : Option LocalJob}
    (h : Exclusive secret maxAttempts (n + 1) started found)
    (hleft : ∀ job, found = some job → job.attempts < maxAttempts) :
    Exclusive secret maxAttempts n started found := by
  have hone := h.one
  refine ⟨by omega, ?_, ?_, h.counted, ?_⟩
  · rintro _ - hawaiting
    omega
  · rintro _ - hawaiting
    omega
  · intro job now hjob _ _ _
    exact hleft job hjob

end Exclusive

/-- No two calls await on one job. -/
def Calls.Serial (s : Calls) : Prop :=
  ∀ j, Exclusive s.worker.secret s.worker.maxAttempts (s.awaiting j) (s.started j)
    (s.worker.jobs.get? j)

/-- So it is before the first call, if jobs that can still be run have attempts left. -/
theorem LocalTenantWorker.HasSpare.serial {w : LocalTenantWorker} (h : w.HasSpare) :
    w.calls.Serial := by
  intro j
  refine ⟨Nat.zero_le 1, fun _ _ h => absurd h (Nat.lt_irrefl 0),
    fun _ _ h => absurd h (Nat.lt_irrefl 0), fun job hj => ?_, fun job now hj hlive hverify _ => ?_⟩
  · show ((w.jobs.get? j).map LocalJob.attempts).getD 0 = job.attempts
    have hfound : w.jobs.get? j = some job := hj
    rw [hfound]
    rfl
  · exact h j job now hj hlive hverify

section Serial

variable {s : Calls} {m : CallMove}

/-- What a move does to the job `i`, when it is about the job `j`. -/
theorem Calls.Serial.put {j : UUID} {job : LocalJob} {awaiting started : Nat} (h : s.Serial)
    (hjob : Exclusive s.worker.secret s.worker.maxAttempts awaiting started (some job)) :
    Serial { worker := s.worker.putJob j job
             awaiting := Function.update s.awaiting j awaiting
             started := Function.update s.started j started } := by
  intro i
  by_cases hi : i = j
  · subst hi
    show Exclusive s.worker.secret s.worker.maxAttempts (Function.update s.awaiting i awaiting i)
      (Function.update s.started i started i) ((s.worker.putJob i job).jobs.get? i)
    rw [LocalTenantWorker.get?_putJob_self, Function.update_self, Function.update_self]
    exact hjob
  · show Exclusive s.worker.secret s.worker.maxAttempts (Function.update s.awaiting j awaiting i)
      (Function.update s.started j started i) ((s.worker.putJob j job).jobs.get? i)
    rw [LocalTenantWorker.get?_putJob_of_ne _ _ hi, Function.update_of_ne hi,
      Function.update_of_ne hi]
    exact h i

/-- A move that neither overlaps another call nor gives up the last attempt. -/
theorem Calls.Serial.step (h : s.Serial) (hm : ¬m.Overlaps s ∧ ¬m.Abandons s) :
    (s.step m).Serial := by
  cases m with
  | start now j =>
    rcases s.start_cases now j with ⟨hstart, -⟩ | ⟨job, hj, hlive, hcase⟩
    · rw [hstart]
      exact h
    · have hexclusive := h j
      rw [hj] at hexclusive
      rcases hcase with ⟨hverify, hstart⟩ | ⟨hverify, hstart⟩
      · -- the envelope is refused: a dead letter only if no handler runs
        have hleft : s.awaiting j = 0 ∨ job.attempts < s.worker.maxAttempts := by
          by_contra hcon
          push Not at hcon
          exact hm.1 ⟨Nat.pos_of_ne_zero hcon.1, job, hj, hlive, .inr hcon.2⟩
        have hput := h.put (j := j) (hexclusive.fail hleft)
        rw [Function.update_eq_self, Function.update_eq_self] at hput
        rw [hstart]
        exact hput
      -- the handler starts, and no other one of the job runs
      · have hidle : s.awaiting j = 0 := by
          by_contra hcon
          exact hm.1 ⟨Nat.pos_of_ne_zero hcon, job, hj, hlive, .inl hverify⟩
        rw [hidle] at hexclusive
        rw [hstart, hidle]
        exact h.put (hexclusive.launch hlive hverify)
  | finish j outcome =>
    rcases s.finish_cases j outcome with hfinish | ⟨n, job, hawaiting, hj, hfinish⟩
    · rw [hfinish]
      exact h
    -- the one handler of the job is settled
    · have hexclusive := h j
      rw [hj, hawaiting] at hexclusive
      have hput := h.put (j := j) (hexclusive.settle outcome)
      rw [Function.update_eq_self j s.started] at hput
      rw [hfinish]
      exact hput
  | cancel j =>
    rcases s.cancel_cases j with ⟨-, hcancel⟩ | ⟨n, hawaiting, hcancel⟩
    · rw [hcancel]
      exact h
    -- a cancelled call leaves its job running, with an attempt to spare
    · rw [hcancel]
      intro i
      by_cases hi : i = j
      · subst hi
        have hexclusive := h i
        show Exclusive s.worker.secret s.worker.maxAttempts (Function.update s.awaiting i n i)
          (s.started i) (s.worker.jobs.get? i)
        rw [Function.update_self]
        rw [hawaiting] at hexclusive
        refine hexclusive.cancel fun job hj => ?_
        by_contra hcon
        exact hm.2 ⟨by omega, job, hj, not_lt.mp hcon⟩
      · show Exclusive s.worker.secret s.worker.maxAttempts (Function.update s.awaiting j n i)
          (s.started i) (s.worker.jobs.get? i)
        rw [Function.update_of_ne hi]
        exact h i

/-- A job in a terminal state has no call left that could write it. -/
theorem Calls.Serial.absorbs (h : s.Serial) {j : UUID} {job : LocalJob}
    (hj : s.worker.jobs.get? j = some job) (hterminal : job.state.isTerminal = true) :
    (s.step m).worker.jobs.get? j = some job := by
  have hput : ∀ {i : UUID} {job' : LocalJob}, j ≠ i →
      (s.worker.putJob i job').jobs.get? j = some job := fun hne =>
    (s.worker.get?_putJob_of_ne _ hne).trans hj
  cases m with
  | start now i =>
    rcases s.start_cases now i with ⟨hstart, -⟩ | ⟨job', hi, hlive, hcase⟩
    · rw [hstart]
      exact hj
    -- only another job can be written, since this one has ended
    · have hne : j ≠ i := by
        rintro rfl
        rw [hj] at hi
        cases hi
        rw [hterminal] at hlive
        cases hlive
      rcases hcase with ⟨-, hstart⟩ | ⟨-, hstart⟩
      · rw [hstart]
        exact hput hne
      · rw [hstart]
        exact hput hne
  | finish i outcome =>
    rcases s.finish_cases i outcome with hfinish | ⟨n, job', hawaiting, hi, hfinish⟩
    · rw [hfinish]
      exact hj
    -- and no handler of this one runs
    · have hne : j ≠ i := by
        rintro rfl
        rw [(h j).live job hj (by omega)] at hterminal
        cases hterminal
      rw [hfinish]
      exact hput hne
  | cancel i =>
    rcases s.cancel_cases i with ⟨-, hcancel⟩ | ⟨n, -, hcancel⟩ <;> rw [hcancel] <;> exact hj

/-- Only a call that gets to its handler starts one. -/
theorem Calls.started_step {j : UUID} (h : s.started j < (s.step m).started j) :
    ∃ now job, m = .start now j ∧ s.worker.jobs.get? j = some job ∧
      job.state.isTerminal = false ∧ job.envelope.verify s.worker.secret now = .ok () ∧
      (s.step m).started j = s.started j + 1 := by
  cases m with
  | start now i =>
    rcases s.start_cases now i with ⟨hstart, -⟩ | ⟨job, hi, hlive, ⟨-, hstart⟩ | ⟨hverify, hstart⟩⟩
    · rw [hstart] at h
      exact absurd h (lt_irrefl _)
    · rw [hstart] at h
      exact absurd h (lt_irrefl _)
    -- only a start that passes the verification starts a handler
    · by_cases hij : j = i
      · subst hij
        refine ⟨now, job, rfl, hi, hlive, hverify, ?_⟩
        rw [hstart]
        exact Function.update_self j _ _
      · rw [hstart] at h
        dsimp only at h
        rw [Function.update_of_ne hij] at h
        exact absurd h (lt_irrefl _)
  -- settling and cancelling start none
  | finish i outcome =>
    rcases s.finish_cases i outcome with hfinish | ⟨_, _, -, -, hfinish⟩ <;> rw [hfinish] at h <;>
      exact absurd h (lt_irrefl _)
  | cancel i =>
    rcases s.cancel_cases i with ⟨-, hcancel⟩ | ⟨_, -, hcancel⟩ <;> rw [hcancel] at h <;>
      exact absurd h (lt_irrefl _)

/-- While no two calls await on one job, a move that overlaps nothing is lawful. -/
theorem Calls.Serial.lawful (h : s.Serial) (hm : ¬m.Overlaps s) : s.Lawful m := by
  refine ⟨fun j job hj hterminal => ⟨job, h.absorbs hj hterminal, rfl⟩, fun j hmore => ?_⟩
  obtain ⟨now, job, rfl, hj, hlive, hverify, hone⟩ := started_step hmore
  have hidle : s.awaiting j = 0 := by
    by_contra hcon
    exact hm ⟨Nat.pos_of_ne_zero hcon, job, hj, hlive, .inl hverify⟩
  have hspare := (h j).spare job now hj hlive hverify hidle
  have hcount := (h j).counted job hj
  omega

end Serial

/-! ## What goes wrong -/

/-- A handler that leaves a terminal job in another state. -/
theorem Calls.not_lawful_finish {s : Calls} {j : UUID} {job : LocalJob} {outcome : HandlerOutcome}
    {n : Nat} (hn : s.awaiting j = n + 1) (hj : s.worker.jobs.get? j = some job)
    (hterminal : job.state.isTerminal = true)
    (hne : (job.settle s.worker.maxAttempts outcome).state ≠ job.state) :
    ¬s.Lawful (.finish j outcome) := by
  intro hlawful
  obtain ⟨job', hj', hsame⟩ := hlawful.absorbs j job hj hterminal
  rw [finish_of_awaiting hn hj] at hj'
  cases (LocalTenantWorker.get?_putJob_self _ j _).symm.trans hj'
  exact hne hsame

theorem LocalJob.fail_ne_ready (maxAttempts : Nat) (job : LocalJob) :
    (job.fail maxAttempts).state ≠ .ready := by
  unfold fail
  dsimp only
  split <;> decide

/-- A job that goes on while a call awaits: handlers can end so that a terminal state changes. -/
theorem Calls.exists_unlawful {s : Calls} {m : CallMove} (h : m.Overlaps s) :
    ∃ ends : List (UUID × HandlerOutcome),
      ¬Along step Lawful (s.step m) (ends.map fun e => .finish e.1 e.2) := by
  cases m with
  | finish j outcome => exact h.elim
  | cancel j => exact h.elim
  | start now j =>
    obtain ⟨hawaiting, job, hj, hlive, hgoes⟩ := h
    obtain ⟨n, hn⟩ := Nat.exists_eq_succ_of_ne_zero (Nat.pos_iff_ne_zero.mp hawaiting)
    rcases s.start_cases now j with ⟨-, hterminal⟩ | ⟨job', hj', -, hcase⟩
    · rw [hterminal job hj] at hlive
      cases hlive
    rw [hj] at hj'
    cases hj'
    rcases hcase with ⟨hverify, hstart⟩ | ⟨hverify, hstart⟩
    · -- a dead letter, and the call that awaits returns ready
      have hdead : (job.fail s.worker.maxAttempts).state = .deadLetter :=
        if_pos (hgoes.resolve_left hverify)
      refine ⟨[(j, .returned .ready)], ?_⟩
      rw [hstart]
      rintro ⟨hlawful, -⟩
      have hfound := s.worker.get?_putJob_self j (job.fail s.worker.maxAttempts)
      refine not_lawful_finish (j := j) (n := n) ?_ hfound ?_ ?_ hlawful
      · exact hn
      · rw [hdead]
        rfl
      · rw [hdead]
        exact fun h => by cases h
    · -- two handlers run: one returns ready, then the other one raises
      refine ⟨[(j, .returned .ready), (j, .raised)], ?_⟩
      rw [hstart]
      rintro ⟨-, hlawful, -⟩
      have hfound := s.worker.get?_putJob_self j { job with attempts := job.attempts + 1 }
      have htwo : Function.update s.awaiting j (s.awaiting j + 1) j = n + 1 + 1 := by
        rw [Function.update_self, hn]
      dsimp only at hlawful
      rw [finish_of_awaiting htwo hfound] at hlawful
      refine not_lawful_finish (j := j) (n := n) ?_ (LocalTenantWorker.get?_putJob_self _ j _) ?_ ?_
        hlawful
      · exact Function.update_self j _ _
      · rfl
      · exact LocalJob.fail_ne_ready _ _

/-- The ends of handlers overlap nothing. -/
theorem Calls.orderly_ends (s : Calls) (ends : List (UUID × HandlerOutcome)) :
    Along step Orderly s (ends.map fun e => .finish e.1 e.2) := by
  induction ends generalizing s with
  | nil => trivial
  | cons e ends ih => exact ⟨⟨fun h => h, nofun⟩, ih _⟩

/-- A job with no attempts left that can be run: the next call starts its handler once more. -/
theorem Calls.not_lawful_start {s : Calls} {j : UUID} {job : LocalJob} {now : DateTime}
    (hj : s.worker.jobs.get? j = some job) (hlive : job.state.isTerminal = false)
    (hverify : job.envelope.verify s.worker.secret now = .ok ())
    (hcount : s.started j = job.attempts) (hspent : s.worker.maxAttempts ≤ job.attempts) :
    ¬s.Lawful (.start now j) := by
  intro hlawful
  have hmore : (s.step (.start now j)).started j = s.started j + 1 := by
    rw [start_of_verify hj hlive hverify]
    exact Function.update_self j _ _
  have hbounded := hlawful.bounded j (by omega)
  omega

/-- A call that is cancelled on the last attempt: its job can be run again. -/
theorem Calls.Serial.exists_unlawful_of_abandons {s : Calls} {m : CallMove} (h : s.Serial)
    (hm : m.Abandons s) :
    ∃ again, (s.step m).Orderly again ∧ ¬(s.step m).Lawful again := by
  cases m with
  | start now j => exact hm.elim
  | finish j outcome => exact hm.elim
  | cancel j =>
    obtain ⟨hawaiting, job, hj, hspent⟩ := hm
    obtain ⟨now, hverify⟩ := (h j).valid job hj hawaiting
    have hlive := (h j).live job hj hawaiting
    have hone := (h j).one
    rcases s.cancel_cases j with ⟨hidle, -⟩ | ⟨n, hn, hcancel⟩
    · omega
    · refine ⟨.start now j, ⟨?_, nofun⟩, ?_⟩
      · rintro ⟨hstill, -⟩
        rw [hcancel] at hstill
        dsimp only at hstill
        rw [Function.update_self] at hstill
        omega
      · rw [hcancel]
        exact not_lawful_start (s := { s with awaiting := Function.update s.awaiting j n }) hj hlive
          hverify ((h j).counted job hj) hspent

/-- An interleaving is safe, whatever comes after any part of it that overlaps nothing and cancels
nothing, if and only if at its start the jobs that can be run have attempts left, no call overlaps
another one on its job, and none is cancelled on the last attempt. -/
theorem absorbing_iff (w : LocalTenantWorker) (moves : List CallMove) :
    (∀ before, before <+: moves → ∀ after : List CallMove,
      Along Calls.step Calls.Orderly (play Calls.step w.calls before) after →
        Along Calls.step Calls.Lawful w.calls (before ++ after)) ↔
      w.HasSpare ∧
        Along Calls.step (fun s m => ¬m.Overlaps s ∧ ¬m.Abandons s) w.calls moves := by
  constructor
  · intro hsafe
    have hspare : w.HasSpare := by
      -- a job without an attempt to spare is started once too often
      intro j job now hj hlive hverify
      by_contra hspent
      have hcount : w.calls.started j = job.attempts := by
        show ((w.jobs.get? j).map LocalJob.attempts).getD 0 = job.attempts
        rw [hj]
        rfl
      have horderly : w.calls.Orderly (.start now j) :=
        ⟨fun hoverlaps => absurd hoverlaps.1 (lt_irrefl 0), nofun⟩
      have halong := hsafe [] List.nil_prefix [.start now j] ⟨horderly, trivial⟩
      exact Calls.not_lawful_start (s := w.calls) hj hlive hverify hcount (not_lt.mp hspent)
        halong.1
    refine ⟨hspare, ?_⟩
    -- the first move that overlaps or abandons is followed by one that is not lawful
    by_contra hcon
    obtain ⟨before, m, after, rfl, hbefore, hm⟩ := exists_first_of_not_along hcon
    have hprefix : before ++ [m] <+: before ++ m :: after := ⟨after, by simp⟩
    have hserial : (play Calls.step w.calls before).Serial :=
      hbefore.kept (fun s m hs hm => hs.step hm) hspare.serial
    have hlast : play Calls.step w.calls (before ++ [m]) =
        (play Calls.step w.calls before).step m := play_append _ _ _
    by_cases hoverlaps : m.Overlaps (play Calls.step w.calls before)
    · -- handlers that await can end so that a terminal state changes
      obtain ⟨ends, hends⟩ := Calls.exists_unlawful hoverlaps
      have halong := (along_append.mp (hsafe _ hprefix _ (Calls.orderly_ends _ ends))).2
      rw [hlast] at halong
      exact hends halong
    · -- a cancelled call's job can be run again
      have habandons : m.Abandons (play Calls.step w.calls before) := by
        by_contra hnot
        exact hm ⟨hoverlaps, hnot⟩
      obtain ⟨again, horderly, hunlawful⟩ := hserial.exists_unlawful_of_abandons habandons
      rw [← hlast] at horderly hunlawful
      exact hunlawful (along_append.mp (hsafe _ hprefix [again] ⟨horderly, trivial⟩)).2.1
  · rintro ⟨hspare, hserial⟩ before ⟨after, rfl⟩ more hmore
    -- an orderly continuation cancels nothing, so it abandons nothing either
    have hmore' : Along Calls.step (fun s m => ¬m.Overlaps s ∧ ¬m.Abandons s)
        (play Calls.step w.calls before) more := by
      refine hmore.weaken (I := fun _ => True) trivial (fun _ _ _ _ => trivial) ?_
      rintro s m - ⟨hoverlaps, hcancels⟩
      refine ⟨hoverlaps, fun habandons => ?_⟩
      cases m with
      | start now j => exact habandons
      | finish j outcome => exact habandons
      | cancel j => exact hcancels j rfl
    have halong := along_append.mpr ⟨(along_append.mp hserial).1, hmore'⟩
    exact halong.weaken hspare.serial (fun s m hs hm => hs.step hm)
      fun s m hs hm => hs.lawful hm.1

/-! ### Two calls on one job -/

/-- Both calls reach their handlers; the first handler returns ready, the second one raises. -/
theorem ready_then_failed :
    ¬∀ (w : LocalTenantWorker) (moves : List CallMove),
      Along Calls.step Calls.Lawful w.calls moves := by
  intro hclaim
  have hverify : (deskEnvelope 1).verify [7] (day2026 1) = .ok () :=
    WorkerEnvelope.verify_ok_iff.mpr ⟨sealed_deskEnvelope 1, firstDay_lt⟩
  -- the second call finds a pending job on which the first one awaits
  have hoverlaps : CallMove.Overlaps
      (Calls.step busyWorker.calls (.start (day2026 1) ⟨9⟩)) (.start (day2026 1) ⟨9⟩) := by
    have hfound : busyWorker.jobs.get? ⟨9⟩ = some
        { envelope := deskEnvelope 1, dedupeKey := "embed:1", payloadRef := "memory:1" } :=
      Dict.get?_set_self _ _ _
    rw [Calls.start_of_verify (s := busyWorker.calls) hfound rfl hverify]
    exact ⟨Nat.one_pos, _, LocalTenantWorker.get?_putJob_self _ _ _, rfl, .inl hverify⟩
  obtain ⟨ends, hends⟩ := Calls.exists_unlawful hoverlaps
  exact hends (hclaim busyWorker (.start (day2026 1) ⟨9⟩ :: .start (day2026 1) ⟨9⟩ :: _)).2.2

end OpenMemory.Worker
