import Mathlib
import OpenMemory.Lib.Parametric
import OpenMemory.Lib.Prog

/-!
# Tasks under one lock

Tasks over one shared state. A task waits for the lock, copies the state, runs its program one
operation at a time and gives the lock back; when the program raises, or the task is cancelled, it
puts the copy back first. Between two operations any other task may move, and any task may be
cancelled.

- `Prog.transact`: a program alone, in a transaction: an exception leaves the state as it was.
- `TaskPool.Moves`: one move of one task.
- `TaskPool.Orderly`: the invariant. Some order of the tasks that have returned explains the state:
  the one that a free lock protects, or the copy that the holder has made.
- `TaskPool.serializable`: while no task is inside, the state and all results are those of the
  returned tasks, one after another.
-/

namespace OpenMemory.Lib

variable {A Q : Type} {Res : Q → Type} {ε α σ : Type}

namespace Prog

/-- The program alone on the state. An operation that raises may have changed the state. -/
def alone (run : (q : Q) → σ → Except ε (Res q) × σ) : Prog Q Res ε α → σ → Except ε α × σ
  | done result, s => (result, s)
  | exec q next, s => alone run (next (run q s).1) (run q s).2

/-- What is left of a transaction: an exception restores the state. -/
def settle (s : σ) : Except ε α × σ → Except ε α × σ
  | (.ok a, s') => (.ok a, s')
  | (.error e, _) => (.error e, s)

/-- The program alone, in a transaction. -/
def transact (run : (q : Q) → σ → Except ε (Res q) × σ) (p : Prog Q Res ε α) (s : σ) :
    Except ε α × σ :=
  settle s (p.alone run s)

variable {run : (q : Q) → σ → Except ε (Res q) × σ}

theorem alone_bind {β : Type} (p : Prog Q Res ε α) (f : α → Prog Q Res ε β) (s : σ) :
    (p >>= f).alone run s =
      match p.alone run s with
      | (.ok a, s') => (f a).alone run s'
      | (.error e, s') => (.error e, s') := by
  show (p.bind f).alone run s = _
  induction p generalizing s with
  | done result => cases result <;> rfl
  | exec q next ih => exact ih _ _

variable (run) in
/-- The program does what the transaction does; where the transaction raises, the state that the
program leaves does not matter. -/
def Does (p : Prog Q Res ε α) (x : Txn σ ε α) : Prop :=
  ∀ s, (∀ a s', x.run s = .ok (a, s') → p.alone run s = (.ok a, s')) ∧
    ∀ e, x.run s = .error e → (p.alone run s).1 = .error e

theorem Does.bind {β : Type} {p : Prog Q Res ε α} {x : Txn σ ε α} {f : α → Prog Q Res ε β}
    {g : α → Txn σ ε β} (hp : Does run p x) (hf : ∀ a, Does run (f a) (g a)) :
    Does run (p >>= f) (x >>= g) := by
  intro s
  rw [alone_bind]
  constructor
  · intro b s' hrun
    obtain ⟨a, s₁, hx, hg⟩ := Txn.bind_ok.mp hrun
    rw [(hp s).1 a s₁ hx]
    exact (hf a s₁).1 b s' hg
  · intro e hrun
    rcases Txn.bind_error.mp hrun with hx | ⟨a, s₁, hx, hg⟩
    · have hraised := (hp s).2 e hx
      generalize p.alone run s = result at hraised ⊢
      obtain ⟨result, s₁⟩ := result
      obtain rfl : result = .error e := hraised
      rfl
    · rw [(hp s).1 a s₁ hx]
      exact (hf a s₁).2 e hg

theorem Does.pure (a : α) : Does run (Pure.pure a) (Pure.pure a) := by
  intro s
  constructor
  · intro b s' hrun
    obtain ⟨rfl, rfl⟩ := Txn.pure_ok.mp hrun
    rfl
  · intro e hrun
    cases hrun

theorem Does.throw (e : ε) : Does (α := α) run (MonadExcept.throw e) (MonadExcept.throw e) := by
  intro s
  constructor
  · intro a s' hrun
    cases hrun
  · intro e' hrun
    obtain rfl := Except.error.inj hrun
    rfl

variable (run) in
/-- Programs and the transactions that they do. -/
def does : MonadRel ε (Prog Q Res ε) (Txn σ ε) where
  Rel := Does run
  pure := Does.pure
  bind := Does.bind
  map f _ _ hx := Does.bind hx fun a => Does.pure (f a)
  throw := Does.throw

/-- A program in a transaction leaves what the transaction leaves. -/
theorem Does.transact {p : Prog Q Res ε α} {x : Txn σ ε α} (h : Does run p x) (s : σ) :
    p.transact run s = x.attempt s := by
  unfold Prog.transact
  cases hx : x.run s with
  | ok r =>
    rw [Txn.attempt_ok.mpr hx, (h s).1 r.1 r.2 hx]
    rfl
  | error e =>
    rw [Txn.attempt_error.mpr ⟨hx, rfl⟩]
    have hraised := (h s).2 e hx
    generalize p.alone run s = result at hraised ⊢
    obtain ⟨result, s'⟩ := result
    obtain rfl : result = .error e := hraised
    rfl

end Prog

/-- What a task is doing. -/
inductive Phase (Q : Type) (Res : Q → Type) (ε α σ : Type)
  | waiting
  | inside (snapshot : σ) (program : Prog Q Res ε α)
  | returned (result : α)
  | raised (error : ε)
  | cancelled

/-- Does the phase hold the lock? -/
def Phase.isInside : Phase Q Res ε α σ → Bool
  | .inside _ _ => true
  | _ => false

/-- A task and whose it is. -/
structure Task (A Q : Type) (Res : Q → Type) (ε α σ : Type) where
  agent : A
  phase : Phase Q Res ε α σ := .waiting

/-- The call and the result of a task that has returned. -/
def Task.served (t : Task A Q Res ε α σ) : Option (A × α) :=
  match t.phase with
  | .returned a => some (t.agent, a)
  | _ => none

/-- The state, who holds the lock, and the tasks in the order they were made. -/
structure TaskPool (A Q : Type) (Res : Q → Type) (ε α σ : Type) where
  state : σ
  lock : Option Nat := none
  tasks : List (Task A Q Res ε α σ) := []

namespace TaskPool

/-- The pool with one task in another phase. -/
def put (w : TaskPool A Q Res ε α σ) (n : Nat) (t : Task A Q Res ε α σ) (phase : Phase Q Res ε α σ) :
    TaskPool A Q Res ε α σ :=
  { w with tasks := w.tasks.set n { t with phase := phase } }

variable (run : (q : Q) → σ → Except ε (Res q) × σ) (body : A → Prog Q Res ε α)

/-- One move of one task. -/
inductive Moves : TaskPool A Q Res ε α σ → TaskPool A Q Res ε α σ → Prop
  /-- A new task. -/
  | spawn {w} (a : A) : Moves w { w with tasks := w.tasks ++ [{ agent := a }] }
  /-- A task whose program raises before it needs the state need not wait for the lock. -/
  | refuse {w n t e} (task : w.tasks[n]? = some t) (waits : t.phase = .waiting)
      (fails : body t.agent = .done (.error e)) : Moves w (w.put n t (.raised e))
  /-- The lock is free, and the task takes it and copies the state. -/
  | acquire {w n t} (task : w.tasks[n]? = some t) (waits : t.phase = .waiting)
      (free : w.lock = none) :
      Moves w { w.put n t (.inside w.state (body t.agent)) with lock := some n }
  /-- The next operation of a task. -/
  | execute {w n t snapshot q next} (task : w.tasks[n]? = some t)
      (runs : t.phase = .inside snapshot (.exec q next)) :
      Moves w { w.put n t (.inside snapshot (next (run q w.state).1)) with
        state := (run q w.state).2 }
  /-- The program has returned: the lock is released. -/
  | exit {w n t snapshot a} (task : w.tasks[n]? = some t)
      (ends : t.phase = .inside snapshot (.done (.ok a))) :
      Moves w { w.put n t (.returned a) with lock := none }
  /-- The program has raised: the copy is put back, and the lock released. -/
  | rollback {w n t snapshot e} (task : w.tasks[n]? = some t)
      (ends : t.phase = .inside snapshot (.done (.error e))) :
      Moves w { w.put n t (.raised e) with state := snapshot, lock := none }
  /-- Cancelled while it waits for the lock. -/
  | giveUp {w n t} (task : w.tasks[n]? = some t) (waits : t.phase = .waiting) :
      Moves w (w.put n t .cancelled)
  /-- Cancelled between two operations: as if the program had raised. -/
  | cancel {w n t snapshot program} (task : w.tasks[n]? = some t)
      (runs : t.phase = .inside snapshot program) :
      Moves w { w.put n t .cancelled with state := snapshot, lock := none }

/-- What may happen next: a new task, a task goes on, or a task is cancelled. -/
inductive Turn (A : Type)
  | spawn (agent : A)
  | proceed (n : Nat)
  | cancel (n : Nat)

/-- The pool after a turn, if the turn is possible. -/
def turn (w : TaskPool A Q Res ε α σ) : Turn A → Option (TaskPool A Q Res ε α σ)
  | .spawn a => some { w with tasks := w.tasks ++ [{ agent := a }] }
  | .proceed n =>
    match w.tasks[n]? with
    | none => none
    | some t =>
      match t.phase with
      | .waiting =>
        if w.lock = none then
          some { w.put n t (.inside w.state (body t.agent)) with lock := some n }
        else none
      | .inside snapshot (.exec q next) =>
        some { w.put n t (.inside snapshot (next (run q w.state).1)) with
          state := (run q w.state).2 }
      | .inside _ (.done (.ok a)) => some { w.put n t (.returned a) with lock := none }
      | .inside snapshot (.done (.error e)) =>
        some { w.put n t (.raised e) with state := snapshot, lock := none }
      | _ => none
  | .cancel n =>
    match w.tasks[n]? with
    | none => none
    | some t =>
      match t.phase with
      | .waiting => some (w.put n t .cancelled)
      | .inside snapshot _ => some { w.put n t .cancelled with state := snapshot, lock := none }
      | _ => none

/-- Programs in transactions, one after another: all results, and the state at the end. -/
def serially : List A → σ → List (Except ε α) × σ
  | [], s => ([], s)
  | a :: rest, s =>
    let first := (body a).transact run s
    let more := serially rest first.2
    (first.1 :: more.1, more.2)

variable {run body}

/-- A turn that is possible is a move. -/
theorem moves_of_turn {w w' : TaskPool A Q Res ε α σ} {next : Turn A}
    (h : w.turn run body next = some w') : Moves run body w w' := by
  cases next with
  | spawn a =>
    obtain rfl := Option.some.inj h
    exact .spawn a
  | proceed n =>
    unfold turn at h
    dsimp only at h
    split at h
    · cases h
    · rename_i t task
      split at h
      · rename_i waits
        split at h
        · rename_i free
          obtain rfl := Option.some.inj h
          exact .acquire task waits free
        · cases h
      · rename_i runs
        obtain rfl := Option.some.inj h
        exact .execute task runs
      · rename_i ends
        obtain rfl := Option.some.inj h
        exact .exit task ends
      · rename_i ends
        obtain rfl := Option.some.inj h
        exact .rollback task ends
      · cases h
  | cancel n =>
    unfold turn at h
    dsimp only at h
    split at h
    · cases h
    · rename_i t task
      split at h
      · rename_i waits
        obtain rfl := Option.some.inj h
        exact .giveUp task waits
      · rename_i runs
        obtain rfl := Option.some.inj h
        exact .cancel task runs
      · cases h

/-- A schedule whose turns are all possible is a run. -/
theorem reaches_of_turns {turns : List (Turn A)} {w w' : TaskPool A Q Res ε α σ}
    (h : turns.foldlM (turn run body) w = some w') : Reaches (Moves run body) w w' := by
  induction turns generalizing w with
  | nil =>
    obtain rfl := Option.some.inj h
    exact .refl
  | cons next rest ih =>
    rw [List.foldlM_cons] at h
    obtain ⟨w₁, hturn, hrest⟩ := Option.bind_eq_some_iff.mp h
    exact .head (moves_of_turn hturn) (ih hrest)

theorem serially_concat (calls : List A) (a : A) (s : σ) :
    serially run body (calls ++ [a]) s =
      ((serially run body calls s).1 ++ [((body a).transact run (serially run body calls s).2).1],
        ((body a).transact run (serially run body calls s).2).2) := by
  induction calls generalizing s with
  | nil => rfl
  | cons b rest ih =>
    show (_ :: (serially run body (rest ++ [a]) _).1, (serially run body (rest ++ [a]) _).2) = _
    rw [ih]
    rfl

/-! ## The invariant -/

/-- Some order of the tasks that have returned leads from the first state to this one, with the
results that they returned. -/
def Explains (run : (q : Q) → σ → Except ε (Res q) × σ) (body : A → Prog Q Res ε α) (s₀ : σ)
    (w : TaskPool A Q Res ε α σ) (base : σ) : Prop :=
  ∃ served : List (A × α), served.Perm (w.tasks.filterMap Task.served) ∧
    serially run body (served.map Prod.fst) s₀ = (served.map fun x => .ok x.2, base)

/-- The holder of the lock is the only task inside; it has copied the state that the returned
tasks explain, and its program has got from there to the state. -/
structure Orderly (run : (q : Q) → σ → Except ε (Res q) × σ) (body : A → Prog Q Res ε α) (s₀ : σ)
    (w : TaskPool A Q Res ε α σ) : Prop where
  free : w.lock = none → Explains run body s₀ w w.state
  holder : ∀ n, w.lock = some n → ∃ t snapshot program, w.tasks[n]? = some t ∧
    t.phase = .inside snapshot program
  inside : ∀ n t snapshot program, w.tasks[n]? = some t → t.phase = .inside snapshot program →
    w.lock = some n ∧ Explains run body s₀ w snapshot ∧
      (body t.agent).alone run snapshot = program.alone run w.state

section Orderly

variable {s₀ : σ} {w : TaskPool A Q Res ε α σ} {n : Nat} {t : Task A Q Res ε α σ}
  {phase : Phase Q Res ε α σ}

/-- The tasks after one of them has moved. -/
theorem getElem?_put (task : w.tasks[n]? = some t) (m : Nat) :
    (w.put n t phase).tasks[m]? = if m = n then some { t with phase := phase } else w.tasks[m]? := by
  have hlt : n < w.tasks.length := by
    rw [List.getElem?_eq_some_iff] at task
    exact task.1
  show (w.tasks.set n _)[m]? = _
  rw [List.getElem?_set]
  by_cases hm : n = m
  · subst hm
    rw [if_pos rfl, if_pos hlt, if_pos rfl]
  · rw [if_neg hm, if_neg fun h => hm h.symm]

/-- The returned tasks, with one task at its place. -/
theorem filterMap_put (phase : Phase Q Res ε α σ) (task : w.tasks[n]? = some t) :
    ∃ before after, w.tasks.filterMap Task.served = before ++ t.served.toList ++ after ∧
      (w.put n t phase).tasks.filterMap Task.served =
        before ++ ({ t with phase := phase } : Task A Q Res ε α σ).served.toList ++ after := by
  obtain ⟨hlt, rfl⟩ := List.getElem?_eq_some_iff.mp task
  refine ⟨(w.tasks.take n).filterMap Task.served, (w.tasks.drop (n + 1)).filterMap Task.served,
    ?_, ?_⟩
  · conv_lhs => rw [← List.take_append_drop n w.tasks, List.drop_eq_getElem_cons hlt]
    rw [List.filterMap_append, List.filterMap_cons, List.append_assoc]
    cases Task.served w.tasks[n] <;> rfl
  · show (w.tasks.set n _).filterMap Task.served = _
    rw [List.set_eq_take_append_cons_drop, if_pos hlt, List.filterMap_append, List.filterMap_cons,
      List.append_assoc]
    cases Task.served ({ w.tasks[n] with phase := phase } : Task A Q Res ε α σ) <;> rfl

/-- A move that returns nothing leaves the explanation. -/
theorem Explains.put {base : σ} (h : Explains run body s₀ w base) (phase : Phase Q Res ε α σ)
    (task : w.tasks[n]? = some t) (hbefore : t.served = none)
    (hafter : ({ t with phase := phase } : Task A Q Res ε α σ).served = none) :
    Explains run body s₀ (w.put n t phase) base := by
  obtain ⟨served, hperm, hserial⟩ := h
  obtain ⟨before, after, hw, hput⟩ := filterMap_put phase task
  refine ⟨served, ?_, hserial⟩
  rw [hput, hafter, ← hbefore, ← hw]
  exact hperm

/-- A task that returns goes last. -/
theorem Explains.returned {base : σ} {a : α} {s' : σ} (h : Explains run body s₀ w base)
    (task : w.tasks[n]? = some t) (hbefore : t.served = none)
    (hrun : (body t.agent).transact run base = (.ok a, s')) :
    Explains run body s₀ (w.put n t (.returned a)) s' := by
  obtain ⟨served, hperm, hserial⟩ := h
  obtain ⟨before, after, hw, hput⟩ := filterMap_put (.returned a) task
  refine ⟨served ++ [(t.agent, a)], ?_, ?_⟩
  · rw [hput]
    rw [hw, hbefore] at hperm
    have hlast : (before ++ [(t.agent, a)] ++ after).Perm ((before ++ after) ++ [(t.agent, a)]) := by
      rw [List.append_assoc, List.append_assoc]
      exact List.Perm.append_left _ List.perm_append_comm
    have hfirst : (served ++ [(t.agent, a)]).Perm ((before ++ after) ++ [(t.agent, a)]) := by
      refine List.Perm.append_right _ ?_
      simpa using hperm
    exact hfirst.trans hlast.symm
  · rw [List.map_append, List.map_cons, List.map_nil, serially_concat, hserial, hrun,
      List.map_append]
    rfl

theorem ne_inside (h : phase.isInside = false) {snapshot : σ} {program : Prog Q Res ε α} :
    phase ≠ .inside snapshot program := by
  rintro rfl
  cases h

theorem served_of_inside {snapshot : σ} {program : Prog Q Res ε α}
    (h : t.phase = .inside snapshot program) : t.served = none := by
  unfold Task.served
  rw [h]

theorem served_of_waiting (h : t.phase = .waiting) : t.served = none := by
  unfold Task.served
  rw [h]

/-- A task that waits stops waiting without the lock. -/
theorem Orderly.leave (h : Orderly run body s₀ w) (task : w.tasks[n]? = some t)
    (waits : t.phase = .waiting) (houtside : phase.isInside = false)
    (hserved : ({ t with phase := phase } : Task A Q Res ε α σ).served = none) :
    Orderly run body s₀ (w.put n t phase) where
  free hfree := (h.free hfree).put _ task (served_of_waiting waits) hserved
  holder m hm := by
    obtain ⟨t', snapshot, program, ht', hinside⟩ := h.holder m hm
    refine ⟨t', snapshot, program, ?_, hinside⟩
    rw [getElem?_put task, if_neg ?_]
    · exact ht'
    · rintro rfl
      obtain rfl := Option.some.inj (task.symm.trans ht')
      rw [waits] at hinside
      cases hinside
  inside m t' snapshot program ht' hinside := by
    rw [getElem?_put task] at ht'
    split at ht'
    · obtain rfl := Option.some.inj ht'
      exact absurd hinside (ne_inside houtside)
    · obtain ⟨hlock, hexplains, halone⟩ := h.inside m t' snapshot program ht' hinside
      exact ⟨hlock, hexplains.put _ task (served_of_waiting waits) hserved, halone⟩

/-- The holder gives the lock back, in a state that the returned tasks explain. -/
theorem Orderly.release (h : Orderly run body s₀ w) {snapshot : σ} {program : Prog Q Res ε α}
    (task : w.tasks[n]? = some t) (hinside : t.phase = .inside snapshot program)
    (houtside : phase.isInside = false) {s' : σ} (hexplains : Explains run body s₀ (w.put n t phase) s') :
    Orderly run body s₀ { w.put n t phase with state := s', lock := none } where
  free _ := hexplains
  holder m hm := by cases hm
  inside m t' snapshot' program' ht' hinside' := by
    replace ht' : (w.put n t phase).tasks[m]? = some t' := ht'
    rw [getElem?_put task] at ht'
    split at ht'
    · obtain rfl := Option.some.inj ht'
      exact absurd hinside' (ne_inside houtside)
    · rename_i hne
      -- nobody else was inside
      obtain ⟨hlock, -⟩ := h.inside n t snapshot program task hinside
      obtain ⟨hlock', -⟩ := h.inside m t' snapshot' program' ht' hinside'
      exact absurd (Option.some.inj (hlock'.symm.trans hlock)) hne

/-- One move of one task. -/
theorem Orderly.moves (h : Orderly run body s₀ w) {w' : TaskPool A Q Res ε α σ}
    (hmoves : Moves run body w w') : Orderly run body s₀ w' := by
  cases hmoves with
  | spawn a =>
    have hserved : (w.tasks ++ [({ agent := a } : Task A Q Res ε α σ)]).filterMap Task.served =
        w.tasks.filterMap Task.served := by
      rw [List.filterMap_append]
      exact List.append_nil _
    have hexplains : ∀ base, Explains run body s₀ w base →
        Explains run body s₀ { w with tasks := w.tasks ++ [{ agent := a }] } base := by
      rintro base ⟨served, hperm, hserial⟩
      exact ⟨served, hserved ▸ hperm, hserial⟩
    have hold : ∀ (m : Nat) (t : Task A Q Res ε α σ), w.tasks[m]? = some t →
        (w.tasks ++ [{ agent := a }])[m]? = some t := by
      intro m t ht
      rw [List.getElem?_append_left (List.getElem?_eq_some_iff.mp ht).1]
      exact ht
    constructor
    · exact fun hfree => hexplains _ (h.free hfree)
    · intro m hm
      obtain ⟨t, snapshot, program, ht, hinside⟩ := h.holder m hm
      exact ⟨t, snapshot, program, hold m t ht, hinside⟩
    · intro m t snapshot program ht hinside
      replace ht : (w.tasks ++ [{ agent := a }])[m]? = some t := ht
      rw [List.getElem?_append] at ht
      split at ht
      · obtain ⟨hlock, hbase, halone⟩ := h.inside m t snapshot program ht hinside
        exact ⟨hlock, hexplains _ hbase, halone⟩
      · obtain rfl := List.mem_singleton.mp (List.mem_of_getElem? ht)
        cases hinside
  | refuse task waits fails => exact h.leave task waits rfl rfl
  | giveUp task waits => exact h.leave task waits rfl rfl
  | @acquire n t task waits free =>
    have hexplains := (h.free free).put (.inside w.state (body t.agent)) task
      (served_of_waiting waits) rfl
    constructor
    · intro hfree
      cases hfree
    · intro m hm
      obtain rfl := Option.some.inj hm
      refine ⟨{ t with phase := .inside w.state (body t.agent) }, _, _, ?_, rfl⟩
      exact (getElem?_put task n).trans (if_pos rfl)
    · intro m t' snapshot program ht' hinside
      replace ht' : (w.put n t _).tasks[m]? = some t' := ht'
      rw [getElem?_put task] at ht'
      split at ht'
      · rename_i hm
        obtain rfl := Option.some.inj ht'
        obtain ⟨rfl, rfl⟩ := Phase.inside.inj hinside
        exact ⟨congrArg some hm.symm, hexplains, rfl⟩
      · obtain ⟨hlock, -⟩ := h.inside m t' snapshot program ht' hinside
        rw [free] at hlock
        cases hlock
  | @execute n t snapshot q next task runs =>
    obtain ⟨hlock, hbase, halone⟩ := h.inside n t snapshot _ task runs
    have hexplains := hbase.put (.inside snapshot (next (run q w.state).1)) task
      (served_of_inside runs) rfl
    constructor
    · intro hfree
      replace hfree : w.lock = none := hfree
      rw [hlock] at hfree
      cases hfree
    · intro m hm
      obtain rfl := Option.some.inj (hlock.symm.trans hm)
      refine ⟨{ t with phase := .inside snapshot (next (run q w.state).1) }, _, _, ?_, rfl⟩
      exact (getElem?_put task n).trans (if_pos rfl)
    · intro m t' snapshot' program ht' hinside
      replace ht' : (w.put n t _).tasks[m]? = some t' := ht'
      rw [getElem?_put task] at ht'
      split at ht'
      · rename_i hm
        obtain rfl := Option.some.inj ht'
        obtain ⟨rfl, rfl⟩ := Phase.inside.inj hinside
        exact ⟨hm ▸ hlock, hexplains, halone⟩
      · rename_i hne
        obtain ⟨hlock', -⟩ := h.inside m t' snapshot' program ht' hinside
        exact absurd (Option.some.inj (hlock'.symm.trans hlock)) hne
  | @exit n t snapshot a task ends =>
    obtain ⟨-, hbase, halone⟩ := h.inside n t snapshot _ task ends
    have hrun : (body t.agent).transact run snapshot = (.ok a, w.state) := by
      unfold Prog.transact
      rw [halone]
      rfl
    exact h.release task ends rfl (hbase.returned task (served_of_inside ends) hrun)
  | @rollback n t snapshot e task ends =>
    obtain ⟨-, hbase, -⟩ := h.inside n t snapshot _ task ends
    exact h.release task ends rfl (hbase.put _ task (served_of_inside ends) rfl)
  | @cancel n t snapshot program task runs =>
    obtain ⟨-, hbase, -⟩ := h.inside n t snapshot program task runs
    exact h.release task runs rfl (hbase.put _ task (served_of_inside runs) rfl)

theorem orderly_start (s₀ : σ) : Orderly run body s₀ { state := s₀ } where
  free _ := ⟨[], .refl _, rfl⟩
  holder n hn := by cases hn
  inside n t snapshot program ht := by cases ht

/-- While no task is inside, the state is what the returned tasks make of the first state, one
after another in some order, and they have returned what they return there. -/
theorem serializable (hreach : Reaches (Moves run body) { state := s₀ } w)
    (houtside : ∀ t ∈ w.tasks, t.phase.isInside = false) :
    ∃ served : List (A × α), served.Perm (w.tasks.filterMap Task.served) ∧
      serially run body (served.map Prod.fst) s₀ = (served.map fun x => .ok x.2, w.state) := by
  have horderly := hreach.kept (fun _ _ hmoves hw => Orderly.moves hw hmoves) (orderly_start s₀)
  refine horderly.free ?_
  cases hlock : w.lock with
  | none => rfl
  | some n =>
    obtain ⟨t, snapshot, program, ht, hinside⟩ := horderly.holder n hlock
    exact absurd hinside (ne_inside (houtside t (List.mem_of_getElem? ht)))

end Orderly

end TaskPool

end OpenMemory.Lib
