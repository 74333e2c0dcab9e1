import OpenMemory.Lib.Prog

/-!
# Transactions interleaved statement by statement

A system has a committed state and any number of transactions, each a program with its own
uncommitted rows. One step begins a transaction, executes its next statement, ends it, or aborts
it. This is READ COMMITTED: a statement runs atomically on the latest committed state, overlaid
with the transaction's own rows; it waits for rows that another transaction holds; the rows
that it writes or locks are held until the transaction ends; a commit makes them the committed
ones, a rollback drops them.

An `Engine` says what a statement does, for which rows it waits and which it then holds.
`Stable.reaches` is the rule for invariants: one predicate on the committed state, one on each
transaction relative to it, and an obligation for each kind of step; that no two running
transactions hold one row (`Exclusive`) comes for free.
-/

namespace OpenMemory.Lib

/-- What statements do to states `σ` with rows `κ`, for agents `A`. -/
structure Engine (A Q : Type) (Res : Q → Type) (σ κ ε : Type) where
  run : A → (q : Q) → σ → Except ε (Res q × σ)
  awaits : A → Q → σ → List κ
  locks : A → Q → σ → List κ
  overlay : σ → σ → List κ → σ
  locks_subset : ∀ a q s, locks a q s ⊆ awaits a q s

/-- How far a transaction is. -/
inductive Status (Q : Type) (Res : Q → Type) (ε α : Type)
  | running (program : Prog Q Res ε α)
  | committed (result : α)
  | raised (error : ε)
  | aborted (error : Option ε)

/-- A transaction: whose it is, its view after the last statement, the rows it holds and, as a
ghost, the statements so far with the states they ran on. -/
structure Process (A Q : Type) (Res : Q → Type) (σ κ ε α : Type) where
  agent : A
  own : σ
  held : List κ
  trace : List (Q × σ)
  status : Status Q Res ε α

structure System (A Q : Type) (Res : Q → Type) (σ κ ε α : Type) where
  committed : σ
  processes : List (Process A Q Res σ κ ε α)

inductive Action (A : Type)
  | begin (agent : A)
  | execute (n : Nat)
  | finish (n : Nat)
  | abort (n : Nat)

variable {A Q : Type} {Res : Q → Type} {σ κ ε α : Type}

namespace Process

/-- The transaction has not ended. -/
def isRunning (p : Process A Q Res σ κ ε α) : Bool :=
  match p.status with
  | .running _ => true
  | _ => false

/-- A transaction that begins. -/
def start (a : A) (program : Prog Q Res ε α) (s : σ) : Process A Q Res σ κ ε α :=
  { agent := a, own := s, held := [], trace := [], status := .running program }

/-- What the transaction sees. -/
def view (E : Engine A Q Res σ κ ε) (p : Process A Q Res σ κ ε α) (committed : σ) : σ :=
  E.overlay committed p.own p.held

/-- The transaction after a statement that returned. -/
def advance (E : Engine A Q Res σ κ ε) (p : Process A Q Res σ κ ε α) (q : Q) (seen after : σ)
    (program : Prog Q Res ε α) : Process A Q Res σ κ ε α :=
  { p with
    own := after
    held := E.locks p.agent q seen ++ p.held
    trace := p.trace ++ [(q, seen)]
    status := .running program }

/-- The transaction ends without a commit: its body raised, or the database aborted it. -/
def Ends (p : Process A Q Res σ κ ε α) (status : Status Q Res ε α) : Prop :=
  (∃ e, p.status = .running (.done (.error e)) ∧ status = .raised e) ∨ ∃ e, status = .aborted e

theorem Ends.ne_running {p : Process A Q Res σ κ ε α} {status : Status Q Res ε α}
    (h : p.Ends status) (program : Prog Q Res ε α) : status ≠ .running program := by
  rintro rfl
  rcases h with ⟨e, -, he⟩ | ⟨e, he⟩ <;> cases he

theorem Ends.ne_committed {p : Process A Q Res σ κ ε α} {status : Status Q Res ε α}
    (h : p.Ends status) (a : α) : status ≠ .committed a := by
  rintro rfl
  rcases h with ⟨e, -, he⟩ | ⟨e, he⟩ <;> cases he

/-- A running process has a program left. -/
theorem isRunning_iff {p : Process A Q Res σ κ ε α} :
    p.isRunning = true ↔ ∃ program, p.status = .running program := by
  unfold isRunning
  cases p.status <;> simp

theorem Ends.not_running {p : Process A Q Res σ κ ε α} {status : Status Q Res ε α}
    (h : p.Ends status) : ¬ ({ p with status := status } : Process A Q Res σ κ ε α).isRunning = true := by
  intro hrunning
  obtain ⟨program, hprogram⟩ := isRunning_iff.mp hrunning
  exact h.ne_running program hprogram

end Process

namespace System

/-- No other running transaction holds one of the rows. -/
def free [DecidableEq κ] (sys : System A Q Res σ κ ε α) (n : Nat) (rows : List κ) : Bool :=
  (List.range sys.processes.length).all fun m => decide (m = n) ||
    (match sys.processes[m]? with
      | none => true
      | some p => !p.isRunning || rows.all fun k => decide (k ∉ p.held))

/-- Nothing but a committed state. -/
def start (s : σ) : System A Q Res σ κ ε α := { committed := s, processes := [] }

/-- Replace a transaction. -/
def put (sys : System A Q Res σ κ ε α) (n : Nat) (p : Process A Q Res σ κ ε α) :
    System A Q Res σ κ ε α :=
  { sys with processes := sys.processes.set n p }

/-- One step; `none` if the transaction has to wait or has ended. -/
def step [DecidableEq κ] (E : Engine A Q Res σ κ ε) (body : A → Prog Q Res ε α)
    (sys : System A Q Res σ κ ε α) : Action A → Option (System A Q Res σ κ ε α)
  | .begin a =>
    some { sys with processes := sys.processes ++ [.start a (body a) sys.committed] }
  | .execute n =>
    match sys.processes[n]? with
    | none => none
    | some p =>
      match p.status with
      | .running (.exec q next) =>
        let seen := p.view E sys.committed
        if sys.free n (E.awaits p.agent q seen) then
          match E.run p.agent q seen with
          | .ok (r, after) => some (sys.put n (p.advance E q seen after (next (.ok r))))
          | .error e => some (sys.put n { p with status := .aborted (next (.error e)).raised })
        else none
      | _ => none
  | .finish n =>
    match sys.processes[n]? with
    | none => none
    | some p =>
      match p.status with
      | .running (.done (.ok a)) =>
        some { sys.put n { p with status := .committed a } with
          committed := p.view E sys.committed }
      | .running (.done (.error e)) => some (sys.put n { p with status := .raised e })
      | _ => none
  | .abort n =>
    match sys.processes[n]? with
    | none => none
    | some p =>
      match p.status with
      | .running _ => some (sys.put n { p with status := .aborted none })
      | _ => none

/-- One step among those that `ok` allows. -/
def Steps [DecidableEq κ] (E : Engine A Q Res σ κ ε) (body : A → Prog Q Res ε α)
    (ok : System A Q Res σ κ ε α → Action A → Prop) (sys sys' : System A Q Res σ κ ε α) : Prop :=
  ∃ action, ok sys action ∧ sys.step E body action = some sys'

/-! ## What a step can do -/

/-- The rows are free for a process when no other running one holds any of them. -/
theorem free_iff [DecidableEq κ] {sys : System A Q Res σ κ ε α} {n : Nat} {rows : List κ} :
    sys.free n rows = true ↔ ∀ (m : Nat) p, m ≠ n → sys.processes[m]? = some p → p.isRunning = true →
      ∀ k ∈ rows, k ∉ p.held := by
  unfold free
  rw [List.all_eq_true]
  constructor
  -- the check passes for the running process
  · intro h m p hne hp hrun k hk
    have hlt : m < sys.processes.length := (List.getElem?_eq_some_iff.mp hp).1
    have hm := h m (List.mem_range.mpr hlt)
    rw [hp, decide_eq_false hne, Bool.false_or] at hm
    replace hm : (!p.isRunning || rows.all fun k => decide (k ∉ p.held)) = true := hm
    rw [hrun, Bool.not_true, Bool.false_or, List.all_eq_true] at hm
    exact of_decide_eq_true (hm k hk)
  -- and for every other one there is nothing to check
  · intro h m hm
    by_cases hne : m = n
    · rw [decide_eq_true hne, Bool.true_or]
    · rw [decide_eq_false hne, Bool.false_or]
      cases hp : sys.processes[m]? with
      | none => rfl
      | some p =>
        dsimp only
        cases hrun : p.isRunning with
        | false => rfl
        | true =>
          rw [Bool.not_true, Bool.false_or, List.all_eq_true]
          exact fun k hk => decide_eq_true (h m p hne hp hrun k hk)

/-- The ways a system moves. -/
inductive Moves (E : Engine A Q Res σ κ ε) (body : A → Prog Q Res ε α)
    (sys : System A Q Res σ κ ε α) : Action A → System A Q Res σ κ ε α → Prop
  | begin (a : A) : Moves E body sys (.begin a)
      { sys with processes := sys.processes ++ [.start a (body a) sys.committed] }
  | executed {n : Nat} {p : Process A Q Res σ κ ε α} {q : Q}
      {next : Except ε (Res q) → Prog Q Res ε α} {r : Res q} {after : σ}
      (here : sys.processes[n]? = some p) (running : p.status = .running (.exec q next))
      (free : ∀ (m : Nat) p', m ≠ n → sys.processes[m]? = some p' → p'.isRunning = true →
        ∀ k ∈ E.awaits p.agent q (p.view E sys.committed), k ∉ p'.held)
      (ran : E.run p.agent q (p.view E sys.committed) = .ok (r, after)) :
      Moves E body sys (.execute n)
        (sys.put n (p.advance E q (p.view E sys.committed) after (next (.ok r))))
  | ended {n : Nat} {p : Process A Q Res σ κ ε α} {status : Status Q Res ε α} (action : Action A)
      (here : sys.processes[n]? = some p) (wasRunning : p.isRunning = true)
      (why : p.Ends status) :
      Moves E body sys action (sys.put n { p with status := status })
  | committed {n : Nat} {p : Process A Q Res σ κ ε α} {a : α} (here : sys.processes[n]? = some p)
      (running : p.status = .running (.done (.ok a))) :
      Moves E body sys (.finish n) { sys.put n { p with status := .committed a } with
        committed := p.view E sys.committed }

/-- A step that the scheduler can make is a move. -/
theorem moves_of_step [DecidableEq κ] {E : Engine A Q Res σ κ ε} {body : A → Prog Q Res ε α}
    {sys sys' : System A Q Res σ κ ε α} {action : Action A}
    (h : sys.step E body action = some sys') : Moves E body sys action sys' := by
  unfold step at h
  cases action with
  | begin a =>
    obtain rfl := Option.some.inj h
    exact .begin a
  -- the next statement runs, unless its rows are taken
  | execute n =>
    dsimp only at h
    split at h
    · cases h
    · rename_i p hp
      split at h
      · rename_i q next hstatus
        have hrunning : p.isRunning = true := Process.isRunning_iff.mpr ⟨_, hstatus⟩
        split at h
        · rename_i hfree
          split at h
          · rename_i r after hrun
            obtain rfl := Option.some.inj h
            exact .executed hp hstatus (free_iff.mp hfree) hrun
          · obtain rfl := Option.some.inj h
            exact .ended _ hp hrunning (.inr ⟨_, rfl⟩)
        · cases h
      · cases h
  -- the program is at its end, and commits or rolls back
  | finish n =>
    dsimp only at h
    split at h
    · cases h
    · rename_i p hp
      split at h
      · rename_i a hstatus
        obtain rfl := Option.some.inj h
        exact .committed hp hstatus
      · rename_i e hstatus
        have hrunning : p.isRunning = true := Process.isRunning_iff.mpr ⟨_, hstatus⟩
        obtain rfl := Option.some.inj h
        exact .ended _ hp hrunning (.inl ⟨e, hstatus, rfl⟩)
      · cases h
  -- a running program is rolled back
  | abort n =>
    dsimp only at h
    split at h
    · cases h
    · rename_i p hp
      split at h
      · rename_i program hstatus
        have hrunning : p.isRunning = true := Process.isRunning_iff.mpr ⟨_, hstatus⟩
        obtain rfl := Option.some.inj h
        exact .ended _ hp hrunning (.inr ⟨none, rfl⟩)
      · cases h

/-! ## Invariants -/

/-- Putting a process back changes its place only. -/
theorem get_put (sys : System A Q Res σ κ ε α) {n m : Nat} {p p' : Process A Q Res σ κ ε α}
    (here : ∃ old, sys.processes[n]? = some old) :
    (sys.put n p).processes[m]? = some p' ↔
      (m = n ∧ p' = p) ∨ (m ≠ n ∧ sys.processes[m]? = some p') := by
  obtain ⟨old, hold⟩ := here
  have hlt : n < sys.processes.length := (List.getElem?_eq_some_iff.mp hold).1
  show (sys.processes.set n p)[m]? = some p' ↔ _
  rw [List.getElem?_set]
  by_cases hmn : m = n
  · subst hmn
    -- the place itself
    rw [if_pos rfl, if_pos hlt]
    constructor
    · intro h
      exact .inl ⟨rfl, (Option.some.inj h).symm⟩
    · rintro (⟨-, rfl⟩ | ⟨hne, -⟩)
      · rfl
      · exact absurd rfl hne
  -- another place
  · rw [if_neg (Ne.symm hmn)]
    constructor
    · intro h
      exact .inr ⟨hmn, h⟩
    · rintro (⟨heq, -⟩ | ⟨-, h⟩)
      · exact absurd heq hmn
      · exact h

/-- A process that begins stands last. -/
theorem get_begin (sys : System A Q Res σ κ ε α) {m : Nat} {p p' : Process A Q Res σ κ ε α} :
    (sys.processes ++ [p])[m]? = some p' ↔
      sys.processes[m]? = some p' ∨ (m = sys.processes.length ∧ p' = p) := by
  -- before, at, or behind the new place
  rcases lt_trichotomy m sys.processes.length with hlt | rfl | hgt
  · rw [List.getElem?_append_left hlt]
    constructor
    · exact fun h => .inl h
    · rintro (h | ⟨rfl, -⟩)
      · exact h
      · exact absurd hlt (lt_irrefl _)
  · rw [List.getElem?_append_right le_rfl, Nat.sub_self, List.getElem?_cons_zero,
      List.getElem?_eq_none le_rfl]
    constructor
    · intro h
      exact .inr ⟨rfl, (Option.some.inj h).symm⟩
    · rintro (h | ⟨-, rfl⟩)
      · cases h
      · rfl
  · rw [List.getElem?_eq_none (by simp; omega), List.getElem?_eq_none (by omega)]
    constructor
    · intro h
      cases h
    · rintro (h | ⟨rfl, -⟩)
      · cases h
      · exact absurd hgt (lt_irrefl _)

/-- A transaction that has committed stays as it is. -/
theorem Moves.keeps_committed {E : Engine A Q Res σ κ ε} {body : A → Prog Q Res ε α}
    {sys sys' : System A Q Res σ κ ε α} {action : Action A} {m : Nat}
    {p : Process A Q Res σ κ ε α} {a : α} (h : Moves E body sys action sys')
    (hp : sys.processes[m]? = some p) (hstatus : p.status = .committed a) :
    sys'.processes[m]? = some p := by
  have hput : ∀ {n : Nat} {old new : Process A Q Res σ κ ε α}, sys.processes[n]? = some old →
      old.isRunning = true → (sys.put n new).processes[m]? = some p := by
    intro n old new hold hrunning
    refine (get_put sys ⟨old, hold⟩).mpr (.inr ⟨?_, hp⟩)
    rintro rfl
    obtain rfl := Option.some.inj (hp.symm.trans hold)
    unfold Process.isRunning at hrunning
    rw [hstatus] at hrunning
    cases hrunning
  cases h with
  | begin a => exact (get_begin sys).mpr (.inl hp)
  | executed here running _ _ => exact hput here (Process.isRunning_iff.mpr ⟨_, running⟩)
  | ended _ here wasRunning _ => exact hput here wasRunning
  | committed here running => exact hput here (Process.isRunning_iff.mpr ⟨_, running⟩)

/-- No two running transactions hold one row. -/
def Exclusive (sys : System A Q Res σ κ ε α) : Prop :=
  ∀ (n m : Nat) p p', n ≠ m → sys.processes[n]? = some p → sys.processes[m]? = some p' →
    p.isRunning = true → p'.isRunning = true → ∀ k ∈ p.held, k ∉ p'.held

/-- No move lets two running processes hold one row. -/
theorem Exclusive.moves {E : Engine A Q Res σ κ ε} {body : A → Prog Q Res ε α}
    {sys sys' : System A Q Res σ κ ε α} {action : Action A} (h : sys.Exclusive)
    (hmoves : Moves E body sys action sys') : sys'.Exclusive := by
  -- a transaction that ended holds nothing that counts
  have hended : ∀ {n : Nat} {p : Process A Q Res σ κ ε α} (status : Status Q Res ε α),
      sys.processes[n]? = some p → (∀ program, status ≠ .running program) →
      (sys.put n { p with status := status }).Exclusive := by
    intro n p status hp hstatus i j x y hij hx hy hrx hry k hk
    rcases (get_put sys ⟨p, hp⟩).mp hx with ⟨-, rfl⟩ | ⟨hi, hx⟩
    · obtain ⟨program, hprogram⟩ := Process.isRunning_iff.mp hrx
      exact absurd hprogram (hstatus program)
    · rcases (get_put sys ⟨p, hp⟩).mp hy with ⟨-, rfl⟩ | ⟨hj, hy⟩
      · obtain ⟨program, hprogram⟩ := Process.isRunning_iff.mp hry
        exact absurd hprogram (hstatus program)
      · exact h i j x y hij hx hy hrx hry k hk
  cases hmoves with
  | begin a =>
    intro i j x y hij hx hy hrx hry k hk hk'
    rcases (get_begin sys).mp hx with hx | ⟨-, rfl⟩
    · rcases (get_begin sys).mp hy with hy | ⟨-, rfl⟩
      · exact h i j x y hij hx hy hrx hry k hk hk'
      · cases hk'
    · cases hk
  | @executed n p q next r after here running free ran =>
    have hprun : p.isRunning = true := Process.isRunning_iff.mpr ⟨_, running⟩
    intro i j x y hij hx hy hrx hry k hk hk'
    rcases (get_put sys ⟨p, here⟩).mp hx with ⟨rfl, rfl⟩ | ⟨hi, hx'⟩
    · rcases (get_put sys ⟨p, here⟩).mp hy with ⟨rfl, -⟩ | ⟨hj, hy⟩
      · exact hij rfl
      · rcases List.mem_append.mp hk with hlock | hheld
        · exact free j y hj hy hry k (E.locks_subset _ _ _ hlock) hk'
        · exact h i j p y hij here hy hprun hry k hheld hk'
    · rcases (get_put sys ⟨p, here⟩).mp hy with ⟨rfl, rfl⟩ | ⟨hj, hy'⟩
      · rcases List.mem_append.mp hk' with hlock | hheld
        · exact free i x hi hx' hrx k (E.locks_subset _ _ _ hlock) hk
        · exact h i j x p hij hx' here hrx hprun k hk hheld
      · exact h i j x y hij hx' hy' hrx hry k hk hk'
  | ended action here wasRunning why =>
    exact hended _ here why.ne_running
  | committed here running =>
    exact hended _ here fun program hstatus => by cases hstatus

/-- What keeps `C` of the committed state and `J` of every transaction. -/
structure Stable (E : Engine A Q Res σ κ ε) (body : A → Prog Q Res ε α)
    (ok : System A Q Res σ κ ε α → Action A → Prop) (C : σ → Prop)
    (J : σ → Process A Q Res σ κ ε α → Prop) : Prop where
  begin : ∀ sys a, ok sys (.begin a) → C sys.committed →
    J sys.committed (.start a (body a) sys.committed)
  execute : ∀ (sys : System A Q Res σ κ ε α) (n : Nat) p q next r after, ok sys (.execute n) →
    C sys.committed → sys.processes[n]? = some p → p.status = .running (.exec q next) →
    (∀ (m : Nat) p', m ≠ n → sys.processes[m]? = some p' → p'.isRunning = true →
      ∀ k ∈ E.awaits p.agent q (p.view E sys.committed), k ∉ p'.held) →
    E.run p.agent q (p.view E sys.committed) = .ok (r, after) →
    (∀ (m : Nat) p', sys.processes[m]? = some p' → J sys.committed p') →
    J sys.committed (p.advance E q (p.view E sys.committed) after (next (.ok r)))
  ended : ∀ c (p : Process A Q Res σ κ ε α) status, p.isRunning = true → p.Ends status → J c p →
    J c { p with status := status }
  commit : ∀ (sys : System A Q Res σ κ ε α) (n : Nat) p a, ok sys (.finish n) → sys.Exclusive →
    C sys.committed → sys.processes[n]? = some p → p.status = .running (.done (.ok a)) →
    (∀ (m : Nat) p', sys.processes[m]? = some p' → J sys.committed p') →
    C (p.view E sys.committed) ∧
      J (p.view E sys.committed) { p with status := .committed a } ∧
      ∀ (m : Nat) p', m ≠ n → sys.processes[m]? = some p' → J (p.view E sys.committed) p'

variable [DecidableEq κ] {E : Engine A Q Res σ κ ε} {body : A → Prog Q Res ε α}
  {ok : System A Q Res σ κ ε α → Action A → Prop} {C : σ → Prop}
  {J : σ → Process A Q Res σ κ ε α → Prop}

/-- The invariant of a system. -/
def Holds (C : σ → Prop) (J : σ → Process A Q Res σ κ ε α → Prop)
    (sys : System A Q Res σ κ ε α) : Prop :=
  sys.Exclusive ∧ C sys.committed ∧ ∀ (n : Nat) p, sys.processes[n]? = some p → J sys.committed p

/-- A stable condition survives every allowed step. -/
theorem Stable.moves (h : Stable E body ok C J) {sys sys' : System A Q Res σ κ ε α}
    (hsteps : Steps E body ok sys sys') (hsys : Holds C J sys) : Holds C J sys' := by
  obtain ⟨action, hok, hstep⟩ := hsteps
  obtain ⟨hex, hC, hJ⟩ := hsys
  have hmoves := moves_of_step hstep
  refine ⟨hex.moves hmoves, ?_⟩
  -- the condition of the moved process and of the others
  cases hmoves with
  | begin a =>
    refine ⟨hC, fun n p hp => ?_⟩
    rcases (get_begin sys).mp hp with hp | ⟨-, rfl⟩
    · exact hJ n p hp
    · exact h.begin sys a hok hC
  | @executed n p q next r after here running free ran =>
    refine ⟨hC, fun m p' hp' => ?_⟩
    rcases (get_put sys ⟨p, here⟩).mp hp' with ⟨-, rfl⟩ | ⟨-, hp'⟩
    · exact h.execute sys n p q next r after hok hC here running free ran hJ
    · exact hJ m p' hp'
  | @ended n p status action here wasRunning why =>
    refine ⟨hC, fun m p' hp' => ?_⟩
    rcases (get_put sys ⟨p, here⟩).mp hp' with ⟨-, rfl⟩ | ⟨-, hp'⟩
    · exact h.ended sys.committed p status wasRunning why (hJ n p here)
    · exact hJ m p' hp'
  | @committed n p a here running =>
    obtain ⟨hC', hself, hothers⟩ := h.commit sys n p a hok hex hC here running hJ
    refine ⟨hC', fun m p' hp' => ?_⟩
    rcases (get_put sys ⟨p, here⟩).mp hp' with ⟨-, rfl⟩ | ⟨hm, hp'⟩
    · exact hself
    · exact hothers m p' hm hp'

/-- A stable invariant holds in every state of a run. -/
theorem Stable.reaches (h : Stable E body ok C J) {s : σ} (hs : C s)
    {sys : System A Q Res σ κ ε α} (hreach : Reaches (Steps E body ok) (start s) sys) :
    Holds C J sys := by
  refine Reaches.kept hreach (fun _ _ hsteps hsys => h.moves hsteps hsys) ⟨?_, hs, ?_⟩
  · intro n m p p' _ hp
    cases hp
  · intro n p hp
    cases hp

/-- A property of the whole system, kept by the moves between states of a stable invariant. -/
theorem Stable.reaches_with (h : Stable E body ok C J) {G : System A Q Res σ κ ε α → Prop}
    (hG : ∀ sys action sys', Holds C J sys → Holds C J sys' → Moves E body sys action sys' →
      G sys → G sys') {s : σ} (hs : C s) (hstart : G (start s)) {sys : System A Q Res σ κ ε α}
    (hreach : Reaches (Steps E body ok) (start s) sys) : Holds C J sys ∧ G sys := by
  have hinit : Holds C J (start s) ∧ G (start s) := ⟨h.reaches hs .refl, hstart⟩
  refine Reaches.kept (I := fun sys => Holds C J sys ∧ G sys) hreach
    (fun sys sys' hsteps hsys => ?_) hinit
  have hsys' : Holds C J sys' := h.moves hsteps hsys.1
  obtain ⟨action, -, hstep⟩ := hsteps
  exact ⟨hsys', hG sys action sys' hsys.1 hsys' (moves_of_step hstep) hsys.2⟩

/-! ## Schedules -/

/-- The system after some steps, each of which must pass the check and be possible. -/
def runs (E : Engine A Q Res σ κ ε) (body : A → Prog Q Res ε α)
    (check : System A Q Res σ κ ε α → Action A → Bool) :
    System A Q Res σ κ ε α → List (Action A) → Option (System A Q Res σ κ ε α)
  | sys, [] => some sys
  | sys, action :: rest =>
    if check sys action then (sys.step E body action).bind fun sys' => runs E body check sys' rest
    else none

/-- A checked schedule is a run. -/
theorem reaches_of_runs {check : System A Q Res σ κ ε α → Action A → Bool}
    {actions : List (Action A)} {sys sys' : System A Q Res σ κ ε α}
    (h : runs E body check sys actions = some sys') :
    Reaches (Steps E body fun sys action => check sys action = true) sys sys' := by
  induction actions generalizing sys with
  | nil =>
    obtain rfl := Option.some.inj h
    exact .refl
  | cons action rest ih =>
    unfold runs at h
    split at h
    · rename_i hcheck
      obtain ⟨next, hstep, hrest⟩ := Option.bind_eq_some_iff.mp h
      exact .head ⟨action, hcheck, hstep⟩ (ih hrest)
    · cases h

/-- Whose the transactions are, in the order they began. -/
def agents (sys : System A Q Res σ κ ε α) : List A := sys.processes.map Process.agent

/-- The agent of an action that begins a transaction. -/
def begun : Action A → Option A
  | .begin a => some a
  | _ => none

omit [DecidableEq κ] in
/-- Putting a process back under its agent changes no agent. -/
theorem agents_put {sys : System A Q Res σ κ ε α} {n : Nat} {p p' : Process A Q Res σ κ ε α}
    (hp : sys.processes[n]? = some p) (hagent : p'.agent = p.agent) :
    (sys.put n p').agents = sys.agents := by
  show (sys.processes.set n p').map Process.agent = _
  rw [List.map_set, hagent]
  obtain ⟨hlt, rfl⟩ := List.getElem?_eq_some_iff.mp hp
  refine List.ext_getElem? fun m => ?_
  rw [List.getElem?_set]
  split
  · rename_i hm
    subst hm
    rw [if_pos (by rwa [List.length_map]), agents, List.getElem?_map,
      List.getElem?_eq_getElem hlt]
    rfl
  · rfl

/-- A step brings the agent that it begins, and no other. -/
theorem agents_step {sys sys' : System A Q Res σ κ ε α} {action : Action A}
    (h : sys.step E body action = some sys') :
    sys'.agents = sys.agents ++ (begun action).toList := by
  cases action with
  | begin a =>
    obtain rfl := Option.some.inj h
    exact List.map_append
  | execute n =>
    refine Eq.trans ?_ (List.append_nil _).symm
    cases moves_of_step h with
    | executed here _ _ _ => exact agents_put here rfl
    | ended _ here _ _ => exact agents_put here rfl
  | finish n =>
    refine Eq.trans ?_ (List.append_nil _).symm
    cases moves_of_step h with
    | ended _ here _ _ => exact agents_put here rfl
    | committed here _ => exact agents_put here rfl
  | abort n =>
    refine Eq.trans ?_ (List.append_nil _).symm
    cases moves_of_step h with
    | ended _ here _ _ => exact agents_put here rfl

/-- A schedule brings the agents that its actions begin. -/
theorem agents_of_runs {check : System A Q Res σ κ ε α → Action A → Bool}
    {actions : List (Action A)} {sys sys' : System A Q Res σ κ ε α}
    (h : runs E body check sys actions = some sys') :
    sys'.agents = sys.agents ++ actions.filterMap begun := by
  induction actions generalizing sys with
  | nil =>
    obtain rfl := Option.some.inj h
    rw [List.filterMap_nil, List.append_nil]
  | cons action rest ih =>
    unfold runs at h
    split at h
    · obtain ⟨next, hstep, hrest⟩ := Option.bind_eq_some_iff.mp h
      rw [ih hrest, agents_step hstep, List.append_assoc]
      cases action <;> rfl
    · cases h

/-! ## Chronicles -/

section Chronicle

variable {γ : Type}

/-- One step among those that `ok` allows, beside a chronicle that notes the actions. -/
def Chronicled (E : Engine A Q Res σ κ ε) (body : A → Prog Q Res ε α)
    (ok : System A Q Res σ κ ε α → Action A → Prop)
    (note : γ → System A Q Res σ κ ε α → Action A → γ) (x y : System A Q Res σ κ ε α × γ) : Prop :=
  ∃ action, ok x.1 action ∧ x.1.step E body action = some y.1 ∧ y.2 = note x.2 x.1 action

/-- What a step notes and what it does to the committed state: a step that commits nothing leaves
both alone, if only commits are noted. -/
theorem committed_of_step {sys sys' : System A Q Res σ κ ε α} {action : Action A}
    (h : sys.step E body action = some sys') :
    (∃ n p a, action = .finish n ∧ sys.processes[n]? = some p ∧
      p.status = .running (.done (.ok a)) ∧ sys'.committed = p.view E sys.committed) ∨
    (sys'.committed = sys.committed ∧ ∀ (n : Nat) p a, action = .finish n →
      sys.processes[n]? = some p → p.status ≠ .running (.done (.ok a))) := by
  cases action with
  -- only a commit changes the committed state
  | begin | execute | abort =>
    refine .inr ⟨?_, fun n p a hn => by cases hn⟩
    cases moves_of_step h <;> rfl
  | finish n =>
    unfold step at h
    dsimp only at h
    split at h
    · cases h
    · rename_i p hp
      split at h
      · rename_i a hstatus
        obtain rfl := Option.some.inj h
        exact .inl ⟨n, p, a, rfl, hp, hstatus, rfl⟩
      · rename_i e hstatus
        obtain rfl := Option.some.inj h
        refine .inr ⟨rfl, ?_⟩
        rintro m p' a hm hp' hstatus'
        obtain rfl := Action.finish.inj hm
        obtain rfl := Option.some.inj (hp.symm.trans hp')
        rw [hstatus] at hstatus'
        cases hstatus'
      · cases h

/-- A property of the system and its chronicle, kept by the steps between states of a stable
invariant. -/
theorem Stable.chronicled (h : Stable E body ok C J)
    {note : γ → System A Q Res σ κ ε α → Action A → γ} {G : System A Q Res σ κ ε α → γ → Prop}
    (hG : ∀ sys action sys' g, Holds C J sys → sys.step E body action = some sys' → G sys g →
      G sys' (note g sys action)) {s : σ} (hs : C s) {g₀ : γ} (hstart : G (start s) g₀)
    {x : System A Q Res σ κ ε α × γ}
    (hreach : Reaches (Chronicled E body ok note) (start s, g₀) x) : Holds C J x.1 ∧ G x.1 x.2 := by
  refine Reaches.kept (I := fun x => Holds C J x.1 ∧ G x.1 x.2) hreach ?_ ⟨h.reaches hs .refl, hstart⟩
  rintro ⟨sys, g⟩ ⟨sys', g'⟩ ⟨action, hok, hstep, rfl⟩ ⟨hsys, hg⟩
  exact ⟨h.moves ⟨action, hok, hstep⟩ hsys, hG sys action sys' g hsys hstep hg⟩

/-- The system and the chronicle after some steps. -/
def chronicle (E : Engine A Q Res σ κ ε) (body : A → Prog Q Res ε α)
    (check : System A Q Res σ κ ε α → Action A → Bool)
    (note : γ → System A Q Res σ κ ε α → Action A → γ) :
    System A Q Res σ κ ε α × γ → List (Action A) → Option (System A Q Res σ κ ε α × γ)
  | x, [] => some x
  | x, action :: rest =>
    if check x.1 action then
      (x.1.step E body action).bind fun sys' =>
        chronicle E body check note (sys', note x.2 x.1 action) rest
    else none

/-- A schedule with notes is a run with notes. -/
theorem reaches_of_chronicle {check : System A Q Res σ κ ε α → Action A → Bool}
    {note : γ → System A Q Res σ κ ε α → Action A → γ} {actions : List (Action A)}
    {x y : System A Q Res σ κ ε α × γ} (h : chronicle E body check note x actions = some y) :
    Reaches (Chronicled E body (fun sys action => check sys action = true) note) x y := by
  induction actions generalizing x with
  | nil =>
    obtain rfl := Option.some.inj h
    exact .refl
  | cons action rest ih =>
    unfold chronicle at h
    split at h
    · rename_i hcheck
      obtain ⟨next, hstep, hrest⟩ := Option.bind_eq_some_iff.mp h
      exact .head ⟨action, hcheck, hstep, rfl⟩ (ih hrest)
    · cases h

end Chronicle

end System

end OpenMemory.Lib
