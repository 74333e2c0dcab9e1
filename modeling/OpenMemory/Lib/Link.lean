import OpenMemory.Lib.Txn

/-!
# Clients of a database that aborts transactions

A client sends a server one request after another over a connection: begin, a statement, commit.
A request may fail. A statement that fails aborts the transaction: the statements after it fail
as well, and its commit is answered like any other but rolls it back.

`Linked` is the monad of such clients. Its exceptions can be caught and do not undo what the
connection has seen; only the end of a unit of work does. The connection remembers, as a ghost,
which statements returned in the open transaction and which of them a commit made durable, and
how often the client has asked another service in between (`consult`).
-/

namespace OpenMemory.Lib

/-- What a client sends in its `unit`-th unit of work. -/
inductive Trip (Q : Type)
  | begin (unit : Nat)
  | statement (unit : Nat) (q : Q)
  | commit (unit : Nat)

/-- What statements do, and which requests fail. -/
structure Server (Q : Type) (Res : Q → Type) (σ ε : Type) where
  run : (q : Q) → σ → Except ε (Res q × σ)
  fails : Trip Q → Option ε
  inFailedTransaction : ε

structure Connection (Q σ : Type) where
  committed : σ
  own : σ
  aborted : Bool := false
  unit : Nat := 0
  written : List Q := []
  log : List Q := []
  asked : Nat := 0

namespace Connection

variable {Q σ : Type}

/-- A connection to a database, before the first unit of work. -/
def start (s : σ) : Connection Q σ := { committed := s, own := s }

/-- A transaction begins. -/
def opened (c : Connection Q σ) : Connection Q σ :=
  { c with own := c.committed, aborted := false, written := [] }

/-- The transaction is rolled back. -/
def rolledBack (c : Connection Q σ) : Connection Q σ := { c.opened with unit := c.unit + 1 }

/-- The transaction commits, unless it is aborted. -/
def closed (c : Connection Q σ) : Connection Q σ :=
  if c.aborted then c.rolledBack
  else { c with
    committed := c.own
    unit := c.unit + 1
    written := []
    log := c.log ++ c.written }

/-- What holds of the committed state and of the open transaction holds after the commit. -/
theorem closed_induct {P : List Q → σ → Prop} {c : Connection Q σ} (hbefore : P c.log c.committed)
    (hopen : P (c.log ++ c.written) c.own) : P c.closed.log c.closed.committed := by
  unfold closed
  split
  · exact hbefore
  · exact hopen

theorem unit_closed (c : Connection Q σ) : c.closed.unit = c.unit + 1 := by
  unfold closed
  split <;> rfl

theorem asked_closed (c : Connection Q σ) : c.closed.asked = c.asked := by
  unfold closed
  split <;> rfl

/-- Another service is asked once more. -/
def consulted (c : Connection Q σ) : Connection Q σ := { c with asked := c.asked + 1 }

end Connection

/-- Programs of a client. -/
abbrev Linked (Q σ ε : Type) : Type → Type := ExceptT ε (StateM (Connection Q σ))

namespace Linked

variable {Q σ ε α β : Type}

/-- The result of a program and the connection after it. -/
def attempt (x : Linked Q σ ε α) (c : Connection Q σ) : Except ε α × Connection Q σ := x.run.run c

/-- Ask another service. It answers each request as it likes, whatever happens to the transaction. -/
def consult (answer : Nat → Except ε α) : Linked Q σ ε α :=
  ExceptT.mk fun c : Connection Q σ => (answer c.asked, c.consulted)

variable {c c' : Connection Q σ}

theorem attempt_ofExcept (x : Except ε α) :
    attempt (MonadExcept.ofExcept x : Linked Q σ ε α) c = (x, c) := by
  cases x <;> rfl

theorem attempt_bind_of_ok {x : Linked Q σ ε α} {f : α → Linked Q σ ε β} {a : α}
    (h : attempt x c = (.ok a, c')) : attempt (x >>= f) c = attempt (f a) c' := by
  change (x.run >>= ExceptT.bindCont f).run c = _
  rw [StateT.run_bind]
  change (let p := attempt x c; (ExceptT.bindCont f p.1).run p.2) = _
  rw [h]
  rfl

theorem attempt_bind_of_error {x : Linked Q σ ε α} {f : α → Linked Q σ ε β} {e : ε}
    (h : attempt x c = (.error e, c')) : attempt (x >>= f) c = (.error e, c') := by
  change (x.run >>= ExceptT.bindCont f).run c = _
  rw [StateT.run_bind]
  change (let p := attempt x c; (ExceptT.bindCont f p.1).run p.2) = _
  rw [h]
  rfl

theorem bind_ok {x : Linked Q σ ε α} {f : α → Linked Q σ ε β} {b : β} :
    attempt (x >>= f) c = (.ok b, c') ↔
      ∃ a c₁, attempt x c = (.ok a, c₁) ∧ attempt (f a) c₁ = (.ok b, c') := by
  rcases h : attempt x c with ⟨e | a, c₁⟩
  · rw [attempt_bind_of_error h]
    constructor
    · intro h'
      cases congrArg Prod.fst h'
    · rintro ⟨a, c₂, h', -⟩
      cases congrArg Prod.fst h'
  · rw [attempt_bind_of_ok h]
    constructor
    · intro h'
      exact ⟨a, c₁, rfl, h'⟩
    · rintro ⟨a', c₂, h', h''⟩
      cases h'
      exact h''

theorem attempt_tryCatch_of_ok {x : Linked Q σ ε α} {f : ε → Linked Q σ ε α} {a : α}
    (h : attempt x c = (.ok a, c')) : attempt (tryCatchThe ε x f) c = (.ok a, c') := by
  change (let p := attempt x c; (match p.1 with
    | .ok a => (pure (.ok a) : StateM (Connection Q σ) (Except ε α))
    | .error e => (f e).run).run p.2) = _
  rw [h]
  rfl

theorem attempt_tryCatch_of_error {x : Linked Q σ ε α} {f : ε → Linked Q σ ε α} {e : ε}
    (h : attempt x c = (.error e, c')) : attempt (tryCatchThe ε x f) c = attempt (f e) c' := by
  change (let p := attempt x c; (match p.1 with
    | .ok a => (pure (.ok a) : StateM (Connection Q σ) (Except ε α))
    | .error e => (f e).run).run p.2) = _
  rw [h]
  rfl

end Linked

namespace Server

variable {Q : Type} {Res : Q → Type} {σ ε α : Type}

/-- Send a statement. -/
def execute (server : Server Q Res σ ε) (q : Q) : Linked Q σ ε (Res q) :=
  ExceptT.mk fun c : Connection Q σ =>
    if c.aborted then (.error server.inFailedTransaction, c)
    else
      match server.fails (.statement c.unit q) with
      | some e => (.error e, { c with aborted := true })
      | none =>
        match server.run q c.own with
        | .error e => (.error e, { c with aborted := true })
        | .ok (r, own) => (.ok r, { c with own := own, written := c.written ++ [q] })

/-- A block in a transaction of its own: an exception rolls it back. -/
def unitOfWork (server : Server Q Res σ ε) (x : Linked Q σ ε α) : Linked Q σ ε α :=
  ExceptT.mk fun c : Connection Q σ =>
    match server.fails (.begin c.unit) with
    | some e => (.error e, c.rolledBack)
    | none =>
      match Linked.attempt x c.opened with
      | (.error e, c') => (.error e, c'.rolledBack)
      | (.ok a, c') =>
        match server.fails (.commit c'.unit) with
        | some e => (.error e, c'.rolledBack)
        | none => (.ok a, c'.closed)

variable {server : Server Q Res σ ε} {c c' : Connection Q σ} {q : Q}

theorem execute_of_aborted (h : c.aborted = true) :
    (server.execute q).attempt c = (.error server.inFailedTransaction, c) := by
  change (if c.aborted then _ else _) = _
  rw [if_pos h]

theorem execute_of_fails {e : ε} (h : c.aborted = false)
    (hfails : server.fails (.statement c.unit q) = some e) :
    (server.execute q).attempt c = (.error e, { c with aborted := true }) := by
  change (if c.aborted then _ else _) = _
  rw [if_neg (by simp [h]), hfails]

theorem execute_of_run {r : Res q} {own : σ} (h : c.aborted = false)
    (hfails : server.fails (.statement c.unit q) = none) (hrun : server.run q c.own = .ok (r, own)) :
    (server.execute q).attempt c =
      (.ok r, { c with own := own, written := c.written ++ [q] }) := by
  change (if c.aborted then _ else _) = _
  rw [if_neg (by simp [h]), hfails, hrun]

theorem execute_ok {r : Res q} (h : (server.execute q).attempt c = (.ok r, c')) :
    c.aborted = false ∧ ∃ own, server.run q c.own = .ok (r, own) ∧
      c' = { c with own := own, written := c.written ++ [q] } := by
  cases ha : c.aborted with
  | true =>
    rw [execute_of_aborted ha] at h
    cases congrArg Prod.fst h
  | false =>
    cases hf : server.fails (.statement c.unit q) with
    | some e =>
      rw [execute_of_fails ha hf] at h
      cases congrArg Prod.fst h
    | none =>
      change (if c.aborted then _ else _) = _ at h
      rw [if_neg (by simp [ha]), hf] at h
      cases hr : server.run q c.own with
      | error e =>
        rw [hr] at h
        cases congrArg Prod.fst h
      | ok out =>
        rw [hr] at h
        cases h
        exact ⟨rfl, out.2, rfl, by rw [ha]⟩

theorem unitOfWork_ok {x : Linked Q σ ε α} {a : α} (h : (server.unitOfWork x).attempt c = (.ok a, c')) :
    ∃ c₁, x.attempt c.opened = (.ok a, c₁) ∧ c' = c₁.closed := by
  change (match server.fails (.begin c.unit) with
    | some e => (.error e, c.rolledBack)
    | none =>
      match Linked.attempt x c.opened with
      | (.error e, c') => (.error e, c'.rolledBack)
      | (.ok a, c') =>
        match server.fails (.commit c'.unit) with
        | some e => (.error e, c'.rolledBack)
        | none => (.ok a, c'.closed) : Except ε α × Connection Q σ) = _ at h
  cases hb : server.fails (.begin c.unit) with
  | some e =>
    rw [hb] at h
    cases congrArg Prod.fst h
  | none =>
    rw [hb] at h
    rcases hx : x.attempt c.opened with ⟨e | b, c₁⟩
    · rw [hx] at h
      cases congrArg Prod.fst h
    · rw [hx] at h
      cases hc : server.fails (.commit c₁.unit) with
      | some e =>
        simp only [hc] at h
        cases congrArg Prod.fst h
      | none =>
        simp only [hc] at h
        cases h
        exact ⟨c₁, rfl, rfl⟩

end Server

end OpenMemory.Lib
