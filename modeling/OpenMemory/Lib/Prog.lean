import OpenMemory.Lib.Txn

/-!
# Programs that issue statements

A program is a tree: it is done, or it issues a statement and goes on with what the statement
returned or raised. Programs form a monad with exceptions, so a body that is written against an
interface of statements is one of them.

`Meets` is the program logic. It says what holds of every statement that the program issues, in
terms of the statements before it and the states they ran on (the trace), and what holds of the
trace and the result when it is done. Nothing is assumed about the states: between two
statements anything may happen to them. A statement that raises ends the transaction in the
database, so only the statements that return matter.
-/

namespace OpenMemory.Lib

/-- A program over statements `Q` with results `Res` and exceptions `ε`. -/
inductive Prog (Q : Type) (Res : Q → Type) (ε α : Type) : Type
  | done (result : Except ε α)
  | exec (q : Q) (next : Except ε (Res q) → Prog Q Res ε α)

namespace Prog

variable {Q : Type} {Res : Q → Type} {ε α β σ : Type}

/-- Run one program after another. -/
def bind : Prog Q Res ε α → (α → Prog Q Res ε β) → Prog Q Res ε β
  | done (.ok a), f => f a
  | done (.error e), _ => done (.error e)
  | exec q next, f => exec q fun r => (next r).bind f

/-- Handle the exception of a program. -/
def handle : Prog Q Res ε α → (ε → Prog Q Res ε α) → Prog Q Res ε α
  | done (.ok a), _ => done (.ok a)
  | done (.error e), f => f e
  | exec q next, f => exec q fun r => (next r).handle f

instance : Monad (Prog Q Res ε) where
  pure a := done (.ok a)
  bind := bind

instance : MonadExceptOf ε (Prog Q Res ε) where
  throw e := done (.error e)
  tryCatch := handle

/-- The program that issues one statement. -/
def statement (q : Q) : Prog Q Res ε (Res q) := exec q done

/-- The exception of a program that is done with one. -/
def raised : Prog Q Res ε α → Option ε
  | done (.error e) => some e
  | _ => none

/-! ## The logic -/

variable (run : (q : Q) → σ → Except ε (Res q × σ)) (P : List (Q × σ) → Q → Prop)

/-- Every statement is issued under `P`, and the result is as `Φ` says. -/
def Meets (Φ : List (Q × σ) → Except ε α → Prop) : List (Q × σ) → Prog Q Res ε α → Prop
  | trace, done result => Φ trace result
  | trace, exec q next => P trace q ∧ ∀ s r s', run q s = .ok (r, s') →
      Meets Φ (trace ++ [(q, s)]) (next (.ok r))

variable {run P} {Φ Ψ : List (Q × σ) → Except ε α → Prop} {trace : List (Q × σ)}

theorem meets_done {result : Except ε α} : Meets run P Φ trace (done result) ↔ Φ trace result :=
  Iff.rfl

/-- A program that starts with a statement meets its promise if every answer leads to one that
does. -/
theorem meets_exec {q : Q} {next : Except ε (Res q) → Prog Q Res ε α} :
    Meets run P Φ trace (exec q next) ↔ P trace q ∧ ∀ s r s', run q s = .ok (r, s') →
      Meets run P Φ (trace ++ [(q, s)]) (next (.ok r)) := Iff.rfl

-- programs are only taken apart by the rules below
attribute [irreducible] Meets

/-- Less may be promised. -/
theorem Meets.mono {x : Prog Q Res ε α} (h : Meets run P Φ trace x)
    (himp : ∀ trace r, Φ trace r → Ψ trace r) : Meets run P Ψ trace x := by
  induction x generalizing trace with
  | done result => exact meets_done.mpr (himp trace result (meets_done.mp h))
  | exec q next ih =>
    obtain ⟨hP, hnext⟩ := meets_exec.mp h
    exact meets_exec.mpr ⟨hP, fun s r s' hrun => ih _ (hnext s r s' hrun)⟩

/-- Sequencing: what the first program ends with is where the second starts. -/
theorem Meets.bind {Φ : List (Q × σ) → Except ε β → Prop} {x : Prog Q Res ε α}
    {f : α → Prog Q Res ε β} (hx : Meets run P Ψ trace x)
    (hok : ∀ t a, Ψ t (.ok a) → Meets run P Φ t (f a))
    (herror : ∀ t e, Ψ t (.error e) → Φ t (.error e)) : Meets run P Φ trace (x >>= f) := by
  show Meets run P Φ trace (x.bind f)
  induction x generalizing trace with
  | done result =>
    have hresult := meets_done.mp hx
    cases result with
    | error e => exact meets_done.mpr (herror trace e hresult)
    | ok a => exact hok trace a hresult
  | exec q next ih =>
    obtain ⟨hP, hnext⟩ := meets_exec.mp hx
    exact meets_exec.mpr ⟨hP, fun s r s' hrun => ih _ (hnext s r s' hrun)⟩

/-- Exceptions: the handler starts where the program raised. -/
theorem Meets.handle {x : Prog Q Res ε α} {f : ε → Prog Q Res ε α} (hx : Meets run P Ψ trace x)
    (hok : ∀ t a, Ψ t (.ok a) → Φ t (.ok a))
    (herror : ∀ t e, Ψ t (.error e) → Meets run P Φ t (f e)) :
    Meets run P Φ trace (tryCatchThe ε x f) := by
  show Meets run P Φ trace (x.handle f)
  induction x generalizing trace with
  | done result =>
    have hresult := meets_done.mp hx
    cases result with
    | error e => exact herror trace e hresult
    | ok a => exact meets_done.mpr (hok trace a hresult)
  | exec q next ih =>
    obtain ⟨hP, hnext⟩ := meets_exec.mp hx
    exact meets_exec.mpr ⟨hP, fun s r s' hrun => ih _ (hnext s r s' hrun)⟩

theorem meets_pure {a : α} : Meets run P Φ trace (pure a) ↔ Φ trace (.ok a) := meets_done

theorem meets_throw {e : ε} : Meets run P Φ trace (throw e) ↔ Φ trace (.error e) := meets_done

theorem meets_ofExcept {x : Except ε α} :
    Meets run P Φ trace (MonadExcept.ofExcept x) ↔ Φ trace x := by
  cases x <;> exact meets_done

/-- A result may be mapped. -/
theorem Meets.map {Φ : List (Q × σ) → Except ε β → Prop} {x : Prog Q Res ε α} {f : α → β}
    (hx : Meets run P Ψ trace x) (himp : ∀ t r, Ψ t r → Φ t (r.map f)) :
    Meets run P Φ trace (f <$> x) := by
  show Meets run P Φ trace (x >>= fun a => pure (f a))
  exact hx.bind (fun t a ha => meets_pure.mpr (himp t (.ok a) ha)) fun t e he => himp t (.error e) he

/-- One statement, and what follows it. -/
theorem meets_statement_bind {Φ : List (Q × σ) → Except ε β → Prop} {q : Q}
    {f : Res q → Prog Q Res ε β} (hP : P trace q)
    (hnext : ∀ s r s', run q s = .ok (r, s') → Meets run P Φ (trace ++ [(q, s)]) (f r)) :
    Meets run P Φ trace (statement q >>= f) := by
  show Meets run P Φ trace ((exec q done).bind f)
  exact meets_exec.mpr ⟨hP, hnext⟩

/-- A pure computation, and what follows it. -/
theorem meets_ofExcept_bind {Φ : List (Q × σ) → Except ε β → Prop} {x : Except ε α}
    {f : α → Prog Q Res ε β} (herror : ∀ e, x = .error e → Φ trace (.error e))
    (hok : ∀ a, x = .ok a → Meets run P Φ trace (f a)) :
    Meets run P Φ trace (MonadExcept.ofExcept x >>= f) := by
  cases x with
  | error e => exact meets_done.mpr (herror e rfl)
  | ok a => exact hok a rfl

/-- A program that branches meets what both branches meet. -/
theorem meets_ite {c : Prop} [Decidable c] {x y : Prog Q Res ε α}
    (hpos : c → Meets run P Φ trace x) (hneg : ¬ c → Meets run P Φ trace y) :
    Meets run P Φ trace (if c then x else y) := by
  by_cases hc : c
  · rw [if_pos hc]
    exact hpos hc
  · rw [if_neg hc]
    exact hneg hc

/-! ## Which statements a program issues -/

/-- Every statement that the program may issue is one of `K`. -/
def Within (K : Q → Prop) : Prog Q Res ε α → Prop
  | done _ => True
  | exec q next => K q ∧ ∀ r, Within K (next r)

section Within

variable {K : Q → Prop}

theorem within_done {result : Except ε α} : Within K (done result : Prog Q Res ε α) := trivial

/-- A program issues its first statement and those that follow. -/
theorem within_exec {q : Q} {next : Except ε (Res q) → Prog Q Res ε α} :
    Within K (exec q next) ↔ K q ∧ ∀ r, Within K (next r) := Iff.rfl

attribute [irreducible] Within

theorem within_pure {a : α} : Within K (pure a : Prog Q Res ε α) := within_done

theorem within_throw {e : ε} : Within K (throw e : Prog Q Res ε α) := within_done

theorem within_ofExcept {x : Except ε α} :
    Within K (MonadExcept.ofExcept x : Prog Q Res ε α) := by
  cases x <;> exact within_done

theorem within_statement {q : Q} (hq : K q) : Within K (statement q : Prog Q Res ε (Res q)) :=
  within_exec.mpr ⟨hq, fun _ => within_done⟩

/-- A sequence issues what its parts issue. -/
theorem Within.bind {x : Prog Q Res ε α} {f : α → Prog Q Res ε β} (hx : Within K x)
    (hf : ∀ a, Within K (f a)) : Within K (x >>= f) := by
  show Within K (x.bind f)
  induction x with
  | done result =>
    cases result with
    | error e => exact within_done
    | ok a => exact hf a
  | exec q next ih =>
    obtain ⟨hq, hnext⟩ := within_exec.mp hx
    exact within_exec.mpr ⟨hq, fun r => ih r (hnext r)⟩

/-- So does a program with a handler. -/
theorem Within.handle {x : Prog Q Res ε α} {f : ε → Prog Q Res ε α} (hx : Within K x)
    (hf : ∀ e, Within K (f e)) : Within K (tryCatchThe ε x f) := by
  show Within K (x.handle f)
  induction x with
  | done result =>
    cases result with
    | error e => exact hf e
    | ok a => exact within_done
  | exec q next ih =>
    obtain ⟨hq, hnext⟩ := within_exec.mp hx
    exact within_exec.mpr ⟨hq, fun r => ih r (hnext r)⟩

theorem Within.map {x : Prog Q Res ε α} {f : α → β} (hx : Within K x) : Within K (f <$> x) := by
  show Within K (x >>= fun a => pure (f a))
  exact hx.bind fun _ => within_pure

/-- A program that branches issues what its branches issue. -/
theorem within_ite {c : Prop} [Decidable c] {x y : Prog Q Res ε α} (hx : Within K x)
    (hy : Within K y) : Within K (if c then x else y) := by
  split
  · exact hx
  · exact hy

/-- The trace goes on with statements of `K` only. -/
def Extends (K : Q → Prop) (trace t : List (Q × σ)) : Prop :=
  ∃ more, t = trace ++ more ∧ ∀ e ∈ more, K e.1

theorem Extends.refl (trace : List (Q × σ)) : Extends K trace trace :=
  ⟨[], (List.append_nil _).symm, fun e he => by cases he⟩

/-- What has been executed stays on the trace. -/
theorem Extends.mem {trace t : List (Q × σ)} (h : Extends K trace t) {e : Q × σ} (he : e ∈ trace) :
    e ∈ t := by
  obtain ⟨more, rfl, -⟩ := h
  exact List.mem_append_left _ he

/-- A program within `K` that meets a specification of its result, wherever `P` allows `K`. -/
theorem Meets.within {P' : List (Q × σ) → Q → Prop} {x : Prog Q Res ε α}
    (hx : Meets run P' Φ trace x) (hK : Within K x)
    (hP : ∀ t q, Extends K trace t → K q → P t q) :
    Meets run P (fun t r => Extends K trace t ∧ Φ t r) trace x := by
  -- the induction is over the program, from any trace it may have reached
  have hgo : ∀ t, Extends K trace t → Meets run P' Φ t x →
      Meets run P (fun t r => Extends K trace t ∧ Φ t r) t x := by
    clear hx
    induction x with
    | done result =>
      intro t ht hmeets
      exact meets_done.mpr ⟨ht, meets_done.mp hmeets⟩
    | exec q next ih =>
      intro t ht hmeets
      obtain ⟨hq, hnext⟩ := within_exec.mp hK
      obtain ⟨-, hrest⟩ := meets_exec.mp hmeets
      refine meets_exec.mpr ⟨hP t q ht hq, fun s r s' hrun => ?_⟩
      refine ih _ (hnext _) _ ?_ (hrest s r s' hrun)
      obtain ⟨more, rfl, hmore⟩ := ht
      refine ⟨more ++ [(q, s)], (List.append_assoc _ _ _), fun e he => ?_⟩
      rcases List.mem_append.mp he with he | he
      · exact hmore e he
      · rw [List.mem_singleton.mp he]
        exact hq
  exact hgo trace (Extends.refl trace) hx

theorem meets_true {x : Prog Q Res ε α} :
    Meets run (fun _ _ => True) (fun _ _ => True) trace x := by
  induction x generalizing trace with
  | done result => exact meets_done.mpr trivial
  | exec q next ih => exact meets_exec.mpr ⟨trivial, fun s r s' _ => ih _⟩

/-- A program within `K` may come first, wherever `P` allows `K`. -/
theorem Within.meets_bind {Φ : List (Q × σ) → Except ε β → Prop} {x : Prog Q Res ε α}
    {f : α → Prog Q Res ε β} (hx : Within K x) (hP : ∀ t q, K q → P t q)
    (hok : ∀ t a, Extends K trace t → Meets run P Φ t (f a))
    (herror : ∀ t e, Extends K trace t → Φ t (.error e)) : Meets run P Φ trace (x >>= f) := by
  refine (meets_true.within hx fun t q _ hq => hP t q hq).bind ?_ ?_
  · rintro t a ⟨ht, -⟩
    exact hok t a ht
  · rintro t e ⟨ht, -⟩
    exact herror t e ht

end Within

end Prog

end OpenMemory.Lib
