import OpenMemory.Lib.Txn

/-!
# Relations between monads

A computation that is written against an interface, in any monad with exceptions, does the same in
two monads as far as its interface does the same there. `MonadRel` is what "the same" may mean: a
relation between the computations of the two monads that the monad operations respect.
`readsAlike` is one: transactions with the same outcome on two states that they only read.
-/

namespace OpenMemory.Lib

variable {ε : Type} {m n : Type → Type} [Monad m] [MonadExceptOf ε m] [Monad n] [MonadExceptOf ε n]

/-- A relation between the computations of two monads that the monad operations respect. -/
structure MonadRel (ε : Type) (m n : Type → Type) [Monad m] [MonadExceptOf ε m] [Monad n]
    [MonadExceptOf ε n] where
  Rel : {α : Type} → m α → n α → Prop
  pure : ∀ {α : Type} (a : α), Rel (Pure.pure a) (Pure.pure a)
  bind : ∀ {α β : Type} {x : m α} {y : n α} {f : α → m β} {g : α → n β}, Rel x y →
    (∀ a, Rel (f a) (g a)) → Rel (x >>= f) (y >>= g)
  map : ∀ {α β : Type} (f : α → β) {x : m α} {y : n α}, Rel x y → Rel (f <$> x) (f <$> y)
  throw : ∀ {α : Type} (e : ε), Rel (α := α) (MonadExcept.throw e) (MonadExcept.throw e)

namespace MonadRel

variable (ρ : MonadRel ε m n) {α : Type}

theorem ofExcept (x : Except ε α) :
    ρ.Rel (MonadExcept.ofExcept x : m α) (MonadExcept.ofExcept x) := by
  cases x with
  | error e => exact ρ.throw e
  | ok a => exact ρ.pure a

theorem ite {c : Prop} [Decidable c] {x x' : m α} {y y' : n α} (h : ρ.Rel x y)
    (h' : ρ.Rel x' y') : ρ.Rel (if c then x else x') (if c then y else y') := by
  split
  · exact h
  · exact h'

/-- Two states that a transaction only reads, with the same outcome. -/
def readsAlike {σ ε : Type} (s s' : σ) : MonadRel ε (Txn σ ε) (Txn σ ε) where
  Rel x y := ∃ out, x.run s = Except.map (fun a => (a, s)) out ∧
    y.run s' = Except.map (fun a => (a, s')) out
  pure a := ⟨.ok a, rfl, rfl⟩
  bind := by
    rintro α β x y f g ⟨out, hx, hy⟩ hfg
    cases out with
    | error e => exact ⟨.error e, Txn.run_bind_of_error hx, Txn.run_bind_of_error hy⟩
    | ok a =>
      obtain ⟨out', hf, hg⟩ := hfg a
      exact ⟨out', (Txn.run_bind_of_ok hx).trans hf, (Txn.run_bind_of_ok hy).trans hg⟩
  map := by
    rintro α β f x y ⟨out, hx, hy⟩
    refine ⟨out.map f, ?_, ?_⟩
    · rw [StateT.run_map, hx]
      cases out <;> rfl
    · rw [StateT.run_map, hy]
      cases out <;> rfl
  throw e := ⟨.error e, rfl, rfl⟩

end MonadRel

end OpenMemory.Lib
