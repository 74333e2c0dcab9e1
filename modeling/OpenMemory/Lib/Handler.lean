import Mathlib

/-!
# Handlers

A handler answers a request or raises, and it changes a state as it goes. Unlike a transaction it
has no roll-back: what a handler has changed before it raises stays changed.

- `exec`: the outcome of a handler, and the state it leaves.
- `exec_bind_of_ok`, `exec_bind_of_error`: a handler is run one bind at a time.
- `Follows`: whatever the outcome, the handler takes no other steps than those of a relation.
-/

namespace OpenMemory.Lib

/-- A computation over states `σ` that may raise an `ε`. -/
abbrev Handler (σ ε : Type) : Type → Type := ExceptT ε (StateM σ)

namespace Handler

variable {σ ε α β : Type}

/-- Outcome and remaining state. -/
def exec (x : Handler σ ε α) (s : σ) : Except ε α × σ := x.run.run s

/-! ## One bind at a time -/

@[simp] theorem exec_get (s : σ) : exec (get : Handler σ ε σ) s = (.ok s, s) := rfl

@[simp] theorem exec_set (s s' : σ) : exec (set s' : Handler σ ε PUnit) s = (.ok ⟨⟩, s') := rfl

theorem exec_bind (x : Handler σ ε α) (f : α → Handler σ ε β) (s : σ) :
    exec (x >>= f) s =
      match exec x s with
      | (.ok a, s') => exec (f a) s'
      | (.error e, s') => (.error e, s') := by
  show (exec x s >>= fun r => (ExceptT.bindCont f r.1).run r.2 : Id (Except ε β × σ)) = _
  rcases exec x s with ⟨_ | _, s'⟩
  · rfl
  · rfl

theorem exec_bind_of_ok {x : Handler σ ε α} {s s' : σ} {a : α} (h : exec x s = (.ok a, s'))
    (f : α → Handler σ ε β) : exec (x >>= f) s = exec (f a) s' := by
  rw [exec_bind, h]

theorem exec_bind_of_error {x : Handler σ ε α} {s s' : σ} {e : ε} (h : exec x s = (.error e, s'))
    (f : α → Handler σ ε β) : exec (x >>= f) s = (.error e, s') := by
  rw [exec_bind, h]

/-- A bind returns if both of its parts do. -/
theorem exec_bind_ok {x : Handler σ ε α} {f : α → Handler σ ε β} {s s' : σ} {b : β} :
    exec (x >>= f) s = (.ok b, s') ↔
      ∃ a s₁, exec x s = (.ok a, s₁) ∧ exec (f a) s₁ = (.ok b, s') := by
  rw [exec_bind]
  rcases exec x s with ⟨e | a, s₁⟩
  · constructor
    · intro h
      cases h
    · rintro ⟨a, s₂, h, -⟩
      cases h
  · constructor
    · exact fun h => ⟨a, s₁, rfl, h⟩
    · rintro ⟨a', s₂, h, h'⟩
      cases h
      exact h'

@[simp] theorem exec_pure (a : α) (s : σ) : exec (pure a : Handler σ ε α) s = (.ok a, s) := rfl

@[simp] theorem exec_throw (e : ε) (s : σ) :
    exec (throw e : Handler σ ε α) s = (.error e, s) := rfl

theorem exec_tryCatch (x : Handler σ ε α) (f : ε → Handler σ ε α) (s : σ) :
    exec (tryCatchThe ε x f) s =
      match exec x s with
      | (.ok a, s') => (.ok a, s')
      | (.error e, s') => exec (f e) s' := by
  change (let p := exec x s; (match p.1 with
    | .ok a => (pure (.ok a) : StateM σ (Except ε α))
    | .error e => (f e).run).run p.2) = _
  rcases exec x s with ⟨_ | _, s'⟩
  · rfl
  · rfl

/-! ## Steps of a relation -/

/-- The state that the handler leaves is in the relation to the one it started in. -/
def Follows (ρ : σ → σ → Prop) (x : Handler σ ε α) : Prop := ∀ s, ρ s (exec x s).2

namespace Follows

variable {ρ : σ → σ → Prop}

theorem bind [IsTrans σ ρ] {x : Handler σ ε α} {f : α → Handler σ ε β} (hx : Follows ρ x)
    (hf : ∀ a, Follows ρ (f a)) : Follows ρ (x >>= f) := by
  intro s
  have hfirst := hx s
  rw [exec_bind]
  rcases hrun : exec x s with ⟨e | a, s'⟩
  · rw [hrun] at hfirst
    exact hfirst
  · rw [hrun] at hfirst
    exact IsTrans.trans _ _ _ hfirst (hf a s')

end Follows

end Handler

end OpenMemory.Lib
