import Mathlib

/-!
# Transactions and their runs

A transaction reads and writes a state and either commits with a result or
raises. Raising discards every write, so `StateT σ (Except ε)` *is* the
semantics of "run the body, roll back on an exception": an error carries no
state. `attempt` is what a caller sees, the outcome together with the state
that is left.

Four groups of rules:

- inversion (`bind_ok`, `pure_ok`, `ofExcept_ok`, …): what a successful body
  must have done, one bind at a time;
- `Stateless`, `Keeps`, `ReadOnly`: a body that ignores the state, keeps a part of it,
  or only reads it;
- `Commutes`: a body acts the same way on a state and on its image under a
  projection, with pre- and postconditions so that the rule for `bind` can pass
  facts along. This is the rule set behind noninterference;
- `Reaches.kept`: runs are the reflexive-transitive closure of a step relation,
  and what every step keeps, a run keeps.
-/

namespace OpenMemory.Lib

/-! ## Exceptions without a state -/

section Except

variable {ε α β : Type}

theorem except_bind_ok {x : Except ε α} {f : α → Except ε β} {b : β} :
    (x >>= f) = .ok b ↔ ∃ a, x = .ok a ∧ f a = .ok b := by
  cases x with
  | error e => simp [bind, Except.bind]
  | ok a => simp [bind, Except.bind]

theorem except_ok_bind (a : α) (f : α → Except ε β) : (Except.ok a >>= f) = f a := rfl

theorem except_pure_ok {a b : α} : (pure a : Except ε α) = .ok b ↔ b = a := by
  show Except.ok a = Except.ok b ↔ _
  simp [eq_comm]

theorem except_map_ok {x : Except ε α} {f : α → β} {b : β} :
    x.map f = .ok b ↔ ∃ a, x = .ok a ∧ f a = b := by
  cases x with
  | error e => simp [Except.map]
  | ok a => simp [Except.map]

/-- A `mapM` that succeeds did so on each element. -/
theorem mapM_ok {f : α → Except ε β} {xs : List α} {ys : List β} :
    xs.mapM f = .ok ys ↔ List.Forall₂ (fun x y => f x = .ok y) xs ys := by
  induction xs generalizing ys with
  | nil => rw [List.mapM_nil, except_pure_ok, List.forall₂_nil_left_iff]
  | cons x xs ih =>
    rw [List.mapM_cons, List.forall₂_cons_left_iff, except_bind_ok]
    constructor
    · rintro ⟨y, hy, h⟩
      obtain ⟨rest, hrest, h⟩ := except_bind_ok.mp h
      exact ⟨y, rest, hy, ih.mp hrest, except_pure_ok.mp h⟩
    · rintro ⟨y, rest, hy, hrest, rfl⟩
      exact ⟨y, hy, except_bind_ok.mpr ⟨rest, ih.mpr hrest, rfl⟩⟩

/-- A `mapM` succeeds on a list when it does on each element. -/
theorem exists_mapM_ok {f : α → Except ε β} {xs : List α} :
    (∃ ys, xs.mapM f = .ok ys) ↔ ∀ x ∈ xs, ∃ y, f x = .ok y := by
  induction xs with
  | nil => exact ⟨fun _ _ h => absurd h List.not_mem_nil, fun _ => ⟨[], rfl⟩⟩
  | cons x xs ih =>
    rw [List.forall_mem_cons, ← ih]
    simp only [mapM_ok, List.forall₂_cons_left_iff]
    constructor
    · rintro ⟨_, y, ys, hy, hys, rfl⟩
      exact ⟨⟨y, hy⟩, ys, hys⟩
    · rintro ⟨⟨y, hy⟩, ys, hys⟩
      exact ⟨_, y, ys, hy, hys, rfl⟩

/-- Each element of the result comes from one of the list. -/
theorem mem_of_mapM_ok {f : α → Except ε β} {xs : List α} {ys : List β} {y : β}
    (h : xs.mapM f = .ok ys) (hy : y ∈ ys) : ∃ x ∈ xs, f x = .ok y := by
  have hpairs := mapM_ok.mp h
  clear h
  induction hpairs with
  | nil => cases hy
  | @cons x y' xs ys hone _ ih =>
    rcases List.mem_cons.mp hy with rfl | hrest
    · exact ⟨x, List.mem_cons_self, hone⟩
    · obtain ⟨x', hx', heq⟩ := ih hrest
      exact ⟨x', List.mem_cons_of_mem _ hx', heq⟩

/-- The result holds what comes from the elements of the list, and nothing else. -/
theorem mem_mapM_ok {f : α → Except ε β} {xs : List α} {ys : List β} (h : xs.mapM f = .ok ys)
    (y : β) : y ∈ ys ↔ ∃ x ∈ xs, f x = .ok y := by
  refine ⟨mem_of_mapM_ok h, ?_⟩
  rintro ⟨x, hx, hy⟩
  have hpairs := mapM_ok.mp h
  clear h
  induction hpairs with
  | nil => cases hx
  | @cons x' y' xs ys hone _ ih =>
    rcases List.mem_cons.mp hx with rfl | hrest
    · rw [hone] at hy
      cases hy
      exact List.mem_cons_self
    · exact List.mem_cons_of_mem _ (ih hrest)

/-- Build a value of a type that carries the proof of its own check: run the
check, and keep its (possibly normalised) result, which passes again. -/
def construct {τ : Type} (check : α → Except ε α) (mk : (a : α) → check a = .ok a → τ)
    (idem : ∀ {a b : α}, check a = .ok b → check b = .ok b) (a : α) : Except ε τ :=
  match h : check a with
  | .ok b => .ok (mk b (idem h))
  | .error e => .error e

/-- A value that carries its check is made exactly where the check passes. -/
theorem construct_ok {τ : Type} {check : α → Except ε α} {mk : (a : α) → check a = .ok a → τ}
    {idem : ∀ {a b : α}, check a = .ok b → check b = .ok b} {a : α} {t : τ} :
    construct check mk idem a = .ok t ↔ ∃ b h, check a = .ok b ∧ t = mk b h := by
  unfold construct
  split
  · rename_i b h
    constructor
    · intro ht
      cases ht
      exact ⟨b, idem h, h, rfl⟩
    · rintro ⟨b', h', hb, rfl⟩
      rw [h] at hb
      cases hb
      rfl
  · rename_i e h
    constructor
    · intro ht
      cases ht
    · rintro ⟨b', h', hb, -⟩
      rw [h] at hb
      cases hb

end Except

/-- A transaction over states `σ` with exceptions `ε`. -/
abbrev Txn (σ ε : Type) : Type → Type := StateT σ (Except ε)

namespace Txn

variable {σ ε α β : Type}

/-- Outcome and remaining state: an exception rolls the state back. -/
def attempt (x : Txn σ ε α) (s : σ) : Except ε α × σ :=
  match x.run s with
  | .ok (a, s') => (.ok a, s')
  | .error e => (.error e, s)

theorem attempt_ok {x : Txn σ ε α} {s s' : σ} {a : α} :
    x.attempt s = (.ok a, s') ↔ x.run s = .ok (a, s') := by
  unfold attempt
  cases h : x.run s with
  | ok p => simp [Prod.ext_iff]
  | error e => simp

/-- A transaction that raises leaves the state as it was. -/
theorem attempt_error {x : Txn σ ε α} {s s' : σ} {e : ε} :
    x.attempt s = (.error e, s') ↔ x.run s = .error e ∧ s' = s := by
  unfold attempt
  cases h : x.run s with
  | ok p => simp
  | error e' => simp [eq_comm]

/-- A body whose observed result is known has committed. -/
theorem run_of_attempt_map {x : Txn σ ε α} {s : σ} {f : α → β} {b : β}
    (h : (x.attempt s).1.map f = .ok b) :
    ∃ a, x.run s = .ok (a, (x.attempt s).2) ∧ f a = b := by
  unfold attempt at h ⊢
  cases hx : x.run s with
  | error e =>
    rw [hx] at h
    cases h
  | ok r =>
    rw [hx] at h
    cases h
    exact ⟨r.1, rfl, rfl⟩

/-! ## Inversion -/

/-- A sequence returns exactly if both parts do, the second from the state that the first left. -/
theorem bind_ok {x : Txn σ ε α} {f : α → Txn σ ε β} {s s' : σ} {b : β} :
    (x >>= f).run s = .ok (b, s') ↔
      ∃ a s₁, x.run s = .ok (a, s₁) ∧ (f a).run s₁ = .ok (b, s') := by
  rw [StateT.run_bind]
  cases h : x.run s with
  | error e => simp [bind, Except.bind]
  | ok p =>
    obtain ⟨a, s₁⟩ := p
    show (f a).run s₁ = _ ↔ _
    constructor
    · intro hf
      exact ⟨a, s₁, rfl, hf⟩
    · rintro ⟨_, _, heq, hf⟩
      cases heq
      exact hf

theorem run_bind_of_ok {x : Txn σ ε α} {f : α → Txn σ ε β} {s s₁ : σ} {a : α}
    (h : x.run s = .ok (a, s₁)) : (x >>= f).run s = (f a).run s₁ := by
  rw [StateT.run_bind, h]
  rfl

theorem run_bind_of_error {x : Txn σ ε α} {f : α → Txn σ ε β} {s : σ} {e : ε}
    (h : x.run s = .error e) : (x >>= f).run s = .error e := by
  rw [StateT.run_bind, h]
  rfl

/-- A sequence raises in its first part or in its second. -/
theorem bind_error {x : Txn σ ε α} {f : α → Txn σ ε β} {s : σ} {e : ε} :
    (x >>= f).run s = .error e ↔
      x.run s = .error e ∨ ∃ a s₁, x.run s = .ok (a, s₁) ∧ (f a).run s₁ = .error e := by
  rw [StateT.run_bind]
  cases h : x.run s with
  | error e' => simp [bind, Except.bind]
  | ok p =>
    obtain ⟨a, s₁⟩ := p
    show (f a).run s₁ = _ ↔ _
    constructor
    · intro hf
      exact .inr ⟨a, s₁, rfl, hf⟩
    · rintro (heq | ⟨_, _, heq, hf⟩)
      · cases heq
      · cases heq
        exact hf

theorem pure_ok {a b : α} {s s' : σ} :
    (pure a : Txn σ ε α).run s = .ok (b, s') ↔ b = a ∧ s' = s := by
  rw [StateT.run_pure]
  show Except.ok (a, s) = Except.ok (b, s') ↔ _
  simp only [Except.ok.injEq, Prod.mk.injEq]
  exact ⟨fun h => ⟨h.1.symm, h.2.symm⟩, fun h => ⟨h.1.symm, h.2.symm⟩⟩

theorem map_ok {x : Txn σ ε α} {f : α → β} {s s' : σ} {b : β} :
    (f <$> x).run s = .ok (b, s') ↔ ∃ a, x.run s = .ok (a, s') ∧ b = f a := by
  rw [← bind_pure_comp, bind_ok]
  constructor
  · rintro ⟨a, s₁, ha, hb⟩
    obtain ⟨rfl, rfl⟩ := pure_ok.mp hb
    exact ⟨a, ha, rfl⟩
  · rintro ⟨a, ha, rfl⟩
    exact ⟨a, s', ha, rfl⟩

theorem run_ofExcept (x : Except ε α) (s : σ) :
    (MonadExcept.ofExcept x : Txn σ ε α).run s = x.map fun a => (a, s) := by
  cases x <;> rfl

/-- A computation without state leaves the state alone. -/
theorem ofExcept_ok {x : Except ε α} {s s' : σ} {a : α} :
    (MonadExcept.ofExcept x : Txn σ ε α).run s = .ok (a, s') ↔ x = .ok a ∧ s' = s := by
  rw [run_ofExcept]
  cases x with
  | error e => simp [Except.map]
  | ok b => simp [Except.map, eq_comm]

/-- Translating the exception of a body leaves its successes as they are. -/
theorem rethrow_ok {x : Txn σ ε α} {f : ε → ε} {s : σ} {r : α × σ} :
    (tryCatchThe ε x fun e => throw (f e)).run s = .ok r ↔ x.run s = .ok r := by
  show (tryCatchThe ε (x.run s) fun e => throw (f e)) = .ok r ↔ _
  cases x.run s with
  | error e => exact iff_of_false nofun nofun
  | ok a => exact Iff.rfl

/-- A body with a fallback: it succeeds, or raises and the fallback runs from where it started. -/
theorem tryCatch_ok {x : Txn σ ε α} {f : ε → Txn σ ε α} {s : σ} {r : α × σ} :
    (tryCatchThe ε x f).run s = .ok r ↔
      x.run s = .ok r ∨ ∃ e, x.run s = .error e ∧ (f e).run s = .ok r := by
  show (tryCatchThe ε (x.run s) fun e => (f e).run s) = .ok r ↔ _
  cases x.run s with
  | error e =>
    show (f e).run s = .ok r ↔ _
    simp
  | ok a =>
    show Except.ok a = .ok r ↔ _
    simp

/-! ## Checks that do not touch the state -/

/-- The body is the stateless `y`: same result or exception, state as found. -/
def Stateless (x : Txn σ ε α) (y : Except ε α) : Prop := ∀ s, x.run s = y.map fun a => (a, s)

namespace Stateless

/-- A sequence of transactions that do not read the state is one. -/
theorem bind {x : Txn σ ε α} {y : Except ε α} {f : α → Txn σ ε β} {g : α → Except ε β}
    (hx : Stateless x y) (hf : ∀ a, Stateless (f a) (g a)) : Stateless (x >>= f) (y >>= g) := by
  intro s
  rw [StateT.run_bind, hx s]
  cases y with
  | error e => rfl
  | ok a => exact hf a s

theorem pure (a : α) : Stateless (Pure.pure a : Txn σ ε α) (Pure.pure a) := fun _ => rfl

theorem ofExcept (y : Except ε α) :
    Stateless (MonadExcept.ofExcept y : Txn σ ε α) (MonadExcept.ofExcept y) := by
  intro s
  cases y <;> rfl

end Stateless

/-! ## Frames and reads -/

/-- The body leaves a part of the state as it found it. -/
def Keeps {τ : Type} (π : σ → τ) (x : Txn σ ε α) : Prop :=
  ∀ s a s', x.run s = .ok (a, s') → π s' = π s

namespace Keeps

variable {τ : Type} {π : σ → τ}

/-- A sequence keeps what both parts keep. -/
theorem bind {x : Txn σ ε α} {f : α → Txn σ ε β} (hx : Keeps π x) (hf : ∀ a, Keeps π (f a)) :
    Keeps π (x >>= f) := by
  intro s b s' h
  obtain ⟨a, s₁, ha, hb⟩ := bind_ok.mp h
  rw [hf a s₁ b s' hb, hx s a s₁ ha]

theorem map {x : Txn σ ε α} (f : α → β) (hx : Keeps π x) : Keeps π (f <$> x) := by
  intro s b s' h
  obtain ⟨a, ha, -⟩ := map_ok.mp h
  exact hx s a s' ha

theorem pure (a : α) : Keeps π (Pure.pure a : Txn σ ε α) := by
  intro s b s' h
  rw [(pure_ok.mp h).2]

theorem throw (e : ε) : Keeps π (MonadExcept.throw e : Txn σ ε α) :=
  fun _ _ _ h => nomatch h

theorem ofExcept (x : Except ε α) : Keeps π (MonadExcept.ofExcept x : Txn σ ε α) := by
  intro s a s' h
  rw [(ofExcept_ok.mp h).2]

/-- Renaming an exception keeps what was kept. -/
theorem rethrow {x : Txn σ ε α} (hx : Keeps π x) (f : ε → ε) :
    Keeps π (tryCatchThe ε x fun e => MonadExcept.throw (f e)) := by
  intro s a s' h
  exact hx s a s' (rethrow_ok.mp h)

end Keeps

/-- The body leaves the state as it found it. -/
def ReadOnly (x : Txn σ ε α) : Prop := Keeps id x

namespace ReadOnly

/-- A sequence of read-only transactions is read-only. -/
theorem bind {x : Txn σ ε α} {f : α → Txn σ ε β} (hx : ReadOnly x) (hf : ∀ a, ReadOnly (f a)) :
    ReadOnly (x >>= f) :=
  Keeps.bind hx hf

theorem pure (a : α) : ReadOnly (Pure.pure a : Txn σ ε α) := Keeps.pure a

theorem ofExcept (x : Except ε α) : ReadOnly (MonadExcept.ofExcept x : Txn σ ε α) :=
  Keeps.ofExcept x

/-- A computed result returned with the state that was read. -/
theorem of_run {x : Txn σ ε α} (f : σ → Except ε α)
    (hx : ∀ s, x.run s = (f s).map fun a => (a, s)) : ReadOnly x := by
  intro s a s' h
  rw [hx] at h
  cases hf : f s with
  | error e =>
    rw [hf] at h
    cases h
  | ok b =>
    rw [hf] at h
    cases h
    rfl

end ReadOnly

/-! ## Moving along a preorder -/

/-- Every successful run of the body moves the state along `ρ`. -/
def Along (ρ : σ → σ → Prop) (x : Txn σ ε α) : Prop :=
  ∀ s a s', x.run s = .ok (a, s') → ρ s s'

namespace Along

variable {ρ : σ → σ → Prop}

/-- A sequence goes along a transitive relation that both parts go along. -/
theorem bind [IsTrans σ ρ] {x : Txn σ ε α} {f : α → Txn σ ε β} (hx : Along ρ x)
    (hf : ∀ a, Along ρ (f a)) : Along ρ (x >>= f) := by
  intro s b s' h
  obtain ⟨a, s₁, ha, hb⟩ := bind_ok.mp h
  exact IsTrans.trans _ _ _ (hx s a s₁ ha) (hf a s₁ b s' hb)

/-- What is checked first may be used for the rest. -/
theorem ofExcept_bind {x : Except ε α} {f : α → Txn σ ε β} (hf : ∀ a, x = .ok a → Along ρ (f a)) :
    Along ρ (MonadExcept.ofExcept x >>= f) := by
  intro s b s' h
  obtain ⟨a, s₁, hread, hb⟩ := bind_ok.mp h
  obtain ⟨ha, rfl⟩ := ofExcept_ok.mp hread
  exact hf a ha _ b s' hb

theorem map {x : Txn σ ε α} (f : α → β) (hx : Along ρ x) : Along ρ (f <$> x) := by
  intro s b s' h
  obtain ⟨a, ha, -⟩ := map_ok.mp h
  exact hx s a s' ha

theorem pure [Std.Refl ρ] (a : α) : Along ρ (Pure.pure a : Txn σ ε α) := by
  intro s b s' h
  rw [(pure_ok.mp h).2]
  exact Std.Refl.refl s

theorem throw (e : ε) : Along ρ (MonadExcept.throw e : Txn σ ε α) := by
  intro s a s' h
  cases h

theorem ofExcept [Std.Refl ρ] (x : Except ε α) :
    Along ρ (MonadExcept.ofExcept x : Txn σ ε α) := by
  intro s a s' h
  rw [(ofExcept_ok.mp h).2]
  exact Std.Refl.refl s

end Along

/-! ## Acting the same way on a projection -/

/-- From every state with `P` the body does on the projected state what it does on
the state itself (same result or same exception, projected state left), and a
successful body leaves `Q`. -/
structure Commutes (π : σ → σ) (P : σ → Prop) (x : Txn σ ε α) (Q : α → σ → Prop) : Prop where
  run : ∀ s, P s → x.run (π s) = (x.run s).map fun r => (r.1, π r.2)
  post : ∀ s a s', P s → x.run s = .ok (a, s') → Q a s'

namespace Commutes

variable {π : σ → σ} {P P' : σ → Prop} {Q : α → σ → Prop} {Q' : β → σ → Prop}

/-- A sequence commutes with a view if both parts do, the second given what the first returns. -/
theorem bind {x : Txn σ ε α} {f : α → Txn σ ε β} (hx : Commutes π P x Q)
    (hf : ∀ a, Commutes π (Q a) (f a) Q') : Commutes π P (x >>= f) Q' where
  run s hs := by
    rw [StateT.run_bind, StateT.run_bind, hx.run s hs]
    cases h : x.run s with
    | error e => rfl
    | ok r => exact (hf r.1).run r.2 (hx.post s r.1 r.2 hs h)
  post s b s' hs h := by
    obtain ⟨a, s₁, ha, hb⟩ := bind_ok.mp h
    exact (hf a).post s₁ b s' (hx.post s a s₁ hs ha) hb

/-- A step that keeps the precondition and establishes `T` of its result. -/
theorem andThen {x : Txn σ ε α} {f : α → Txn σ ε β} {T : α → Prop}
    (hx : Commutes π P x fun a s => P s ∧ T a) (hf : ∀ a, T a → Commutes π P (f a) Q') :
    Commutes π P (x >>= f) Q' :=
  hx.bind fun a =>
    ⟨fun s hs => (hf a hs.2).run s hs.1, fun s b s' hs h => (hf a hs.2).post s b s' hs.1 h⟩

/-- Less may be promised, and more be asked. -/
theorem mono {x : Txn σ ε α} {Q₀ : α → σ → Prop} (hx : Commutes π P x Q₀)
    (hP : ∀ s, P' s → P s) (hQ : ∀ a s, Q₀ a s → Q a s) : Commutes π P' x Q where
  run s hs := hx.run s (hP s hs)
  post s a s' hs h := hQ a s' (hx.post s a s' (hP s hs) h)

theorem pure (a : α) : Commutes π P (Pure.pure a : Txn σ ε α) fun b s => P s ∧ b = a where
  run _ _ := rfl
  post s b s' hs h := by
    obtain ⟨rfl, rfl⟩ := pure_ok.mp h
    exact ⟨hs, rfl⟩

theorem throw (e : ε) : Commutes π P (MonadExcept.throw e : Txn σ ε α) Q where
  run _ _ := rfl
  post s a s' _ h := by cases h

theorem map {x : Txn σ ε α} (f : α → β) (hx : Commutes π P x Q) :
    Commutes π P (f <$> x) fun _ _ => True where
  run s hs := by
    rw [StateT.run_map, StateT.run_map, hx.run s hs]
    cases x.run s <;> rfl
  post _ _ _ _ _ := trivial

/-- A check that does not touch the state. -/
theorem stateless {x : Txn σ ε α} {y : Except ε α} (hx : Stateless x y) :
    Commutes π P x fun a s => P s ∧ y = .ok a where
  run s _ := by
    rw [hx, hx]
    cases y <;> rfl
  post s a s' hs h := by
    rw [hx] at h
    cases y with
    | error e => cases h
    | ok b =>
      cases h
      exact ⟨hs, rfl⟩

/-- A read that the projection does not affect. -/
theorem read {x : Txn σ ε α} (f : σ → Except ε α) (hx : ∀ s, x.run s = (f s).map fun a => (a, s))
    (hf : ∀ s, P s → f (π s) = f s) : Commutes π P x fun a s => P s ∧ f s = .ok a where
  run s hs := by
    rw [hx, hx, hf s hs]
    cases f s <;> rfl
  post s a s' hs h := by
    rw [hx] at h
    cases hfs : f s with
    | error e =>
      rw [hfs] at h
      cases h
    | ok b =>
      rw [hfs] at h
      cases h
      exact ⟨hs, hfs⟩

theorem ofExcept (x : Except ε α) :
    Commutes π P (MonadExcept.ofExcept x : Txn σ ε α) fun a s => P s ∧ x = .ok a :=
  stateless (run_ofExcept x)

/-- What the caller sees of the body on the projected state. -/
theorem attempt_eq {x : Txn σ ε α} (hx : Commutes π P x Q) {s : σ} (hs : P s) :
    x.attempt (π s) = ((x.attempt s).1, π (x.attempt s).2) := by
  unfold attempt
  rw [hx.run s hs]
  cases x.run s <;> rfl

end Commutes

/-! ## What a computation may raise -/

/-- Every exception it can end with has the property. -/
def Raises (P : ε → Prop) (x : Txn σ ε α) : Prop := ∀ s e, x.run s = .error e → P e

namespace Raises

variable {P : ε → Prop}

/-- A sequence raises only what one of its parts raises. -/
theorem bind {x : Txn σ ε α} {f : α → Txn σ ε β} (hx : Raises P x) (hf : ∀ a, Raises P (f a)) :
    Raises P (x >>= f) := by
  intro s e h
  rcases bind_error.mp h with hfirst | ⟨a, s₁, -, hrest⟩
  · exact hx s e hfirst
  · exact hf a s₁ e hrest

theorem pure (a : α) : Raises P (Pure.pure a : Txn σ ε α) := by
  intro s e h
  cases h

theorem throw {e : ε} (he : P e) : Raises P (MonadExcept.throw e : Txn σ ε α) := by
  intro s e' h
  cases h
  exact he

theorem ofExcept {x : Except ε α} (hx : ∀ e, x = .error e → P e) :
    Raises P (MonadExcept.ofExcept x : Txn σ ε α) := by
  intro s e h
  cases x with
  | error e' =>
    cases h
    exact hx _ rfl
  | ok a => cases h

end Raises

end Txn

/-! ## Runs -/

/-- Any number of steps. -/
abbrev Reaches {σ : Type} (step : σ → σ → Prop) : σ → σ → Prop := Relation.ReflTransGen step

/-- What every step keeps, a run keeps. -/
theorem Reaches.kept {σ : Type} {step : σ → σ → Prop} {I : σ → Prop} {s s' : σ}
    (h : Reaches step s s') (hstep : ∀ s s', step s s' → I s → I s') (hs : I s) : I s' := by
  induction h with
  | refl => exact hs
  | tail _ hlast ih => exact hstep _ _ hlast ih

end OpenMemory.Lib
