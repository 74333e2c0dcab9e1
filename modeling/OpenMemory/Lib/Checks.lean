import OpenMemory.Lib.Txn

/-!
# Which step fails first

A computation that takes steps one after another fails as the first step that does not pass. Each
step is a `Check`: whether it passes, and whether it fails in the way in question. `Takes` relates
a computation to its checks; `Takes.bad_iff` then says when it fails so.

Where every step fails in that way, the order is of no account: `Demands` relates a computation to
the condition under which it succeeds.
-/

namespace OpenMemory.Lib

variable {ε α β : Type}

/-- A step: does it pass, and does it fail in the way in question? -/
structure Check where
  passes : Prop
  fails : Prop

/-- The step that runs `x`. -/
def Check.of (x : Except ε α) (fails : Prop) : Check := ⟨∃ a, x = .ok a, fails⟩

/-- Some step fails so, and all steps before it pass. -/
def FirstFails : List Check → Prop
  | [] => False
  | c :: rest => c.fails ∨ c.passes ∧ FirstFails rest

/-- An error in the way in question. -/
def FailsBy (bad : ε → Prop) (x : Except ε α) : Prop := ∃ e, x = .error e ∧ bad e

/-- The computation takes these steps. -/
inductive Takes (bad : ε → Prop) : {α : Type} → Except ε α → List Check → Prop
  | done {α : Type} (a : α) : Takes bad (.ok a) []
  | step {α β : Type} {x : Except ε β} {f : β → Except ε α} {fails : Prop} {rest : List Check}
      (hfails : FailsBy bad x ↔ fails) (h : ∀ b, x = .ok b → Takes bad (f b) rest) :
      Takes bad (x >>= f) (.of x fails :: rest)

/-- A composition fails by its first part, or by the second on what the first gives. -/
theorem failsBy_bind {bad : ε → Prop} {x : Except ε β} {f : β → Except ε α} :
    FailsBy bad (x >>= f) ↔ FailsBy bad x ∨ ∃ b, x = .ok b ∧ FailsBy bad (f b) := by
  unfold FailsBy
  cases x with
  | error e => simp [bind, Except.bind]
  | ok b => simp [bind, Except.bind]

theorem not_failsBy_ok {bad : ε → Prop} (a : α) : ¬FailsBy bad (.ok a) := by
  rintro ⟨e, h, -⟩
  cases h

theorem failsBy_pure {bad : ε → Prop} (a : α) : FailsBy bad (pure a : Except ε α) ↔ False :=
  iff_of_false (not_failsBy_ok a) not_false

theorem failsBy_error {bad : ε → Prop} {e : ε} :
    FailsBy bad (.error e : Except ε α) ↔ bad e :=
  ⟨fun ⟨_, h, hbad⟩ => Except.error.inj h ▸ hbad, fun h => ⟨e, rfl, h⟩⟩

/-- Mapping the result does not change how a check fails. -/
theorem failsBy_map {bad : ε → Prop} {x : Except ε α} {f : α → β} :
    FailsBy bad (f <$> x) ↔ FailsBy bad x := by
  cases x with
  | error e => exact failsBy_error.trans failsBy_error.symm
  | ok a => exact iff_of_false (not_failsBy_ok _) (not_failsBy_ok _)

/-- A constructor fails as its check does. -/
theorem failsBy_construct {τ : Type} {bad : ε → Prop} {check : α → Except ε α}
    {mk : (a : α) → check a = .ok a → τ}
    {idem : ∀ {a b : α}, check a = .ok b → check b = .ok b} {a : α} :
    FailsBy bad (construct check mk idem a) ↔ FailsBy bad (check a) := by
  unfold construct
  split
  · rename_i b h
    refine iff_of_false (not_failsBy_ok _) fun hfails => ?_
    rw [h] at hfails
    exact not_failsBy_ok _ hfails
  · rename_i e h
    have hcheck : FailsBy bad (check a) ↔ bad e := by
      rw [h]
      exact failsBy_error
    exact failsBy_error.trans hcheck.symm

/-- A computation fails so just when its first step that does not pass does. -/
theorem Takes.bad_iff {bad : ε → Prop} {x : Except ε α} {checks : List Check}
    (h : Takes bad x checks) : FailsBy bad x ↔ FirstFails checks := by
  induction h with
  | done a => exact iff_of_false (not_failsBy_ok a) not_false
  | step hfails hrest ih =>
    rw [failsBy_bind, hfails]
    refine or_congr_right ⟨?_, ?_⟩
    · rintro ⟨b, hb, hbad⟩
      exact ⟨⟨b, hb⟩, (ih b hb).mp hbad⟩
    · rintro ⟨⟨b, hb⟩, hfirst⟩
      exact ⟨b, hb, (ih b hb).mpr hfirst⟩

/-- A step of a transaction, or the rest of it on the state that the step leaves. -/
theorem failsBy_run_bind {σ : Type} {bad : ε → Prop} {x : Txn σ ε β} {f : β → Txn σ ε α} {s : σ} :
    FailsBy bad ((x >>= f).run s) ↔
      FailsBy bad (x.run s) ∨ ∃ b s', x.run s = .ok (b, s') ∧ FailsBy bad ((f b).run s') := by
  rw [StateT.run_bind, failsBy_bind]
  simp only [Prod.exists]

theorem failsBy_run_ofExcept {σ : Type} {bad : ε → Prop} {x : Except ε α} {s : σ} :
    FailsBy bad ((MonadExcept.ofExcept x : Txn σ ε α).run s) ↔ FailsBy bad x := by
  rw [Txn.run_ofExcept]
  exact failsBy_map

/-- The computation succeeds if `p` holds, and fails in the way in question if not. -/
structure Demands (bad : ε → Prop) (x : Except ε α) (p : Prop) : Prop where
  passes : p → ∃ a, x = .ok a
  fails : ¬p → FailsBy bad x

namespace Demands

variable {bad : ε → Prop} {x : Except ε α} {p q : Prop}

/-- A check passes exactly when what it demands holds. -/
theorem ok_iff (h : Demands bad x p) : (∃ a, x = .ok a) ↔ p := by
  refine ⟨fun ⟨a, ha⟩ => ?_, h.passes⟩
  by_contra hp
  have hfails := h.fails hp
  rw [ha] at hfails
  exact not_failsBy_ok a hfails

/-- It fails exactly when this does not hold. -/
theorem failsBy_iff (h : Demands bad x p) : FailsBy bad x ↔ ¬p := by
  refine ⟨fun hfails hp => ?_, h.fails⟩
  obtain ⟨a, ha⟩ := h.passes hp
  rw [ha] at hfails
  exact not_failsBy_ok a hfails

theorem of_ok {a : α} (h : x = .ok a) : Demands bad x True :=
  ⟨fun _ => ⟨a, h⟩, fun hp => absurd trivial hp⟩

theorem congr (h : Demands bad x p) (hpq : p ↔ q) : Demands bad x q :=
  ⟨fun hq => h.passes (hpq.mpr hq), fun hq => h.fails (mt hpq.mp hq)⟩

/-- One step after the other: both conditions. -/
theorem bind {f : α → Except ε β} (hx : Demands bad x p)
    (hf : ∀ a, x = .ok a → Demands bad (f a) q) : Demands bad (x >>= f) (p ∧ q) := by
  constructor
  case passes =>
    rintro ⟨hp, hq⟩
    obtain ⟨a, ha⟩ := hx.passes hp
    obtain ⟨b, hb⟩ := (hf a ha).passes hq
    exact ⟨b, except_bind_ok.mpr ⟨a, ha, hb⟩⟩
  case fails =>
    intro hpq
    by_cases hp : p
    · obtain ⟨a, ha⟩ := hx.passes hp
      exact failsBy_bind.mpr (.inr ⟨a, ha, (hf a ha).fails fun hq => hpq ⟨hp, hq⟩⟩)
    · exact failsBy_bind.mpr (.inl (hx.fails hp))

/-- The last step, of which only the value is read. -/
theorem map (hx : Demands bad x p) (f : α → β) : Demands bad (f <$> x) p := by
  constructor
  case passes =>
    intro hp
    obtain ⟨a, rfl⟩ := hx.passes hp
    exact ⟨f a, rfl⟩
  case fails => exact fun hp => failsBy_map.mpr (hx.fails hp)

/-- A construction demands what its check does. -/
theorem construct {τ : Type} {check : α → Except ε α} {mk : (a : α) → check a = .ok a → τ}
    {idem : ∀ {a b : α}, check a = .ok b → check b = .ok b} {a : α}
    (h : Demands bad (check a) p) : Demands bad (construct check mk idem a) p := by
  constructor
  case passes =>
    intro hp
    obtain ⟨b, hb⟩ := h.passes hp
    exact ⟨mk b (idem hb), construct_ok.mpr ⟨b, idem hb, hb, rfl⟩⟩
  case fails => exact fun hp => failsBy_construct.mpr (h.fails hp)

/-- Checks one after the other demand both. -/
theorem run_bind {σ : Type} {x : Txn σ ε α} {f : α → Txn σ ε β} {s : σ}
    (hx : Demands bad (x.run s) p)
    (hf : ∀ a s', x.run s = .ok (a, s') → Demands bad ((f a).run s') q) :
    Demands bad ((x >>= f).run s) (p ∧ q) := by
  rw [StateT.run_bind]
  exact hx.bind fun r hr => hf r.1 r.2 hr

theorem run_ofExcept {σ : Type} (h : Demands bad x p) (s : σ) :
    Demands bad ((MonadExcept.ofExcept x : Txn σ ε α).run s) p := by
  rw [Txn.run_ofExcept]
  exact h.map fun a => (a, s)

end Demands

end OpenMemory.Lib
