/-!
# Partial updates

A patch names values for some fields of a record and leaves the others alone. It has landed when the
record shows every value that was named and every other field is as before.

What is stored need not be the value as it was named (it may be normalised, encoded or encrypted), so
a `Showing` says when a record shows a value. A translation of a patch drops values when it leaves
fields out: `lands_iff_of_kept` says when the patch has landed all the same.
-/

namespace OpenMemory.Lib

variable {φ : Type} {ν : φ → Type} {μ : Type}

/-- Some fields with a value each. -/
def Patch (φ : Type) (ν : φ → Type) : Type := (f : φ) → Option (ν f)

/-- When a record shows a value, and when a field is the same in two records. -/
structure Showing (φ : Type) (ν : φ → Type) (μ : Type) where
  shows : (f : φ) → ν f → μ → Prop
  same : φ → μ → μ → Prop

namespace Patch

/-- Every field that is named shows its value, and the others are as before. -/
def Lands (σ : Showing φ ν μ) (p : Patch φ ν) (before after : μ) : Prop :=
  ∀ f, (∀ v, p f = some v → σ.shows f v after) ∧ (p f = none → σ.same f before after)

/-- The value is named by `q` too, or is left out by it and shown already. -/
def Keeps (σ : Showing φ ν μ) (q : Patch φ ν) (before : μ) (f : φ) (v : ν f) : Prop :=
  q f = some v ∨ q f = none ∧ σ.shows f v before

/-- When `q` has landed, `p` has too exactly if each value that `p` names is kept. Where both name a
field, a record is to show but one of their values. -/
theorem lands_iff_of_kept {σ : Showing φ ν μ} {p q : Patch φ ν} {before after : μ}
    (hsame : ∀ f v, σ.same f before after → (σ.shows f v after ↔ σ.shows f v before))
    (hnames : ∀ f, p f = none → q f = none)
    (hone : ∀ f v w, p f = some v → q f = some w → σ.shows f v after → σ.shows f w after → v = w)
    (h : Lands σ q before after) :
    Lands σ p before after ↔ ∀ f v, p f = some v → Keeps σ q before f v := by
  constructor
  · intro hp f v hv
    have hshows := (hp f).1 v hv
    cases hq : q f with
    | none => exact .inr ⟨hq, (hsame f v ((h f).2 hq)).mp hshows⟩
    | some w =>
      obtain rfl := hone f v w hv hq hshows ((h f).1 w hq)
      exact .inl hq
  · intro hkeeps f
    refine ⟨fun v hv => ?_, fun hnone => (h f).2 (hnames f hnone)⟩
    rcases hkeeps f v hv with hq | ⟨hq, hbefore⟩
    · exact (h f).1 v hq
    · exact (hsame f v ((h f).2 hq)).mpr hbefore

end Patch

end OpenMemory.Lib
