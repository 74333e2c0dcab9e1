import Mathlib

/-!
# Runs of a transition function

A system with states in `σ` and moves in `κ` is a function `step`. A run is the list of its moves.

- `play`: the state after a run.
- `Along`: every move of a run has a property, in the state it is made in.
- `Occurs`: some move of a run has a property, in the state it is made in.
- `Along.kept`: an invariant that allowed moves keep holds after the run.
- `along_congr`: two properties of moves that agree wherever the invariant holds are true of the
  same runs.
- `Paged`: reading a listing page by page, each page asked for with the cursor of the one before.
-/

namespace OpenMemory.Lib

variable {σ κ : Type} {step : σ → κ → σ} {P Q : σ → κ → Prop} {I : σ → Prop}

/-- The state after a run. -/
def play (step : σ → κ → σ) (s : σ) (moves : List κ) : σ := moves.foldl step s

@[simp] theorem play_nil (s : σ) : play step s [] = s := rfl

@[simp] theorem play_cons (s : σ) (m : κ) (moves : List κ) :
    play step s (m :: moves) = play step (step s m) moves := rfl

theorem play_append (s : σ) (before after : List κ) :
    play step s (before ++ after) = play step (play step s before) after :=
  List.foldl_append

/-- Every move has the property in the state it is made in. -/
def Along (step : σ → κ → σ) (P : σ → κ → Prop) : σ → List κ → Prop
  | _, [] => True
  | s, m :: moves => P s m ∧ Along step P (step s m) moves

theorem along_append {s : σ} {before after : List κ} :
    Along step P s (before ++ after) ↔
      Along step P s before ∧ Along step P (play step s before) after := by
  induction before generalizing s with
  | nil => exact (and_iff_right trivial).symm
  | cons m before ih =>
    show P s m ∧ Along step P (step s m) (before ++ after) ↔
      (P s m ∧ Along step P (step s m) before) ∧ _
    rw [ih, and_assoc]
    rfl

/-- What allowed moves keep holds after a run of them. -/
theorem Along.kept {s : σ} {moves : List κ} (h : Along step P s moves)
    (hstep : ∀ s m, I s → P s m → I (step s m)) (hs : I s) : I (play step s moves) := by
  induction moves generalizing s with
  | nil => exact hs
  | cons m moves ih => exact ih h.2 (hstep s m hs h.1)

/-- What allowed moves have in invariant states, all moves of a run of them have. -/
theorem Along.weaken {s : σ} {moves : List κ} (h : Along step P s moves) (hs : I s)
    (hstep : ∀ s m, I s → P s m → I (step s m)) (hweaken : ∀ s m, I s → P s m → Q s m) :
    Along step Q s moves := by
  induction moves generalizing s with
  | nil => trivial
  | cons m moves ih => exact ⟨hweaken s m hs h.1, ih h.2 (hstep s m hs h.1)⟩

/-- The first move that does not have the property. -/
theorem exists_first_of_not_along {s : σ} {moves : List κ} (h : ¬Along step P s moves) :
    ∃ before m after, moves = before ++ m :: after ∧ Along step P s before ∧
      ¬P (play step s before) m := by
  induction moves generalizing s with
  | nil => exact absurd trivial h
  | cons m moves ih =>
    by_cases hm : P s m
    · obtain ⟨before, m', after, rfl, hbefore, hm'⟩ := ih fun halong => h ⟨hm, halong⟩
      exact ⟨m :: before, m', after, rfl, ⟨hm, hbefore⟩, hm'⟩
    · exact ⟨[], m, moves, rfl, trivial, hm⟩

theorem along_of_forall (h : ∀ s m, P s m) (s : σ) (moves : List κ) : Along step P s moves := by
  induction moves generalizing s with
  | nil => trivial
  | cons m moves ih => exact ⟨h s m, ih (step s m)⟩

/-- Some move has the property in the state it is made in. -/
def Occurs (step : σ → κ → σ) (P : σ → κ → Prop) (s : σ) (moves : List κ) : Prop :=
  ∃ before m after, moves = before ++ m :: after ∧ P (play step s before) m

/-- What every move keeps holds after a run. -/
theorem play_kept {moves : List κ} {s : σ} (hstep : ∀ s m, I s → I (step s m)) (hs : I s) :
    I (play step s moves) :=
  (along_of_forall (P := fun _ _ => True) (fun _ _ => trivial) s moves).kept
    (fun s m hi _ => hstep s m hi) hs

/-- What a move brings about and later moves keep holds after the run. -/
theorem Occurs.kept {s : σ} {moves : List κ} (h : Occurs step P s moves)
    (hmake : ∀ s m, P s m → I (step s m)) (hstep : ∀ s m, I s → I (step s m)) :
    I (play step s moves) := by
  obtain ⟨before, m, after, rfl, hm⟩ := h
  rw [play_append, play_cons]
  exact play_kept hstep (hmake _ m hm)

/-- A property of the moves alone. -/
theorem along_const {Q : κ → Prop} {s : σ} {moves : List κ} :
    Along step (fun _ m => Q m) s moves ↔ ∀ m ∈ moves, Q m := by
  induction moves generalizing s with
  | nil => exact ⟨fun _ m hm => absurd hm List.not_mem_nil, fun _ => trivial⟩
  | cons m moves ih =>
    rw [List.forall_mem_cons]
    exact and_congr_right fun _ => ih

/-- Properties that agree on invariant states, where they keep the invariant, hold along the same
runs. -/
theorem along_congr {s : σ} {moves : List κ} (hs : I s) (hiff : ∀ s m, I s → (P s m ↔ Q s m))
    (hkeep : ∀ s m, I s → P s m → I (step s m)) :
    Along step P s moves ↔ Along step Q s moves := by
  induction moves generalizing s with
  | nil => exact Iff.rfl
  | cons m moves ih =>
    show P s m ∧ _ ↔ Q s m ∧ _
    rw [← hiff s m hs]
    exact and_congr_right fun hm => ih (hkeep s m hs hm)

/-! ## Reading page by page -/

/-- Reading from a cursor until a page has none: the pages concatenated. -/
inductive Paged {ι α : Type} (page : Option ι → Option (List α × Option ι)) :
    Option ι → List α → Prop
  | last {cursor : Option ι} {items : List α} (read : page cursor = some (items, none)) :
      Paged page cursor items
  | more {cursor : Option ι} {items rest : List α} {next : ι}
      (read : page cursor = some (items, some next)) (others : Paged page (some next) rest) :
      Paged page cursor (items ++ rest)

/-- A listing whose every page has a cursor is never read to its end. -/
theorem not_paged_of_endless {ι α : Type} {page : Option ι → Option (List α × Option ι)}
    (h : ∀ cursor items, page cursor ≠ some (items, none)) {cursor : Option ι} {l : List α} :
    ¬ Paged page cursor l := by
  intro hl
  induction hl with
  | last read => exact h _ _ read
  | more _ _ ih => exact ih

end OpenMemory.Lib
