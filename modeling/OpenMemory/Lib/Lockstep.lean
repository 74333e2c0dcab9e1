import OpenMemory.Lib.Runs

/-!
# Two systems under the same moves

A move changes the state of a system and is answered. `answers` are the answers to the moves of a
run. Two systems that are related stay so, and answer alike, as long as the moves are allowed; if a
move that is not is always answered differently, then their runs look the same exactly when every
move is allowed (`answers_eq_iff`).
-/

namespace OpenMemory.Lib

variable {σ τ κ β γ : Type}

/-- The answers to the moves of a run. -/
def answers (step : σ → κ → σ) (answer : σ → κ → β) : σ → List κ → List β
  | _, [] => []
  | s, m :: moves => answer s m :: answers step answer (step s m) moves

/-- A system whose states are a part of those of another, which does the same with that part. -/
theorem answers_part {step : σ → κ → σ} {answer : σ → κ → β} {step' : τ → κ → τ}
    {answer' : τ → κ → β} (part : σ → τ) (hstep : ∀ s m, part (step s m) = step' (part s) m)
    (hanswer : ∀ s m, answer s m = answer' (part s) m) (s : σ) (moves : List κ) :
    answers step answer s moves = answers step' answer' (part s) moves := by
  induction moves generalizing s with
  | nil => rfl
  | cons m moves ih =>
    rw [answers, answers, hanswer, ih, hstep]

/-- Runs that show the same through `view`. -/
theorem answers_eq_iff {step : σ → κ → σ} {answer : σ → κ → β} {step' : τ → κ → τ}
    {answer' : τ → κ → β} {P : σ → κ → Prop} (Rel : σ → τ → Prop) (view : β → γ)
    (hsame : ∀ s t m, Rel s t → P s m → answer' t m = answer s m ∧ Rel (step s m) (step' t m))
    (hdiffer : ∀ s t m, Rel s t → ¬P s m → view (answer' t m) ≠ view (answer s m))
    {s : σ} {t : τ} (h : Rel s t) (moves : List κ) :
    (answers step' answer' t moves).map view = (answers step answer s moves).map view ↔
      Along step P s moves := by
  induction moves generalizing s t with
  | nil => exact iff_of_true rfl trivial
  | cons m moves ih =>
    rw [answers, answers, List.map_cons, List.map_cons, List.cons.injEq]
    show _ ↔ P s m ∧ Along step P (step s m) moves
    by_cases hm : P s m
    · obtain ⟨heq, hnext⟩ := hsame s t m h hm
      rw [heq, ih hnext]
      exact ⟨fun hrest => ⟨hm, hrest.2⟩, fun hrest => ⟨rfl, hrest.2⟩⟩
    · exact iff_of_false (fun heq => hdiffer s t m h hm heq.1) fun hall => hm hall.1

end OpenMemory.Lib
