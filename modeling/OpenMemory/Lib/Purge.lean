import OpenMemory.Lib.Lockstep

/-!
# Runs without the moves of others

Of the moves of a run an observer sees some: these are its own, and it gets the answers to them. The
others must not make a difference: without them the run has to give the observer the same answers.

`Unwinds` reduces this to single moves. `Agree` relates states that look the same to the observer:
a move that it does not see leaves a state that looks as before, and a move that it sees is answered
alike in states that look alike, and leaves such states. `Ready` is what may be assumed of a state
and the moves that are still to come.
-/

namespace OpenMemory.Lib

variable {σ κ β : Type} {step : σ → κ → σ} {answer : σ → κ → β} {sees : κ → Bool}

/-- The answers to the moves that are seen. -/
def answersTo (step : σ → κ → σ) (answer : σ → κ → β) (sees : κ → Bool) : σ → List κ → List β
  | _, [] => []
  | s, m :: moves =>
    if sees m then answer s m :: answersTo step answer sees (step s m) moves
    else answersTo step answer sees (step s m) moves

/-- The unwinding conditions. -/
structure Unwinds (step : σ → κ → σ) (answer : σ → κ → β) (sees : κ → Bool)
    (Ready : σ → List κ → Prop) (Agree : σ → σ → Prop) : Prop where
  ready : ∀ {s m moves}, Ready s (m :: moves) → Ready (step s m) moves
  skip : ∀ {s m moves}, Ready s (m :: moves) → sees m = false → Ready s moves
  unseen : ∀ {s t m moves}, Ready s (m :: moves) → sees m = false → Agree s t →
    Agree (step s m) t
  seen : ∀ {s t m moves}, Ready s (m :: moves) → Ready t (m :: moves) → sees m = true →
    Agree s t → answer s m = answer t m ∧ Agree (step s m) (step t m)

variable {Ready : σ → List κ → Prop} {Agree : σ → σ → Prop}

theorem Unwinds.answersTo_eq (h : Unwinds step answer sees Ready Agree) {moves : List κ} {s t : σ}
    (hs : Ready s moves) (ht : Ready t moves) (hagree : Agree s t) :
    answersTo step answer sees s moves = answers step answer t (moves.filter sees) := by
  induction moves generalizing s t with
  | nil => rfl
  | cons m moves ih =>
    rw [answersTo]
    cases hm : sees m with
    | false =>
      rw [if_neg Bool.false_ne_true, List.filter_cons_of_neg (by simp [hm])]
      exact ih (h.ready hs) (h.skip ht hm) (h.unseen hs hm hagree)
    | true =>
      obtain ⟨hanswer, hnext⟩ := h.seen hs ht hm hagree
      rw [if_pos rfl, List.filter_cons_of_pos hm, answers, hanswer,
        ih (h.ready hs) (h.ready ht) hnext]

/-- What the observer sees of the state at the end, the moves that it sees have made. -/
theorem Unwinds.agree_foldl (h : Unwinds step answer sees Ready Agree) {moves : List κ} {s t : σ}
    (hs : Ready s moves) (ht : Ready t moves) (hagree : Agree s t) :
    Agree (moves.foldl step s) ((moves.filter sees).foldl step t) := by
  induction moves generalizing s t with
  | nil => exact hagree
  | cons m moves ih =>
    cases hm : sees m with
    | false =>
      rw [List.filter_cons_of_neg (by simp [hm])]
      exact ih (h.ready hs) (h.skip ht hm) (h.unseen hs hm hagree)
    | true =>
      rw [List.filter_cons_of_pos hm]
      exact ih (h.ready hs) (h.ready ht) (h.seen hs ht hm hagree).2

/-- The moves of others make no difference. -/
theorem Unwinds.purge (h : Unwinds step answer sees Ready Agree) {moves : List κ} {s : σ}
    (hs : Ready s moves) (hagree : Agree s s) :
    answersTo step answer sees s moves = answers step answer s (moves.filter sees) :=
  h.answersTo_eq hs hs hagree

end OpenMemory.Lib
