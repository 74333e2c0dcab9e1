import Mathlib
import OpenMemory.Lib.Txn

/-!
# Evaluation by folds

Items are dealt to folds. A fold has at most one choice, and its items are evaluated with that
choice; the items of a fold without one are left out. `HeldOut` is what is collected fold after
fold.

A result is always that of an item with the choice of the item's own fold (`HeldOut.evaluated`).
As many results as items are therefore one result for each (`HeldOut.complete`), even if some fold
has no choice: such a fold has no items.
-/

namespace OpenMemory.Lib

variable {α β κ τ ε : Type}

/-! ## Traversals that may fail -/

theorem filterAuxM_ok {p : α → Except ε Bool} {q : α → Bool} {xs : List α}
    (h : ∀ x ∈ xs, p x = .ok (q x)) (acc : List α) :
    xs.filterAuxM p acc = .ok ((xs.filter q).reverse ++ acc) := by
  induction xs generalizing acc with
  | nil => rfl
  | cons x xs ih =>
    obtain ⟨hx, hxs⟩ := List.forall_mem_cons.mp h
    rw [List.filterAuxM, hx, except_ok_bind, ih hxs, List.filter_cons]
    cases q x <;> simp

theorem filterM_ok {p : α → Except ε Bool} {q : α → Bool} {xs : List α}
    (h : ∀ x ∈ xs, p x = .ok (q x)) : xs.filterM p = .ok (xs.filter q) := by
  rw [List.filterM, filterAuxM_ok h, except_ok_bind, List.append_nil, List.reverse_reverse]
  rfl

theorem forall_of_filterAuxM_ok {p : α → Except ε Bool} {xs acc ys : List α}
    (h : xs.filterAuxM p acc = .ok ys) : ∀ x ∈ xs, ∃ b, p x = .ok b := by
  induction xs generalizing acc with
  | nil => exact fun _ hx => absurd hx List.not_mem_nil
  | cons x xs ih =>
    rw [List.filterAuxM] at h
    obtain ⟨b, hb, hrest⟩ := except_bind_ok.mp h
    exact List.forall_mem_cons.mpr ⟨⟨b, hb⟩, ih hrest⟩

/-- A filter that succeeds tested every element. -/
theorem forall_of_filterM_ok {p : α → Except ε Bool} {xs ys : List α}
    (h : xs.filterM p = .ok ys) : ∀ x ∈ xs, ∃ b, p x = .ok b := by
  rw [List.filterM] at h
  obtain ⟨_, hys, -⟩ := except_bind_ok.mp h
  exact forall_of_filterAuxM_ok hys

theorem mapM_congr {f g : α → Except ε β} {xs : List α} (h : ∀ x ∈ xs, f x = g x) :
    xs.mapM f = xs.mapM g := by
  induction xs with
  | nil => rfl
  | cons x xs ih =>
    obtain ⟨hx, hxs⟩ := List.forall_mem_cons.mp h
    rw [List.mapM_cons, List.mapM_cons, hx, ih hxs]

/-- Two traversals of a list of which each pair of results agrees. -/
theorem mapM_agree {γ δ : Type} {f : α → Except ε β} {g : α → Except ε γ} {r : β → δ} {s : γ → δ}
    {xs : List α} {ys : List β} {zs : List γ} (hf : xs.mapM f = .ok ys) (hg : xs.mapM g = .ok zs)
    (h : ∀ x ∈ xs, ∀ y z, f x = .ok y → g x = .ok z → r y = s z) : ys.map r = zs.map s := by
  induction xs generalizing ys zs with
  | nil =>
    obtain rfl := List.forall₂_nil_left_iff.mp (mapM_ok.mp hf)
    obtain rfl := List.forall₂_nil_left_iff.mp (mapM_ok.mp hg)
    rfl
  | cons x xs ih =>
    obtain ⟨hx, hxs⟩ := List.forall_mem_cons.mp h
    obtain ⟨y, ys, hy, hys, rfl⟩ := List.forall₂_cons_left_iff.mp (mapM_ok.mp hf)
    obtain ⟨z, zs, hz, hzs, rfl⟩ := List.forall₂_cons_left_iff.mp (mapM_ok.mp hg)
    rw [List.map_cons, List.map_cons, hx y z hy hz, ih (mapM_ok.mpr hys) (mapM_ok.mpr hzs) hxs]

theorem exists_of_forall₂_right {r : α → β → Prop} {xs : List α} {ys : List β}
    (h : List.Forall₂ r xs ys) {y : β} (hy : y ∈ ys) : ∃ x ∈ xs, r x y := by
  induction h with
  | nil => exact absurd hy List.not_mem_nil
  | cons hone _ ih =>
    rcases List.mem_cons.mp hy with rfl | hrest
    · exact ⟨_, List.mem_cons_self, hone⟩
    · exact (ih hrest).imp fun _ h => ⟨List.mem_cons_of_mem _ h.1, h.2⟩

/-- In a list with distinct keys, the first element with a key is the one that has it. -/
theorem find?_of_nodup {key : α → κ} [DecidableEq κ] {l : List α} (hl : (l.map key).Nodup) {a : α}
    (ha : a ∈ l) : l.find? (fun b => decide (key b = key a)) = some a := by
  induction l with
  | nil => exact absurd ha List.not_mem_nil
  | cons b l ih =>
    obtain ⟨hb, hrest⟩ := List.nodup_cons.mp hl
    rcases List.mem_cons.mp ha with rfl | ha
    · exact List.find?_cons_of_pos (decide_eq_true rfl)
    · have hne : key b ≠ key a := fun heq => hb (heq ▸ List.mem_map_of_mem ha)
      rw [List.find?_cons_of_neg (by simpa using hne), ih hrest ha]

/-! ## Folds -/

variable [DecidableEq κ] {fold : α → κ} {choice : κ → Option τ} {eval : τ → α → β → Prop}
  {items : List α} {folds : List κ} {results : List β}

/-- The items of a fold. -/
def inside (fold : α → κ) (f : κ) (items : List α) : List α :=
  items.filter fun a => decide (fold a = f)

/-- The items of the other folds. -/
def outside (fold : α → κ) (f : κ) (items : List α) : List α :=
  items.filter fun a => decide (fold a ≠ f)

/-- What some folds contribute, one after the other. -/
inductive HeldOut (fold : α → κ) (choice : κ → Option τ) (eval : τ → α → β → Prop)
    (items : List α) : List κ → List β → Prop
  | nil : HeldOut fold choice eval items [] []
  | skip {f : κ} {folds : List κ} {results : List β} (hnone : choice f = none)
      (hrest : HeldOut fold choice eval items folds results) :
      HeldOut fold choice eval items (f :: folds) results
  | add {f : κ} {folds : List κ} {t : τ} {part results : List β} (hsome : choice f = some t)
      (hpart : List.Forall₂ (eval t) (inside fold f items) part)
      (hrest : HeldOut fold choice eval items folds results) :
      HeldOut fold choice eval items (f :: folds) (part ++ results)

/-- A fold takes its items from the ones that are left. -/
theorem perm_inside_append {f : κ} (hf : f ∉ folds) (fold : α → κ) (items : List α) :
    (inside fold f items ++ items.filter fun a => decide (fold a ∈ folds)).Perm
      (items.filter fun a => decide (fold a ∈ f :: folds)) := by
  have hsplit := List.filter_append_perm (fun a => decide (fold a = f))
    (items.filter fun a => decide (fold a ∈ f :: folds))
  rw [List.filter_filter, List.filter_filter] at hsplit
  have hin : (items.filter fun a => decide (fold a = f) && decide (fold a ∈ f :: folds))
      = inside fold f items := by
    refine List.filter_congr fun a _ => ?_
    by_cases h : fold a = f <;> simp [h]
  have hout : (items.filter fun a => !decide (fold a = f) && decide (fold a ∈ f :: folds))
      = items.filter fun a => decide (fold a ∈ folds) := by
    refine List.filter_congr fun a _ => ?_
    by_cases h : fold a = f
    · simp [h, hf]
    · simp [h]
  rwa [hin, hout] at hsplit

/-- Every result is that of an item, with the choice of its own fold; no item has two. -/
theorem HeldOut.evaluated (h : HeldOut fold choice eval items folds results)
    (hfolds : folds.Nodup) :
    ∃ chosen, List.Subperm chosen (items.filter fun a => decide (fold a ∈ folds)) ∧
      List.Forall₂ (fun a b => ∃ t, choice (fold a) = some t ∧ eval t a b) chosen results := by
  induction h with
  | nil => exact ⟨[], List.nil_subperm, .nil⟩
  | @skip f folds results _ _ ih =>
    obtain ⟨chosen, hsub, hall⟩ := ih (List.nodup_cons.mp hfolds).2
    refine ⟨chosen, hsub.trans (List.Sublist.subperm ?_), hall⟩
    exact List.monotone_filter_right _ fun a ha =>
      decide_eq_true (List.mem_cons_of_mem _ (of_decide_eq_true ha))
  | @add f folds t part results hsome hpart _ ih =>
    obtain ⟨hf, hrest⟩ := List.nodup_cons.mp hfolds
    obtain ⟨chosen, hsub, hall⟩ := ih hrest
    refine ⟨inside fold f items ++ chosen, ?_, List.rel_append ?_ hall⟩
    · exact ((List.subperm_append_left _).mpr hsub).trans (perm_inside_append hf fold items).subperm
    · -- the items of the fold have its choice as that of their own fold
      have hin : ∀ a ∈ inside fold f items, fold a = f :=
        fun a ha => of_decide_eq_true (List.mem_filter.mp ha).2
      refine ((List.forall₂_and_left _ _).mpr ⟨hin, hpart⟩).imp fun a b hab => ?_
      exact ⟨t, by rw [hab.1, hsome], hab.2⟩

/-- As many results as items: each item is evaluated once. -/
theorem HeldOut.complete (h : HeldOut fold choice eval items folds results)
    (hfolds : folds.Nodup) (hdealt : ∀ a ∈ items, fold a ∈ folds)
    (hlength : results.length = items.length) :
    ∃ chosen, List.Perm chosen items ∧
      List.Forall₂ (fun a b => ∃ t, choice (fold a) = some t ∧ eval t a b) chosen results := by
  obtain ⟨chosen, hsub, hall⟩ := h.evaluated hfolds
  rw [List.filter_eq_self.mpr fun a ha => decide_eq_true (hdealt a ha)] at hsub
  refine ⟨chosen, hsub.perm_of_length_le ?_, hall⟩
  rw [hall.length_eq, hlength]

end OpenMemory.Lib
