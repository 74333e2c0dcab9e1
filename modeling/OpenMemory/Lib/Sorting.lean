import Mathlib

/-!
# Stable sorting and restriction

Sorting a list by a total preorder and keeping the elements of a predicate commute:
what is left out never influences the order of the rest. When the order tells the elements apart,
the sorted list does not depend on the order of the list, and being among the first `n` is a
matter of counting; so is whether two orders have the same first `n`. In a list with increasing
keys, what comes after a page are the elements above the last one of it.
-/

namespace OpenMemory.Lib

variable {α : Type} {r : α → α → Prop} [DecidableRel r]

theorem filter_orderedInsert_of_pos [IsTrans α r] {p : α → Bool} {a : α} (ha : p a = true)
    {l : List α} (hl : l.Pairwise r) :
    (l.orderedInsert r a).filter p = (l.filter p).orderedInsert r a := by
  induction l with
  | nil => simp [ha]
  | cons b rest ih =>
    obtain ⟨hb, hrest⟩ := List.pairwise_cons.mp hl
    by_cases hab : r a b
    · -- everything kept of the rest stands above `b`, hence above `a`
      have hall : ∀ c ∈ (b :: rest).filter p, r a c := by
        intro c hc
        rcases List.mem_cons.mp (List.mem_of_mem_filter hc) with rfl | hc
        · exact hab
        · exact IsTrans.trans a b c hab (hb c hc)
      rw [List.orderedInsert_cons_of_le _ _ hab, List.filter_cons_of_pos ha]
      cases hf : (b :: rest).filter p with
      | nil => rfl
      | cons c cs =>
        rw [List.orderedInsert_cons_of_le _ _ (hall c (by rw [hf]; exact List.mem_cons_self))]
    · rw [List.orderedInsert_of_not_le _ _ hab]
      by_cases hpb : p b = true
      · rw [List.filter_cons_of_pos hpb, List.filter_cons_of_pos hpb,
          List.orderedInsert_of_not_le _ _ hab, ih hrest]
      · rw [List.filter_cons_of_neg hpb, List.filter_cons_of_neg hpb, ih hrest]

theorem filter_orderedInsert_of_neg {p : α → Bool} {a : α} (ha : p a = false) (l : List α) :
    (l.orderedInsert r a).filter p = l.filter p := by
  induction l with
  | nil => simp [ha]
  | cons b rest ih =>
    by_cases hab : r a b
    · rw [List.orderedInsert_cons_of_le _ _ hab, List.filter_cons_of_neg (by simp [ha])]
    · rw [List.orderedInsert_of_not_le _ _ hab, List.filter_cons, List.filter_cons, ih]

/-- Restricting a sorted list is sorting the restriction. -/
theorem filter_insertionSort [IsTrans α r] [Std.Total r] (p : α → Bool) (l : List α) :
    (l.insertionSort r).filter p = (l.filter p).insertionSort r := by
  induction l with
  | nil => rfl
  | cons a rest ih =>
    rw [List.insertionSort_cons]
    by_cases ha : p a = true
    · rw [filter_orderedInsert_of_pos ha (List.pairwise_insertionSort r rest), ih,
        List.filter_cons_of_pos ha, List.insertionSort_cons]
    · rw [filter_orderedInsert_of_neg (by simpa using ha), ih, List.filter_cons_of_neg ha]

/-- Sorting forgets the order of a list whose elements the order tells apart. -/
theorem insertionSort_eq_of_perm [IsTrans α r] [Std.Total r] {l l' : List α} (h : l.Perm l')
    (hanti : ∀ a ∈ l, ∀ b ∈ l, r a b → r b a → a = b) : l.insertionSort r = l'.insertionSort r := by
  refine List.Perm.eq_of_pairwise ?_ (List.pairwise_insertionSort r l)
    (List.pairwise_insertionSort r l') ?_
  · intro a b ha hb
    exact hanti a ((List.mem_insertionSort r).mp ha) b (h.mem_iff.mpr ((List.mem_insertionSort r).mp hb))
  · exact (List.perm_insertionSort r l).trans (h.trans (List.perm_insertionSort r l').symm)

/-- An element among the first `n` of a sorted list has at most `n` elements, itself included,
that are not after it. -/
theorem countP_le_of_mem_take {l : List α} {a : α} {n : Nat} (hl : l.Pairwise r) (hnodup : l.Nodup)
    (hanti : ∀ b ∈ l, r a b → r b a → a = b) (ha : a ∈ l.take n) :
    l.countP (fun b => decide (r b a)) ≤ n := by
  rw [← List.take_append_drop n l] at hl hnodup
  have hlater := (List.pairwise_append.mp hl).2.2
  have hapart := List.disjoint_of_nodup_append hnodup
  -- nothing after the first `n` comes before the element
  have hnone : (l.drop n).countP (fun b => decide (r b a)) = 0 := by
    rw [List.countP_eq_zero]
    intro b hb hba
    have heq := hanti b (List.mem_of_mem_drop hb) (hlater a ha b hb) (by simpa using hba)
    exact hapart ha (heq ▸ hb)
  calc l.countP (fun b => decide (r b a))
      = (l.take n).countP (fun b => decide (r b a)) + (l.drop n).countP (fun b => decide (r b a)) := by
        rw [← List.countP_append, List.take_append_drop]
    _ = (l.take n).countP (fun b => decide (r b a)) := by rw [hnone, Nat.add_zero]
    _ ≤ (l.take n).length := List.countP_le_length
    _ ≤ n := List.length_take_le n l

/-- The first `n` of a sorted list are the elements that have, with themselves, at most `n` that are
not after them: which they are does not depend on the order of the list. -/
theorem mem_take_insertionSort_iff [IsTrans α r] [Std.Total r] {l : List α} {a : α} {n : Nat}
    (hnodup : l.Nodup) (hanti : ∀ a ∈ l, ∀ b ∈ l, r a b → r b a → a = b) :
    a ∈ (l.insertionSort r).take n ↔ a ∈ l ∧ l.countP (fun b => decide (r b a)) ≤ n := by
  have hperm := List.perm_insertionSort r l
  have hsorted := List.pairwise_insertionSort r l
  constructor
  · intro h
    have hmem : a ∈ l := hperm.mem_iff.mp (List.mem_of_mem_take h)
    have hcount := countP_le_of_mem_take hsorted (hperm.nodup_iff.mpr hnodup)
      (fun b hb => hanti a hmem b (hperm.mem_iff.mp hb)) h
    rw [hperm.countP_eq] at hcount
    exact ⟨hmem, hcount⟩
  · rintro ⟨hmem, hcount⟩
    by_contra hlate
    rw [← hperm.countP_eq] at hcount
    rw [← List.take_append_drop n (l.insertionSort r)] at hsorted hcount
    -- otherwise the first `n` and the element itself are `n + 1` that are not after it
    have hdrop : a ∈ (l.insertionSort r).drop n := by
      have hsplit := hperm.mem_iff.mpr hmem
      rw [← List.take_append_drop n (l.insertionSort r)] at hsplit
      exact (List.mem_append.mp hsplit).resolve_left hlate
    have hlength : n < (l.insertionSort r).length := by
      by_contra hshort
      rw [List.drop_of_length_le (by omega)] at hdrop
      cases hdrop
    have hbefore : ((l.insertionSort r).take n).countP (fun b => decide (r b a)) = n := by
      rw [List.countP_eq_length.mpr, List.length_take, min_eq_left hlength.le]
      intro b hb
      simpa using (List.pairwise_append.mp hsorted).2.2 b hb a hdrop
    have hself : 0 < ((l.insertionSort r).drop n).countP (fun b => decide (r b a)) :=
      List.countP_pos_iff.mpr ⟨a, hdrop, by simpa using (Std.Total.total a a).elim id id⟩
    rw [List.countP_append] at hcount
    omega

/-- Two orders put the same `n` elements of a list first just when they agree on each pair whose
first element, in the one order, is among its first `n`. Elements are told apart by a key. -/
theorem map_take_eq_iff {β : Type} [DecidableEq β] {key : α → β} {s : α → α → Prop} {E F : List α}
    (hE : E.Pairwise r) (hF : F.Pairwise s) (hperm : E.Perm F) (hkeys : (E.map key).Nodup)
    (hr : ∀ a ∈ E, ∀ b ∈ E, r a b → r b a → key a = key b)
    (hs : ∀ a ∈ E, ∀ b ∈ E, s a b → s b a → key a = key b) (n : Nat) :
    (E.take n).map key = (F.take n).map key ↔
      ∀ a ∈ E, ∀ b ∈ E, key a ≠ key b → r a b → s b a →
        n ≤ E.countP fun c => decide (key c ≠ key a ∧ r c a) := by
  induction n generalizing E F with
  | zero => simp
  | succ n ih =>
    cases E with
    | nil => simp [hperm.nil_eq.symm]
    | cons a E =>
      cases F with
      | nil => exact absurd hperm.eq_nil (List.cons_ne_nil _ _)
      | cons b F =>
        obtain ⟨ha, hE'⟩ := List.pairwise_cons.mp hE
        obtain ⟨hb, hF'⟩ := List.pairwise_cons.mp hF
        obtain ⟨hnot, hkeys'⟩ := List.nodup_cons.mp hkeys
        have hother : ∀ x ∈ E, key x ≠ key a := fun x hx heq =>
          hnot (heq ▸ List.mem_map_of_mem hx)
        -- nothing stands before the head
        have hhead : ∀ x ∈ E, ¬r x a := fun x hx hxa =>
          hother x hx (hr x (List.mem_cons_of_mem _ hx) a List.mem_cons_self hxa (ha x hx))
        rw [List.take_succ_cons, List.take_succ_cons, List.map_cons, List.map_cons, List.cons.injEq]
        by_cases hab : a = b
        · subst hab
          have hperm' := (List.perm_cons a).mp hperm
          have hfirst : ∀ x ∈ E, ¬s x a := fun x hx hxa =>
            hother x hx (hs x (List.mem_cons_of_mem _ hx) a List.mem_cons_self hxa
              (hb x (hperm'.mem_iff.mp hx)))
          have hcount : ∀ x ∈ E, (a :: E).countP (fun c => decide (key c ≠ key x ∧ r c x))
              = E.countP (fun c => decide (key c ≠ key x ∧ r c x)) + 1 := by
            intro x hx
            refine List.countP_cons_of_pos ?_
            simpa using ⟨(hother x hx).symm, ha x hx⟩
          rw [and_iff_right rfl, ih hE' hF' hperm' hkeys'
            (fun x hx y hy => hr x (List.mem_cons_of_mem _ hx) y (List.mem_cons_of_mem _ hy))
            (fun x hx y hy => hs x (List.mem_cons_of_mem _ hx) y (List.mem_cons_of_mem _ hy))]
          constructor
          · intro h x hx y hy hne hxy hyx
            rcases List.mem_cons.mp hx with rfl | hxE
            · rcases List.mem_cons.mp hy with rfl | hyE
              · exact absurd rfl hne
              · exact absurd hyx (hfirst y hyE)
            · rcases List.mem_cons.mp hy with rfl | hyE
              · exact absurd hxy (hhead x hxE)
              · rw [hcount x hxE]
                exact Nat.succ_le_succ (h x hxE y hyE hne hxy hyx)
          · intro h x hx y hy hne hxy hyx
            have hle := h x (List.mem_cons_of_mem _ hx) y (List.mem_cons_of_mem _ hy) hne hxy hyx
            rw [hcount x hx] at hle
            exact Nat.le_of_succ_le_succ hle
        · -- the other order has another head, which comes later here
          have hbE : b ∈ E :=
            (List.mem_cons.mp (hperm.mem_iff.mpr List.mem_cons_self)).resolve_left (Ne.symm hab)
          have haF : a ∈ F :=
            (List.mem_cons.mp (hperm.mem_iff.mp List.mem_cons_self)).resolve_left hab
          have hzero : (a :: E).countP (fun c => decide (key c ≠ key a ∧ r c a)) = 0 := by
            refine List.countP_eq_zero.mpr fun c hc hbefore => ?_
            obtain ⟨hne, hca⟩ := of_decide_eq_true hbefore
            exact hhead c ((List.mem_cons.mp hc).resolve_left fun heq => hne (heq ▸ rfl)) hca
          refine ⟨fun h => absurd h.1.symm (hother b hbE), fun h => ?_⟩
          have hle := h a List.mem_cons_self b (List.mem_cons_of_mem _ hbE) (hother b hbE).symm
            (ha b hbE) (hb a haF)
          omega

/-- The pages of a list with increasing keys: the rest of it is what lies above a page. -/
theorem filter_above_page {β : Type} [LinearOrder β] {key : α → β} {l : List α} {n : Nat} {a : α}
    (hl : l.Pairwise fun b c => key b < key c) (ha : (l.take n).getLast? = some a) :
    l.filter (fun b => decide (key a < key b)) = l.drop n := by
  obtain ⟨init, hinit⟩ := List.getLast?_eq_some_iff.mp ha
  have hsplit : l = init ++ a :: l.drop n := by
    rw [← List.singleton_append, ← List.append_assoc, ← hinit, List.take_append_drop]
  rw [hsplit] at hl
  obtain ⟨-, hrest, hbefore⟩ := List.pairwise_append.mp hl
  have hlow : init.filter (fun b => decide (key a < key b)) = [] := by
    refine List.filter_eq_nil_iff.mpr fun b hb => ?_
    simpa using (hbefore b hb a List.mem_cons_self).le
  have hhigh : (l.drop n).filter (fun b => decide (key a < key b)) = l.drop n := by
    refine List.filter_eq_self.mpr fun b hb => ?_
    simpa using (List.pairwise_cons.mp hrest).1 b hb
  conv_lhs => rw [hsplit]
  rw [List.filter_append, hlow, List.filter_cons_of_neg (by simp), hhigh, List.nil_append]

end OpenMemory.Lib
