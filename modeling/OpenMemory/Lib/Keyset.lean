import OpenMemory.Lib.Sorting

/-!
# Keyset pagination

Items with distinct keys are listed page by page, in the order of their keys, each page asked for
with the last key of the one before. `listing key items after` is all that is still to come after a
key: a page is the beginning of it (`take`), and what comes after the page is the rest (`drop`).
-/

namespace OpenMemory.Lib

variable {α K : Type} [LinearOrder K]

/-- The items above a key, in the order of their keys. -/
def listing (key : α → K) (items : List α) (after : Option K) : List α :=
  (items.filter fun a => after.all fun k => decide (k < key a)).insertionSort fun a b =>
    key a ≤ key b

section

variable {key : α → K} {items : List α} {after : Option K}

local instance isTransKey (key : α → K) : IsTrans α fun a b => key a ≤ key b := ⟨fun _ _ _ => le_trans⟩

local instance totalKey (key : α → K) : Std.Total fun a b : α => key a ≤ key b := ⟨fun _ _ => le_total _ _⟩

theorem mem_listing {a : α} :
    a ∈ listing key items after ↔ a ∈ items ∧ ∀ k, after = some k → k < key a := by
  unfold listing
  rw [List.mem_insertionSort, List.mem_filter]
  cases after <;> simp

/-- The keys of a listing increase. -/
theorem listing_increasing (hdistinct : (items.map key).Nodup) (after : Option K) :
    (listing key items after).Pairwise fun a b => key a < key b := by
  have hle : (listing key items after).Pairwise fun a b => key a ≤ key b :=
    List.pairwise_insertionSort _ _
  have hne : (listing key items after).Pairwise fun a b => key a ≠ key b := by
    refine List.Pairwise.perm ?_ (List.perm_insertionSort _ _).symm fun h => h.symm
    exact (List.pairwise_map.mp hdistinct).filter _
  exact (hle.and hne).imp fun h => lt_of_le_of_ne h.1 h.2

/-- After a page, the listing goes on with the rest. -/
theorem listing_after (hdistinct : (items.map key).Nodup) {n : Nat} {a : α}
    (hlast : ((listing key items after).take n).getLast? = some a) :
    listing key items (some (key a)) = (listing key items after).drop n := by
  have hmem : a ∈ listing key items after := List.mem_of_mem_take (List.mem_of_getLast? hlast)
  have habove := (mem_listing.mp hmem).2
  rw [← filter_above_page (listing_increasing hdistinct after) hlast]
  unfold listing
  rw [filter_insertionSort, List.filter_filter]
  refine congrArg (List.insertionSort _) (List.filter_congr fun b _ => ?_)
  cases after with
  | none => simp
  | some k =>
    have hk : k < key a := habove k rfl
    rw [Bool.eq_iff_iff]
    simp only [Option.all_some, Bool.and_eq_true, decide_eq_true_eq]
    exact ⟨fun h => ⟨h, hk.trans h⟩, fun h => h.1⟩

/-- Listings one after the other, each from the last key of the one before it, repeat nothing. -/
theorem listing_chained {items' : List α} (hdistinct : (items.map key).Nodup)
    (hdistinct' : (items'.map key).Nodup) {last : α}
    (hlast : (listing key items after).getLast? = some last) :
    (listing key items after ++ listing key items' (some (key last))).Pairwise
      fun a b => key a < key b := by
  refine List.pairwise_append.mpr
    ⟨listing_increasing hdistinct after, listing_increasing hdistinct' _, fun a ha b hb => ?_⟩
  have hb' : key last < key b := (mem_listing.mp hb).2 _ rfl
  refine lt_of_le_of_lt ?_ hb'
  obtain ⟨init, hinit⟩ := List.getLast?_eq_some_iff.mp hlast
  have hincreasing := listing_increasing hdistinct after
  rw [hinit] at ha hincreasing
  rcases List.mem_append.mp ha with ha | ha
  · exact ((List.pairwise_append.mp hincreasing).2.2 a ha last (by simp)).le
  · rw [List.mem_singleton.mp ha]

/-! ## Two listings side by side -/

variable {β : Type} {key' : β → K} {items' : List β} {P : α → β → Prop}

theorem orderedInsert_forall₂ (hkey : ∀ a b, P a b → key a = key' b) {a : α} {b : β} (hab : P a b)
    {l : List α} {l' : List β} (h : List.Forall₂ P l l') :
    List.Forall₂ P (l.orderedInsert (fun x y => key x ≤ key y) a)
      (l'.orderedInsert (fun x y => key' x ≤ key' y) b) := by
  induction h with
  | nil => exact .cons hab .nil
  | @cons c d rest rest' hcd hrest ih =>
    simp only [List.orderedInsert_cons, hkey a b hab, hkey c d hcd]
    split
    · exact .cons hab (.cons hcd hrest)
    · exact .cons hcd ih

/-- Listing items and listing what they stand for is the same if their keys are. -/
theorem listing_forall₂ (hkey : ∀ a b, P a b → key a = key' b) (h : List.Forall₂ P items items')
    (after : Option K) :
    List.Forall₂ P (listing key items after) (listing key' items' after) := by
  induction h with
  | nil => exact .nil
  | @cons a b rest rest' hab _ ih =>
    unfold listing at ih ⊢
    simp only [List.filter_cons, hkey a b hab]
    split
    · exact orderedInsert_forall₂ hkey hab ih
    · exact ih

end

end OpenMemory.Lib
