import OpenMemory.Lib.Dict
import OpenMemory.Lib.Txn

/-!
# Lists whose elements have names

`nameAll` asks each element for its name and stops at the first that has none, or whose name an
earlier one has. `nameAll_ok` says when it gets to the end, `nameAll_contained` when what it stops
with is always of a given kind: then the first thing wrong with the list is of that kind.
-/

namespace OpenMemory.Lib

variable {ε α κ ν : Type} [DecidableEq κ]

/-- The names of the elements; `seen` are those before them. -/
def nameAll (name : α → Except ε κ) (clash : ε) : List κ → List α → Except ε (List κ)
  | _, [] => .ok []
  | seen, a :: rest =>
    match name a with
    | .error e => .error e
    | .ok k =>
      if k ∈ seen then .error clash
      else (nameAll name clash (k :: seen) rest).map (k :: ·)

section

variable {name : α → Except ε κ} {clash : ε}

theorem nameAll_ok {seen names : List κ} {items : List α} :
    nameAll name clash seen items = .ok names ↔
      List.Forall₂ (fun a k => name a = .ok k) items names ∧ names.Nodup ∧
        ∀ k ∈ names, k ∉ seen := by
  induction items generalizing seen names with
  | nil =>
    rw [List.forall₂_nil_left_iff]
    constructor
    · intro h
      cases h
      exact ⟨rfl, List.nodup_nil, fun _ hk => absurd hk List.not_mem_nil⟩
    · rintro ⟨rfl, -, -⟩
      rfl
  | cons a rest ih =>
    rw [List.forall₂_cons_left_iff, nameAll]
    cases hname : name a with
    | error e => simp
    | ok k =>
      dsimp only
      by_cases hseen : k ∈ seen
      · rw [if_pos hseen]
        constructor
        · intro h
          cases h
        · rintro ⟨⟨k', names', hk', -, rfl⟩, -, hfresh⟩
          cases hk'
          exact absurd hseen (hfresh k List.mem_cons_self)
      · rw [if_neg hseen]
        constructor
        · intro h
          cases hrest : nameAll name clash (k :: seen) rest with
          | error e =>
            rw [hrest] at h
            cases h
          | ok names' =>
            rw [hrest] at h
            cases h
            obtain ⟨hnames, hnodup, hfresh⟩ := ih.mp hrest
            refine ⟨⟨k, names', rfl, hnames, rfl⟩, List.nodup_cons.mpr ⟨?_, hnodup⟩, ?_⟩
            · exact fun hk => hfresh k hk List.mem_cons_self
            · rintro k' hk'
              rcases List.mem_cons.mp hk' with rfl | hk'
              · exact hseen
              · exact fun hin => hfresh k' hk' (List.mem_cons_of_mem _ hin)
        · rintro ⟨⟨k', names', hk', hnames, rfl⟩, hnodup, hfresh⟩
          cases hk'
          obtain ⟨hk, hnodup⟩ := List.nodup_cons.mp hnodup
          have hrest : nameAll name clash (k :: seen) rest = .ok names' := by
            refine ih.mpr ⟨hnames, hnodup, fun k' hk' hin => ?_⟩
            rcases List.mem_cons.mp hin with rfl | hin
            · exact hk hk'
            · exact hfresh k' (List.mem_cons_of_mem _ hk') hin
          rw [hrest]
          rfl

/-- What the walk stops with is of the kind `caught` if, wherever it gets, an element without a name
fails in that way and no name comes twice. -/
theorem nameAll_contained {caught : ε → Prop} (hclash : ¬caught clash) {seen : List κ}
    {items : List α} :
    (∀ e, nameAll name clash seen items = .error e → caught e) ↔
      ∀ pre a post, items = pre ++ a :: post → (∀ b ∈ pre, ∃ k, name b = .ok k) →
        (∀ e, name a = .error e → caught e) ∧
          ∀ k, name a = .ok k → k ∉ seen ∧ ∀ b ∈ pre, name b ≠ .ok k := by
  induction items generalizing seen with
  | nil => simp [nameAll]
  | cons a rest ih =>
    rw [nameAll]
    cases hname : name a with
    | error e =>
      dsimp only
      constructor
      · intro h pre b post hsplit hnamed
        cases pre with
        | nil =>
          cases hsplit
          refine ⟨fun e' he' => ?_, fun k hk => ?_⟩
          · rw [hname] at he'
            cases he'
            exact h e rfl
          · rw [hname] at hk
            cases hk
        | cons c pre =>
          -- nothing past an element without a name is reached
          cases hsplit
          obtain ⟨k, hk⟩ := hnamed a List.mem_cons_self
          rw [hname] at hk
          cases hk
      · intro h e' he'
        cases he'
        exact (h [] a rest rfl (fun _ hb => absurd hb List.not_mem_nil)).1 e hname
    | ok k =>
      dsimp only
      by_cases hseen : k ∈ seen
      · rw [if_pos hseen]
        constructor
        · exact fun h => absurd (h clash rfl) hclash
        · intro h
          have hfirst := (h [] a rest rfl (fun _ hb => absurd hb List.not_mem_nil)).2 k hname
          exact absurd hseen hfirst.1
      · rw [if_neg hseen]
        have hmap : ∀ e, (nameAll name clash (k :: seen) rest).map (k :: ·) = .error e ↔
            nameAll name clash (k :: seen) rest = .error e := by
          intro e
          cases nameAll name clash (k :: seen) rest <;> simp [Except.map]
        simp only [hmap]
        rw [ih]
        constructor
        · intro h pre b post hsplit hnamed
          cases pre with
          | nil =>
            cases hsplit
            refine ⟨fun e he => ?_, fun k' hk' => ?_⟩
            · rw [hname] at he
              cases he
            · rw [hname] at hk'
              cases hk'
              exact ⟨hseen, fun _ hb => absurd hb List.not_mem_nil⟩
          | cons c pre =>
            cases hsplit
            obtain ⟨hfails, hnew⟩ := h pre b post rfl fun x hx =>
              hnamed x (List.mem_cons_of_mem _ hx)
            refine ⟨hfails, fun k' hk' => ?_⟩
            obtain ⟨hfresh, hother⟩ := hnew k' hk'
            refine ⟨fun hin => hfresh (List.mem_cons_of_mem _ hin), fun x hx => ?_⟩
            rcases List.mem_cons.mp hx with rfl | hx
            · rw [hname]
              intro heq
              cases heq
              exact hfresh List.mem_cons_self
            · exact hother x hx
        · intro h pre b post hsplit hnamed
          subst hsplit
          obtain ⟨hfails, hnew⟩ := h (a :: pre) b post rfl (by
            intro x hx
            rcases List.mem_cons.mp hx with rfl | hx
            · exact ⟨k, hname⟩
            · exact hnamed x hx)
          refine ⟨hfails, fun k' hk' => ?_⟩
          obtain ⟨hfresh, hother⟩ := hnew k' hk'
          refine ⟨fun hin => ?_, fun x hx => hother x (List.mem_cons_of_mem _ hx)⟩
          rcases List.mem_cons.mp hin with rfl | hin
          · exact hother a List.mem_cons_self hname
          · exact hfresh hin

end

theorem Dict.mem_keys_iff (d : Dict κ ν) (k : κ) : k ∈ d.keys ↔ ∃ v, d.get? k = some v := by
  simp only [keys, List.mem_map, Prod.exists, exists_and_right, exists_eq_right, mem_items_iff]

/-- Assigning to new keys, one after the other, appends. -/
theorem Dict.items_setAll_of_new {l : List (κ × ν)} {d : Dict κ ν} (hnodup : (l.map Prod.fst).Nodup)
    (hnew : ∀ k ∈ l.map Prod.fst, d.get? k = none) : (setAll l d).items = d.items ++ l := by
  induction l generalizing d with
  | nil => exact (List.append_nil _).symm
  | cons e rest ih =>
    rw [List.map_cons, List.nodup_cons] at hnodup
    have hitems := items_set_of_get?_eq_none (hnew e.1 List.mem_cons_self) e.2
    show (setAll rest (d.set e.1 e.2)).items = _
    rw [ih hnodup.2, hitems, List.append_assoc]
    · rfl
    · intro k hk
      have hne : k ≠ e.1 := fun heq => hnodup.1 (heq ▸ hk)
      rw [get?_set_of_ne d e.2 hne]
      exact hnew k (List.mem_cons_of_mem _ hk)

end OpenMemory.Lib
