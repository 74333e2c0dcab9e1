import Mathlib

/-!
# Where a text ends

A text with brackets and string literals, such as a JSON value, ends at the first comma or closing
bracket outside of all of these. A reader that counts brackets and knows whether it is in a literal
finds that place (`cut`), so two texts that are balanced and continue alike are equal
(`Balanced.append_inj`); so are two lists of them joined by commas (`intercalate_inj`).

- `walk` runs the reader over a text that does not end before its last character.
- `Balanced`: the reader gets over the text at any depth and stands where it stood. `Enclosed` is
  the same from inside a bracket, where commas do not count.
-/

namespace OpenMemory.Lib

/-- Where the reader stands: at some depth of brackets, perhaps in a literal, perhaps after a
backslash in it. -/
inductive BracketReader
  | plain (depth : Nat)
  | quoted (depth : Nat)
  | escaped (depth : Nat)

namespace BracketReader

/-- The reader after a character, `none` if the text ends before it. -/
def step : BracketReader → Char → Option BracketReader
  | .escaped d, _ => some (.quoted d)
  | .quoted d, c =>
    if c = '\\' then some (.escaped d) else if c = '"' then some (.plain d) else some (.quoted d)
  | .plain d, c =>
    if c = '"' then some (.quoted d)
    else if c = '[' ∨ c = '\x7b' then some (.plain (d + 1))
    else if c = ']' ∨ c = '\x7d' then (if d = 0 then none else some (.plain (d - 1)))
    else if c = ',' ∧ d = 0 then none
    else some (.plain d)

/-- The reader after a text. -/
def walk : BracketReader → List Char → Option BracketReader
  | r, [] => some r
  | r, c :: rest => (r.step c).bind fun r' => walk r' rest

/-- The part of a text before its end. -/
def cut : BracketReader → List Char → List Char
  | _, [] => []
  | r, c :: rest =>
    match r.step c with
    | none => []
    | some r' => c :: cut r' rest

theorem walk_append {r r' : BracketReader} {l rest : List Char} (h : r.walk l = some r') :
    r.walk (l ++ rest) = r'.walk rest := by
  induction l generalizing r with
  | nil =>
    cases h
    rfl
  | cons c l ih =>
    obtain ⟨r₁, hstep, hwalk⟩ := Option.bind_eq_some_iff.mp h
    show (r.step c).bind _ = _
    rw [hstep]
    exact ih hwalk

theorem cut_append {r r' : BracketReader} {l rest : List Char} (h : r.walk l = some r') :
    r.cut (l ++ rest) = l ++ r'.cut rest := by
  induction l generalizing r with
  | nil =>
    cases h
    rfl
  | cons c l ih =>
    obtain ⟨r₁, hstep, hwalk⟩ := Option.bind_eq_some_iff.mp h
    show (match r.step c with | none => [] | some r' => c :: cut r' (l ++ rest)) = _
    rw [hstep]
    exact congrArg (c :: ·) (ih hwalk)

end BracketReader

open BracketReader

/-- The reader gets over the text, at any depth. -/
def Balanced (l : List Char) : Prop := ∀ d, (plain d).walk l = some (.plain d)

/-- The reader gets over the text, inside a bracket. -/
def Enclosed (l : List Char) : Prop := ∀ d, (plain (d + 1)).walk l = some (.plain (d + 1))

/-- Nothing of a value is left: the text ends here. -/
def Ended (rest : List Char) : Prop := (plain 0).cut rest = []

theorem ended_nil : Ended [] := rfl

theorem ended_comma (rest : List Char) : Ended (',' :: rest) := rfl

theorem Balanced.enclosed {l : List Char} (h : Balanced l) : Enclosed l := fun d => h (d + 1)

theorem Balanced.nil : Balanced [] := fun _ => rfl

theorem Balanced.append {l l' : List Char} (h : Balanced l) (h' : Balanced l') :
    Balanced (l ++ l') := fun d => (walk_append (h d)).trans (h' d)

theorem Enclosed.append {l l' : List Char} (h : Enclosed l) (h' : Enclosed l') :
    Enclosed (l ++ l') := fun d => (walk_append (h d)).trans (h' d)

theorem enclosed_comma : Enclosed [','] := fun _ => rfl

/-- Characters that mean nothing to the reader. -/
theorem balanced_of_plain {l : List Char} (h : ∀ c ∈ l, c ∉ ['"', '[', '\x7b', ']', '\x7d', ',']) :
    Balanced l := by
  intro d
  induction l with
  | nil => rfl
  | cons c l ih =>
    obtain ⟨hc, hl⟩ := List.forall_mem_cons.mp h
    simp only [List.mem_cons, List.not_mem_nil, or_false, not_or] at hc
    have hstep : (plain d).step c = some (.plain d) := by
      unfold step
      simp [hc]
    show ((plain d).step c).bind _ = _
    rw [hstep]
    exact ih hl

/-- What stands between brackets. -/
theorem Enclosed.brackets {l : List Char} (h : Enclosed l) : Balanced ('[' :: (l ++ [']'])) := by
  intro d
  show (plain (d + 1)).walk (l ++ [']']) = _
  rw [walk_append (h d)]
  rfl

/-- What stands between braces. -/
theorem Enclosed.braces {l : List Char} (h : Enclosed l) :
    Balanced ('\x7b' :: (l ++ ['\x7d'])) := by
  intro d
  show (plain (d + 1)).walk (l ++ ['\x7d']) = _
  rw [walk_append (h d)]
  rfl

/-- A literal whose characters keep the reader in it. -/
theorem balanced_quoted {l : List Char} (h : ∀ d, (quoted d).walk l = some (.quoted d)) :
    Balanced ('"' :: (l ++ ['"'])) := by
  intro d
  show (quoted d).walk (l ++ ['"']) = _
  rw [walk_append (h d)]
  rfl

/-- Balanced texts that go on alike are equal. -/
theorem Balanced.append_inj {a b rest rest' : List Char} (ha : Balanced a) (hb : Balanced b)
    (hrest : Ended rest) (hrest' : Ended rest') (h : a ++ rest = b ++ rest') :
    a = b ∧ rest = rest' := by
  have hcut := congrArg (plain 0).cut h
  rw [cut_append (ha 0), cut_append (hb 0), hrest, hrest', List.append_nil, List.append_nil] at hcut
  subst hcut
  exact ⟨rfl, List.append_cancel_left h⟩

/-! ## Joined by commas -/

theorem toList_intercalate_cons (part next : String) (rest : List String) :
    (",".intercalate (part :: next :: rest)).toList
      = part.toList ++ ',' :: (",".intercalate (next :: rest)).toList := by
  rw [String.intercalate_cons_cons, String.toList_append, String.toList_append, List.append_assoc]
  rfl

theorem Enclosed.intercalate {parts : List String} (h : ∀ part ∈ parts, Balanced part.toList) :
    Enclosed (",".intercalate parts).toList := by
  induction parts with
  | nil => exact Balanced.nil.enclosed
  | cons part rest ih =>
    obtain ⟨hpart, hrest⟩ := List.forall_mem_cons.mp h
    cases rest with
    | nil =>
      rw [String.intercalate_singleton]
      exact hpart.enclosed
    | cons next rest =>
      rw [toList_intercalate_cons]
      exact hpart.enclosed.append (enclosed_comma.append (ih hrest))

/-- The first part, and what follows it. -/
theorem exists_toList_intercalate (part : String) (rest : List String) : ∃ tail, Ended tail ∧
    (",".intercalate (part :: rest)).toList = part.toList ++ tail ∧
    (rest = [] → tail = []) ∧
    (rest ≠ [] → tail = ',' :: (",".intercalate rest).toList) := by
  cases rest with
  | nil => exact ⟨[], ended_nil, by rw [String.intercalate_singleton, List.append_nil],
      fun _ => rfl, fun h => absurd rfl h⟩
  | cons next rest => exact ⟨_, ended_comma _, toList_intercalate_cons _ _ _, nofun, fun _ => rfl⟩

/-- Balanced parts can be told apart in the joined text. -/
theorem intercalate_inj {parts parts' : List String}
    (h : ∀ part ∈ parts, Balanced part.toList ∧ part ≠ "")
    (h' : ∀ part ∈ parts', Balanced part.toList ∧ part ≠ "")
    (heq : ",".intercalate parts = ",".intercalate parts') : parts = parts' := by
  replace heq := congrArg String.toList heq
  -- a joined text of some part is not empty
  have hempty : ∀ {part : String} {rest : List String}, part ≠ "" →
      (",".intercalate (part :: rest)).toList ≠ [] := by
    intro part rest hne hnil
    obtain ⟨tail, -, htext, -⟩ := exists_toList_intercalate part rest
    rw [htext, List.append_eq_nil_iff] at hnil
    exact hne (String.toList_eq_nil_iff.mp hnil.1)
  induction parts generalizing parts' with
  | nil =>
    cases parts' with
    | nil => rfl
    | cons part' rest' => exact absurd heq.symm (hempty (h' _ List.mem_cons_self).2)
  | cons part rest ih =>
    cases parts' with
    | nil => exact absurd heq (hempty (h _ List.mem_cons_self).2)
    | cons part' rest' =>
      obtain ⟨hpart, hrest⟩ := List.forall_mem_cons.mp h
      obtain ⟨hpart', hrest'⟩ := List.forall_mem_cons.mp h'
      obtain ⟨tail, hended, htext, hnil, hcons⟩ := exists_toList_intercalate part rest
      obtain ⟨tail', hended', htext', hnil', hcons'⟩ := exists_toList_intercalate part' rest'
      rw [htext, htext'] at heq
      obtain ⟨hhead, htail⟩ := hpart.1.append_inj hpart'.1 hended hended' heq
      obtain rfl := String.toList_injective hhead
      congr 1
      by_cases hr : rest = [] <;> by_cases hr' : rest' = []
      · rw [hr, hr']
      · rw [hnil hr, hcons' hr'] at htail
        cases htail
      · rw [hcons hr, hnil' hr'] at htail
        cases htail
      · rw [hcons hr, hcons' hr', List.cons.injEq] at htail
        exact ih hrest hrest' htail.2

end OpenMemory.Lib
