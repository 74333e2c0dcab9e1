import OpenMemory.Application.Fingerprints
import OpenMemory.Lib.Brackets

/-!
# What a canonical text determines

The canonical JSON of a command is hashed, never read. Its text nevertheless determines every
member: literals can be unescaped, values end where their brackets do, and the members of an object
are sorted by keys that the command does not choose.

- `NumberTexts`: what the text of a number has to be.
- `balanced_dumps`: the text of a value is balanced.
- `dumpsMembers_inj`: equal texts of two objects with the same keys have the same members.
- `dumps_ofOption_inj`, `dumps_strs_inj`: so for nullable values and lists of texts.
-/

namespace OpenMemory

open Lib

variable {R : Type} [Python R]

/-! ## Literals -/

/-- The character that an escaped text begins with. -/
def unescape : List Char → Char
  | '\\' :: 'u' :: _ :: _ :: high :: low :: _ =>
    Char.ofNat ((List.range 16).findIdx (fun n => hexDigit n = high) * 16 +
      (List.range 16).findIdx fun n => hexDigit n = low)
  | '\\' :: 'n' :: _ => '\n'
  | '\\' :: 'r' :: _ => '\r'
  | '\\' :: 't' :: _ => '\t'
  | '\\' :: 'f' :: _ => Char.ofNat 12
  | '\\' :: 'b' :: _ => Char.ofNat 8
  | '\\' :: c :: _ => c
  | c :: _ => c
  | [] => ' '

/-- The escape of a character gives the character back. -/
theorem unescape_escapeChar (c : Char) (rest : List Char) :
    unescape (Json.escapeChar c ++ rest) = c := by
  unfold Json.escapeChar
  split
  · rename_i h
    exact h.symm
  split
  · rename_i h
    exact h.symm
  split
  · rename_i h
    exact h.symm
  split
  · rename_i h
    exact h.symm
  split
  · rename_i h
    exact h.symm
  split
  · rename_i h
    exact (congrArg Char.ofNat h).symm.trans (Char.ofNat_toNat c)
  split
  · rename_i h
    exact (congrArg Char.ofNat h).symm.trans (Char.ofNat_toNat c)
  split
  · rename_i h
    have hdigits : ∀ n < 32, (List.range 16).findIdx (fun m => hexDigit m = hexDigit (n / 16)) * 16 +
        (List.range 16).findIdx (fun m => hexDigit m = hexDigit (n % 16)) = n := by decide
    show Char.ofNat _ = c
    rw [hdigits _ h, Char.ofNat_toNat]
  · rename_i hslash _ _ _ _ _ _
    show unescape (c :: rest) = c
    unfold unescape
    split <;> simp_all

theorem escapeChar_ne_nil (c : Char) : Json.escapeChar c ≠ [] := by
  unfold Json.escapeChar
  repeat' split
  all_goals exact List.cons_ne_nil _ _

/-- Escaped texts are equal only if the texts are. -/
theorem flatMap_escapeChar_injective :
    Function.Injective fun l : List Char => l.flatMap Json.escapeChar := by
  intro l l' h
  induction l generalizing l' with
  | nil =>
    cases l' with
    | nil => rfl
    | cons c rest =>
      have hnil : Json.escapeChar c ++ rest.flatMap Json.escapeChar = [] := h.symm
      exact absurd (List.append_eq_nil_iff.mp hnil).1 (escapeChar_ne_nil c)
  | cons c rest ih =>
    cases l' with
    | nil =>
      have hnil : Json.escapeChar c ++ rest.flatMap Json.escapeChar = [] := h
      exact absurd (List.append_eq_nil_iff.mp hnil).1 (escapeChar_ne_nil c)
    | cons c' rest' =>
      replace h : Json.escapeChar c ++ rest.flatMap Json.escapeChar
        = Json.escapeChar c' ++ rest'.flatMap Json.escapeChar := h
      have hhead := congrArg unescape h
      rw [unescape_escapeChar, unescape_escapeChar] at hhead
      subst hhead
      rw [ih (List.append_cancel_left h)]

theorem toList_quote (s : String) :
    (Json.quote s).toList = '"' :: (s.toList.flatMap Json.escapeChar ++ ['"']) := by
  unfold Json.quote
  rw [String.toList_ofList]
  rfl

/-- So are string literals. -/
theorem quote_injective : Function.Injective Json.quote := by
  intro s s' h
  replace h := congrArg String.toList h
  rw [toList_quote, toList_quote, List.cons.injEq] at h
  exact String.toList_injective (flatMap_escapeChar_injective (List.append_cancel_right h.2))

open BracketReader in
/-- Within a literal, an escaped character stays within it. -/
theorem walk_escapeChar (d : Nat) (c : Char) :
    (quoted d).walk (Json.escapeChar c) = some (.quoted d) := by
  unfold Json.escapeChar
  split
  · rfl
  split
  · rfl
  split
  · rfl
  split
  · rfl
  split
  · rfl
  split
  · rfl
  split
  · rfl
  split
  · rename_i h
    have hdigits : ∀ n < 16, hexDigit n ≠ '\\' ∧ hexDigit n ≠ '"' := by decide
    have hhigh := hdigits (c.toNat / 16) (by omega)
    have hlow := hdigits (c.toNat % 16) (by omega)
    simp [walk, step, hhigh, hlow]
  · rename_i hquote hslash _ _ _ _ _ _
    simp [walk, step, hquote, hslash]

/-- A literal is closed where it ends. -/
theorem balanced_quote (s : String) : Balanced (Json.quote s).toList := by
  rw [toList_quote]
  refine balanced_quoted fun d => ?_
  induction s.toList with
  | nil => rfl
  | cons c rest ih =>
    rw [List.flatMap_cons, BracketReader.walk_append (walk_escapeChar d c)]
    exact ih

theorem quote_ne_empty (s : String) : Json.quote s ≠ "" := by
  intro h
  have hlist := congrArg String.toList h
  rw [toList_quote] at hlist
  cases hlist

/-! ## Values -/

/-- What `json.dumps` prints for a number: it is not `null`, has letters, digits, signs and a point,
and reads back as an equal number. -/
structure NumberTexts (R : Type) [Python R] : Prop where
  not_null : ∀ x : R, Python.numRepr x ≠ "null"
  not_empty : ∀ x : R, Python.numRepr x ≠ ""
  spelled : ∀ (x : R), ∀ c ∈ (Python.numRepr x).toList,
    c.isAlphanum = true ∨ c ∈ ['.', '-', '+']
  faithful : ∀ x y : R, Python.numRepr x = Python.numRepr y → Python.numEq x y = true

/-- A text of letters, digits, dots and signs opens nothing. -/
theorem balanced_of_spelled {l : List Char}
    (h : ∀ c ∈ l, c.isAlphanum = true ∨ c ∈ ['.', '-', '+']) : Balanced l := by
  refine balanced_of_plain fun c hc hmem => ?_
  have hnot : c.isAlphanum = false ∧ c ∉ ['.', '-', '+'] := by
    simp only [List.mem_cons, List.not_mem_nil, or_false] at hmem
    rcases hmem with rfl | rfl | rfl | rfl | rfl | rfl <;> exact ⟨rfl, by decide⟩
  rcases h c hc with hletter | hsign
  · rw [hnot.1] at hletter
    cases hletter
  · exact hnot.2 hsign

/-- A word of letters. -/
theorem balanced_word {l : List Char} (h : l.all Char.isAlphanum = true) : Balanced l :=
  balanced_of_spelled fun c hc => .inl (List.all_eq_true.mp h c hc)

theorem balanced_toString (n : Int) : Balanced (toString n).toList := by
  have hnat : ∀ m : Nat, ∀ c ∈ m.repr.toList, c.isAlphanum = true := by
    intro m c hmem
    rw [Nat.toList_repr] at hmem
    have hdigit := Nat.isDigit_of_mem_toDigits (by decide) (by decide) hmem
    simp [Char.isAlphanum, hdigit]
  refine balanced_of_spelled fun c hc => ?_
  cases n with
  | ofNat m => exact .inl (hnat m c hc)
  | negSucc m =>
    replace hc : c ∈ ("-" ++ (m + 1).repr).toList := hc
    rw [String.toList_append, List.mem_append] at hc
    rcases hc with hc | hc
    · exact .inr (List.mem_singleton.mp hc ▸ by decide)
    · exact .inl (hnat _ c hc)

/-- The members of an object are joined in key order. -/
theorem joinMembers_eq (members : List (String × String)) : Json.joinMembers members
    = ",".intercalate ((members.insertionSort fun a b => a.1 ≤ b.1).map fun e =>
      Json.quote e.1 ++ ":" ++ e.2) := rfl

/-- A member of a balanced text is balanced. -/
theorem balanced_member {key text : String} (h : Balanced text.toList) :
    Balanced (Json.quote key ++ ":" ++ text).toList ∧ Json.quote key ++ ":" ++ text ≠ "" := by
  constructor
  · rw [String.toList_append, String.toList_append]
    exact ((balanced_quote key).append fun _ => rfl).append h
  · intro hempty
    have hlist := congrArg String.toList hempty
    rw [String.toList_append, String.toList_append, toList_quote] at hlist
    cases hlist

mutual

/-- The text of a value ends where its brackets do. -/
theorem balanced_dumps (hnum : NumberTexts R) (v : Json R) : Balanced v.dumps.toList := by
  cases v with
  | null => exact balanced_word (l := "null".toList) (by decide)
  | bool b =>
    cases b
    · exact balanced_word (l := "false".toList) (by decide)
    · exact balanced_word (l := "true".toList) (by decide)
  | int n => exact balanced_toString n
  | num x => exact balanced_of_spelled (hnum.spelled x)
  | str s => exact balanced_quote s
  | arr items =>
    show Balanced ("[" ++ ",".intercalate (Json.dumpsAll items) ++ "]").toList
    rw [String.toList_append, String.toList_append]
    exact (Enclosed.intercalate (balanced_dumpsAll hnum items)).brackets
  | obj members =>
    rw [toList_dumps_obj, joinMembers_eq]
    refine (Enclosed.intercalate fun part hpart => ?_).braces
    obtain ⟨e, he, rfl⟩ := List.mem_map.mp hpart
    exact (balanced_member (balanced_dumpsMembers hnum members e
      ((List.mem_insertionSort _).mp he))).1

/-- The text of every item is balanced. -/
theorem balanced_dumpsAll (hnum : NumberTexts R) (items : List (Json R)) :
    ∀ text ∈ Json.dumpsAll items, Balanced text.toList := by
  cases items with
  | nil => exact fun _ h => absurd h List.not_mem_nil
  | cons item items =>
    exact List.forall_mem_cons.mpr ⟨balanced_dumps hnum item, balanced_dumpsAll hnum items⟩

/-- So is the text of every member. -/
theorem balanced_dumpsMembers (hnum : NumberTexts R) (members : List (String × Json R)) :
    ∀ e ∈ Json.dumpsMembers members, Balanced e.2.toList := by
  cases members with
  | nil => exact fun _ h => absurd h List.not_mem_nil
  | cons member members =>
    obtain ⟨key, value⟩ := member
    exact List.forall_mem_cons.mpr ⟨balanced_dumps hnum value, balanced_dumpsMembers hnum members⟩

end

/-! ## Members -/

omit [Python R] in
/-- Lists with the same distinct keys in the same order are equal if they are permutations. -/
theorem eq_of_perm_of_keys {l l' : List (String × String)} (hperm : l.Perm l')
    (hkeys : l.map Prod.fst = l'.map Prod.fst) (hnodup : (l.map Prod.fst).Nodup) : l = l' := by
  have hlength : l.length = l'.length := by simpa using congrArg List.length hkeys
  refine List.ext_getElem hlength fun i hi hi' => ?_
  have hkey : l[i].1 = l'[i].1 := by
    have hget := List.getElem_of_eq hkeys (by simpa using hi)
    simpa using hget
  exact List.inj_on_of_nodup_map hnodup (List.getElem_mem hi)
    (hperm.mem_iff.mpr (List.getElem_mem hi')) hkey

omit [Python R] in
/-- Printed members of known keys. -/
theorem eq_of_keys_of_parts {l l' : List (String × String)}
    (hkeys : l.map Prod.fst = l'.map Prod.fst)
    (hparts : l.map (fun e => Json.quote e.1 ++ ":" ++ e.2)
      = l'.map fun e => Json.quote e.1 ++ ":" ++ e.2) : l = l' := by
  induction l generalizing l' with
  | nil => exact (List.map_eq_nil_iff.mp hkeys.symm).symm
  | cons e rest ih =>
    cases l' with
    | nil => cases hkeys
    | cons e' rest' =>
      obtain ⟨hkey, hkeys⟩ := List.cons.inj hkeys
      obtain ⟨hpart, hparts⟩ := List.cons.inj hparts
      replace hpart : Json.quote e.1 ++ ":" ++ e.2 = Json.quote e'.1 ++ ":" ++ e'.2 := hpart
      rw [hkey] at hpart
      have htext := String.append_right_inj _ |>.mp hpart
      rw [Prod.ext hkey htext, ih hkeys hparts]

theorem map_fst_dumpsMembers (members : List (String × Json R)) :
    (Json.dumpsMembers members).map Prod.fst = members.map Prod.fst := by
  induction members with
  | nil => rfl
  | cons member members ih => exact congrArg (member.1 :: ·) ih

/-- The keys are sorted, whatever the texts. -/
theorem map_fst_sorted (members : List (String × String)) :
    (members.insertionSort fun a b => a.1 ≤ b.1).map Prod.fst
      = (members.map Prod.fst).insertionSort fun a b => a ≤ b :=
  List.map_insertionSort _ _ _ _ fun _ _ _ _ => Iff.rfl

/-- The text of an object determines the text of every member. -/
theorem dumpsMembers_inj (hnum : NumberTexts R) {members members' : List (String × Json R)}
    (h : (Json.obj members).dumps = (Json.obj members').dumps)
    (hkeys : members.map Prod.fst = members'.map Prod.fst) (hnodup : (members.map Prod.fst).Nodup) :
    Json.dumpsMembers members = Json.dumpsMembers members' := by
  replace h := congrArg String.toList h
  rw [toList_dumps_obj, toList_dumps_obj, List.cons.injEq] at h
  have hjoined := String.toList_injective (List.append_cancel_right h.2)
  rw [joinMembers_eq, joinMembers_eq] at hjoined
  have hparts : ∀ (ms : List (String × Json R)),
      ∀ part ∈ ((Json.dumpsMembers ms).insertionSort fun a b => a.1 ≤ b.1).map fun e =>
        Json.quote e.1 ++ ":" ++ e.2, Balanced part.toList ∧ part ≠ "" := by
    intro ms part hpart
    obtain ⟨e, he, rfl⟩ := List.mem_map.mp hpart
    exact balanced_member (balanced_dumpsMembers hnum ms e ((List.mem_insertionSort _).mp he))
  have hsorted := intercalate_inj (hparts members) (hparts members') hjoined
  have hfst : (Json.dumpsMembers members).map Prod.fst
      = (Json.dumpsMembers members').map Prod.fst := by
    rw [map_fst_dumpsMembers, map_fst_dumpsMembers, hkeys]
  refine eq_of_perm_of_keys ?_ hfst (by rwa [map_fst_dumpsMembers])
  have heq : ((Json.dumpsMembers members).insertionSort fun a b => a.1 ≤ b.1)
      = (Json.dumpsMembers members').insertionSort fun a b => a.1 ≤ b.1 := by
    refine eq_of_keys_of_parts ?_ hsorted
    rw [map_fst_sorted, map_fst_sorted, hfst]
  have hperm := List.perm_insertionSort (fun a b : String × String => a.1 ≤ b.1)
    (Json.dumpsMembers members)
  rw [heq] at hperm
  exact hperm.symm.trans (List.perm_insertionSort _ _)

/-- Objects with the same keys have one text exactly if their members do. -/
theorem dumps_obj_iff (hnum : NumberTexts R) {members members' : List (String × Json R)}
    (hkeys : members.map Prod.fst = members'.map Prod.fst) (hnodup : (members.map Prod.fst).Nodup) :
    (Json.obj members).dumps = (Json.obj members').dumps ↔
      Json.dumpsMembers members = Json.dumpsMembers members' := by
  refine ⟨fun h => dumpsMembers_inj hnum h hkeys hnodup, fun h => ?_⟩
  simp only [Json.dumps, h]

/-! ## Nullable values and lists -/

/-- A value that may be missing is determined by its text, if no value prints as null. -/
theorem dumps_ofOption_inj {α : Type} {f : α → Json R} (hnull : ∀ a, (f a).dumps ≠ "null")
    {a a' : Option α} (h : (Json.ofOption f a).dumps = (Json.ofOption f a').dumps) :
    a.map (fun a => (f a).dumps) = a'.map fun a => (f a).dumps := by
  cases a with
  | none =>
    cases a' with
    | none => rfl
    | some a' => exact absurd h.symm (hnull a')
  | some a =>
    cases a' with
    | none => exact absurd h (hnull a)
    | some a' => exact congrArg some h

theorem dumps_ofOption_congr {α : Type} {f : α → Json R} {a a' : Option α}
    (h : a.map (fun a => (f a).dumps) = a'.map fun a => (f a).dumps) :
    (Json.ofOption f a).dumps = (Json.ofOption f a').dumps := by
  cases a with
  | none =>
    cases a' with
    | none => rfl
    | some a' => cases h
  | some a =>
    cases a' with
    | none => cases h
    | some a' => exact Option.some.inj h

theorem dumps_str_ne_null (s : String) : (Json.str (R := R) s).dumps ≠ "null" := by
  intro h
  have hlist := congrArg String.toList h
  replace hlist : (Json.quote s).toList = "null".toList := hlist
  rw [toList_quote] at hlist
  cases hlist

/-- A text is determined by the literal that it prints as. -/
theorem dumps_str_inj {s s' : String} (h : (Json.str (R := R) s).dumps = (Json.str (R := R) s').dumps) :
    s = s' := quote_injective h

/-- A nullable text, however it is spelled. -/
theorem dumps_text_inj {α : Type} {spell : α → String} (hspell : Function.Injective spell)
    {a a' : Option α} (h : (Json.ofOption (R := R) (fun a => .str (spell a)) a).dumps
      = (Json.ofOption (R := R) (fun a => .str (spell a)) a').dumps) : a = a' := by
  have hmap := dumps_ofOption_inj (fun a => dumps_str_ne_null (spell a)) h
  exact Option.map_injective (fun a a' h => hspell (dumps_str_inj h)) hmap

/-- So is a list of texts. -/
theorem dumps_strs_inj {l l' : List String}
    (h : (Json.arr (R := R) (l.map .str)).dumps = (Json.arr (R := R) (l'.map .str)).dumps) :
    l = l' := by
  have hall : ∀ l : List String, Json.dumpsAll (R := R) (l.map .str) = l.map Json.quote := by
    intro l
    induction l with
    | nil => rfl
    | cons s l ih => exact congrArg (Json.quote s :: ·) ih
  replace h := congrArg String.toList h
  simp only [Json.dumps, String.toList_append, hall] at h
  have hjoined := String.toList_injective (List.append_cancel_left (List.append_cancel_right h))
  have hparts : ∀ l : List String, ∀ part ∈ l.map Json.quote,
      Balanced part.toList ∧ part ≠ "" := by
    intro l part hpart
    obtain ⟨s, -, rfl⟩ := List.mem_map.mp hpart
    exact ⟨balanced_quote s, quote_ne_empty s⟩
  exact List.map_injective_iff.mpr quote_injective (intercalate_inj (hparts l) (hparts l') hjoined)

theorem dumps_int_inj {n n' : Int} (h : (Json.int (R := R) n).dumps = (Json.int (R := R) n').dumps) :
    n = n' := Int.repr_injective h

end OpenMemory
