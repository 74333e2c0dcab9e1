import OpenMemory.Lib.Json

/-!
# Texts with halves of surrogate pairs

An interpreter's text is a sequence of code points, and a surrogate is one of them: a string
literal that escapes half of a pair, or bytes that are decoded with `surrogatepass`, put it there.
`CodePoint` has the characters and the halves, `CodePoints` is a text of them, and `Text` a JSON
value over any type of texts and of numbers that are no integers.

A text of characters is a text of code points (`CodePoints.ofString`), from which it comes back
(`toString?_ofString`); a value of `Lib.Json` is a value over code points (`ScannedJson.ofValue`),
whose members are those of the value (`member_ofMembers`).
-/

namespace OpenMemory.Lib

inductive CodePoint
  | char (c : Char)
  /-- The surrogate `55296 + n`. -/
  | half (n : Fin 2048)
  deriving DecidableEq

/-- The code point of a number. -/
def CodePoint.ofNat (n : Nat) : CodePoint :=
  if h : 55296 ≤ n ∧ n < 57344 then .half ⟨n - 55296, by omega⟩ else .char (Char.ofNat n)

/-- The character, if it is one. -/
def CodePoint.toChar? : CodePoint → Option Char
  | .char c => some c
  | .half _ => none

abbrev CodePoints : Type := List CodePoint

namespace CodePoints

def ofString (s : String) : CodePoints := s.toList.map .char

/-- The text of characters, `none` where a half stands alone. -/
def toString? (s : CodePoints) : Option String := (s.mapM CodePoint.toChar?).map String.ofList

theorem map_char_injective : Function.Injective (List.map CodePoint.char) :=
  List.map_injective_iff.mpr fun _ _ => CodePoint.char.inj

theorem ofString_injective : Function.Injective ofString := fun _ _ h =>
  String.toList_injective (map_char_injective h)

theorem ofString_inj {s s' : String} : ofString s = ofString s' ↔ s = s' :=
  ofString_injective.eq_iff

/-- What is a text of characters reads as the text that it is. -/
@[simp]
theorem toString?_ofString (s : String) : toString? (ofString s) = some s := by
  have hchars : ∀ l : List Char, (l.map CodePoint.char).mapM CodePoint.toChar? = some l := by
    intro l
    induction l with
    | nil => rfl
    | cons c l ih =>
      rw [List.map_cons, List.mapM_cons, ih]
      rfl
  unfold toString? ofString
  rw [hchars, Option.map_some, String.ofList_toList]

/-- A text of characters that starts with a character is one after that character. -/
theorem map_char_eq_cons {l : List Char} {c : Char} {rest : CodePoints} :
    l.map CodePoint.char = .char c :: rest ↔
      ∃ l', l = c :: l' ∧ l'.map CodePoint.char = rest := by
  rw [List.map_eq_cons_iff]
  constructor
  · rintro ⟨c', l', rfl, hc, hrest⟩
    obtain rfl := CodePoint.char.inj hc
    exact ⟨l', rfl, hrest⟩
  · rintro ⟨l', rfl, hrest⟩
    exact ⟨c, l', rfl, rfl, hrest⟩

end CodePoints

/-- A JSON value, with texts `T` and numbers that are no integers `F`. -/
inductive JsonTree (T F : Type)
  | null
  | bool (b : Bool)
  | int (n : Int)
  | float (x : F)
  | str (s : T)
  | arr (items : List (JsonTree T F))
  | obj (members : List (T × JsonTree T F))

/-- `payload[key]` on an object: the last member of that name. -/
def JsonTree.member {T F : Type} [DecidableEq T] (key : T) :
    List (T × JsonTree T F) → Option (JsonTree T F)
  | [] => none
  | (k, value) :: members => (member key members).or (if k = key then some value else none)

/-- What a text of code points is read as; a number that is no integer keeps its literal. -/
abbrev ScannedJson : Type := JsonTree CodePoints String

namespace ScannedJson

mutual

/-- A value whose texts are texts of characters. -/
def ofValue : JsonValue → ScannedJson
  | .null => .null
  | .bool b => .bool b
  | .int n => .int n
  | .float literal => .float literal
  | .str s => .str (.ofString s)
  | .arr items => .arr (ofItems items)
  | .obj members => .obj (ofMembers members)

def ofItems : List JsonValue → List ScannedJson
  | [] => []
  | item :: items => ofValue item :: ofItems items

def ofMembers : List (String × JsonValue) → List (CodePoints × ScannedJson)
  | [] => []
  | (key, value) :: members => (.ofString key, ofValue value) :: ofMembers members

end

theorem ofItems_str (texts : List String) :
    ofItems (texts.map .str) = texts.map fun text => .str (.ofString text) := by
  induction texts with
  | nil => rfl
  | cons text texts ih =>
    rw [List.map_cons, ofItems, ofValue, ih, List.map_cons]

/-- The members are found under the texts of their keys. -/
theorem member_ofMembers (key : String) (members : List (String × JsonValue)) :
    JsonTree.member (.ofString key) (ofMembers members) =
      (JsonValue.member key members).map ofValue := by
  induction members with
  | nil => rfl
  | cons m members ih =>
    obtain ⟨name, value⟩ := m
    rw [ofMembers, JsonTree.member, JsonValue.member, ih]
    simp only [CodePoints.ofString_inj]
    cases JsonValue.member key members with
    | some found => rfl
    | none =>
      by_cases hname : name = key
      · rw [if_pos hname, if_pos hname]
        rfl
      · rw [if_neg hname, if_neg hname]
        rfl

end ScannedJson

end OpenMemory.Lib
