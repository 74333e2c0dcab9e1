import OpenMemory.Lib.Json
import OpenMemory.Lib.Keyset

/-!
# JSON texts in any layout

A printer of JSON has a `Layout`: how it escapes a character, what it puts after a colon and a
comma, and how it breaks the line at a depth. Whatever the layout is, the reader gets back the value
that was printed, with the members of its objects in key order (`Layout.loads_dumps`).

`Reads` says that a text reads as a value wherever it stands. It is proved of the scalars one by
one, of the items of an array and the members of an object by induction on the list
(`readItems_of_reads`, `readMembers_of_reads`), and so of every value by induction on the value.
-/

namespace OpenMemory.Lib

namespace JsonValue

/-! ## Values whose members are in order -/

mutual

/-- The value with the members of every object in it in key order. -/
def sorted : JsonValue → JsonValue
  | .arr items => .arr (sortedAll items)
  | .obj members => .obj ((sortedMembers members).insertionSort fun a b => a.1 ≤ b.1)
  | value => value

def sortedAll : List JsonValue → List JsonValue
  | [] => []
  | item :: items => sorted item :: sortedAll items

def sortedMembers : List (String × JsonValue) → List (String × JsonValue)
  | [] => []
  | (key, value) :: members => (key, sorted value) :: sortedMembers members

end

/-- A value may end here. -/
def Stops (rest : List Char) : Prop :=
  ∀ d ∈ rest.head?, d = ',' ∨ d = ']' ∨ d = '\x7d' ∨ isBlank d = true

/-- An ASCII character that shows. -/
def isGraphic (c : Char) : Bool := decide (32 < c.toNat ∧ c.toNat < 127)

/-- A graphic character is no white space. -/
theorem isBlank_of_isGraphic {c : Char} (h : isGraphic c = true) : isBlank c = false := by
  by_contra hblank
  simp only [isBlank, Bool.not_eq_false, Bool.or_eq_true, decide_eq_true_eq] at hblank
  rcases hblank with ((rfl | rfl) | rfl) | rfl <;> exact absurd h (by decide)

/-- A literal that the reader takes for a number with a fraction or an exponent. -/
def IsFloatLiteral (literal : String) : Prop :=
  (∃ c cs, literal.toList = c :: cs ∧ c ≠ '"' ∧ c ≠ '\x7b' ∧ c ≠ '[' ∧ c ≠ ']') ∧
    (∀ c ∈ literal.toList, isGraphic c = true) ∧
    ∀ rest, Stops rest →
      (readConstant (literal.toList ++ rest)).or (readNumber (literal.toList ++ rest))
        = some (.float literal, rest)

mutual

/-- Are the floats of the value written as floats? -/
def HasLiterals : JsonValue → Prop
  | .float literal => IsFloatLiteral literal
  | .arr items => ItemsHaveLiterals items
  | .obj members => MembersHaveLiterals members
  | _ => True

def ItemsHaveLiterals : List JsonValue → Prop
  | [] => True
  | item :: items => HasLiterals item ∧ ItemsHaveLiterals items

def MembersHaveLiterals : List (String × JsonValue) → Prop
  | [] => True
  | (_, value) :: members => HasLiterals value ∧ MembersHaveLiterals members

end

theorem sortedAll_str (texts : List String) : sortedAll (texts.map .str) = texts.map .str := by
  induction texts with
  | nil => rfl
  | cons text texts ih =>
    rw [List.map_cons, sortedAll, ih]
    rfl

theorem itemsHaveLiterals_str (texts : List String) : ItemsHaveLiterals (texts.map .str) := by
  induction texts with
  | nil => exact trivial
  | cons text texts ih => exact ⟨trivial, ih⟩

/-! ## Layouts -/

/-- A style of printing. -/
structure Layout where
  /-- How a character stands in a string literal. -/
  escape : Char → List Char
  /-- What follows a colon. -/
  afterColon : List Char
  /-- What follows a comma. -/
  afterComma : List Char
  /-- A new line at a depth. -/
  newLine : Nat → List Char
  readString_escape : ∀ (c : Char) (fuel : Nat) (rest : List Char),
    readString (fuel + 1) (escape c ++ rest) = (readString fuel rest).map fun r => (c :: r.1, r.2)
  escape_ne_nil : ∀ c, escape c ≠ []
  blank_afterColon : ∀ c ∈ afterColon, isBlank c = true
  blank_afterComma : ∀ c ∈ afterComma, isBlank c = true
  blank_newLine : ∀ depth, ∀ c ∈ newLine depth, isBlank c = true

namespace Layout

variable (layout : Layout)

/-- A string literal. -/
def quote (s : String) : List Char := '"' :: s.toList.flatMap layout.escape ++ ['"']

/-- Parts between two brackets, each on its own line where there are lines. -/
def block (opening closing : Char) (depth : Nat) (parts : List (List Char)) : List Char :=
  if parts = [] then [opening, closing]
  else opening :: layout.newLine (depth + 1) ++
    joinWith (',' :: layout.afterComma ++ layout.newLine (depth + 1)) parts ++
    layout.newLine depth ++ [closing]

/-- The text of a member. -/
def memberText (m : String × List Char) : List Char :=
  layout.quote m.1 ++ ':' :: layout.afterColon ++ m.2

mutual

/-- The text of a value at a depth. -/
def print (depth : Nat) : JsonValue → List Char
  | .null => "null".toList
  | .bool b => if b then "true".toList else "false".toList
  | .int n => (toString n).toList
  | .float literal => literal.toList
  | .str s => layout.quote s
  | .arr items => layout.block '[' ']' depth (printAll (depth + 1) items)
  | .obj members =>
    layout.block '\x7b' '\x7d' depth (((printMembers (depth + 1) members).insertionSort
      fun a b => a.1 ≤ b.1).map layout.memberText)

def printAll (depth : Nat) : List JsonValue → List (List Char)
  | [] => []
  | item :: items => print depth item :: printAll depth items

def printMembers (depth : Nat) : List (String × JsonValue) → List (String × List Char)
  | [] => []
  | (key, value) :: members => (key, print depth value) :: printMembers depth members

end

/-- `json.dumps(value, sort_keys=True)` in the layout. -/
def dumps (value : JsonValue) : String := String.ofList (layout.print 0 value)

end Layout

/-! ## Reading back -/

theorem stops_nil : Stops [] := fun _ h => absurd h (by simp)

/-- A separator, a closing bracket and white space end a value. -/
theorem stops_cons {d : Char} {rest : List Char}
    (h : d = ',' ∨ d = ']' ∨ d = '\x7d' ∨ isBlank d = true) : Stops (d :: rest) := by
  rintro e he
  obtain rfl : d = e := by simpa using he
  exact h

/-- White space may stand before the end. -/
theorem Stops.blanks_append {blanks rest : List Char} (hblanks : ∀ c ∈ blanks, isBlank c = true)
    (h : Stops rest) : Stops (blanks ++ rest) := by
  cases blanks with
  | nil => exact h
  | cons c blanks => exact stops_cons (.inr (.inr (.inr (hblanks c List.mem_cons_self))))

/-- White space before a text is skipped. -/
theorem skipBlanks_append {blanks rest : List Char} (h : ∀ c ∈ blanks, isBlank c = true) :
    skipBlanks (blanks ++ rest) = skipBlanks rest := List.dropWhile_append_of_pos h

theorem skipBlanks_cons {c : Char} {rest : List Char} (h : isBlank c = false) :
    skipBlanks (c :: rest) = c :: rest := List.dropWhile_cons_of_neg (by simp [h])

/-- The text reads as the value wherever it stands. -/
structure Reads (text : List Char) (value : JsonValue) : Prop where
  starts : ∃ c rest, text = c :: rest ∧ isBlank c = false ∧ c ≠ ']'
  reads : ∀ (fuel : Nat) (rest : List Char), text.length ≤ fuel → Stops rest →
    readValue fuel (text ++ rest) = some (value, rest)

/-- A text that reads as a value does not start with white space. -/
theorem Reads.skipBlanks_eq {text : List Char} {value : JsonValue} (h : Reads text value)
    (rest : List Char) : skipBlanks (text ++ rest) = text ++ rest := by
  obtain ⟨c, text, rfl, hblank, -⟩ := h.starts
  exact skipBlanks_cons hblank

/-! ### Scalars -/

theorem reads_null : Reads "null".toList .null where
  starts := ⟨'n', _, rfl, rfl, by decide⟩
  reads fuel rest hfuel _ := by
    obtain ⟨n, rfl⟩ := Nat.exists_eq_succ_of_ne_zero (Nat.ne_zero_of_lt hfuel)
    rfl

/-- The constants read back. -/
theorem reads_bool (b : Bool) :
    Reads (if b then "true".toList else "false".toList) (.bool b) where
  starts := by
    cases b with
    | false => exact ⟨'f', _, rfl, rfl, by decide⟩
    | true => exact ⟨'t', _, rfl, rfl, by decide⟩
  reads fuel rest hfuel _ := by
    cases b with
    | false =>
      obtain ⟨n, rfl⟩ := Nat.exists_eq_succ_of_ne_zero (Nat.ne_zero_of_lt hfuel)
      rfl
    | true =>
      obtain ⟨n, rfl⟩ := Nat.exists_eq_succ_of_ne_zero (Nat.ne_zero_of_lt hfuel)
      rfl

/-- Where a value ends, no digit follows. -/
theorem Stops.head_not_digit {rest : List Char} (h : Stops rest) :
    rest.takeWhile Char.isDigit = [] ∧ rest.dropWhile Char.isDigit = rest := by
  cases rest with
  | nil => exact ⟨rfl, rfl⟩
  | cons d rest =>
    have hdigit : d.isDigit = false := by
      rcases h d rfl with rfl | rfl | rfl | hblank
      · decide
      · decide
      · decide
      · simp only [isBlank, Bool.or_eq_true, decide_eq_true_eq] at hblank
        rcases hblank with ((rfl | rfl) | rfl) | rfl <;> decide
    exact ⟨List.takeWhile_cons_of_neg (by simp [hdigit]),
      List.dropWhile_cons_of_neg (by simp [hdigit])⟩

/-- Nor a fraction. -/
theorem Stops.no_fraction {rest : List Char} (h : Stops rest) : readFraction rest = none := by
  cases rest with
  | nil => rfl
  | cons d rest =>
    rcases h d rfl with rfl | rfl | rfl | hblank
    · rfl
    · rfl
    · rfl
    · simp only [isBlank, Bool.or_eq_true, decide_eq_true_eq] at hblank
      rcases hblank with ((rfl | rfl) | rfl) | rfl <;> rfl

/-- Nor an exponent. -/
theorem Stops.no_exponent {rest : List Char} (h : Stops rest) : readExponent rest = none := by
  cases rest with
  | nil => rfl
  | cons d rest =>
    rcases h d rfl with rfl | rfl | rfl | hblank
    · rfl
    · rfl
    · rfl
    · simp only [isBlank, Bool.or_eq_true, decide_eq_true_eq] at hblank
      rcases hblank with ((rfl | rfl) | rfl) | rfl <;> rfl

/-- The digits of a number read back up to where they stop. -/
theorem readDigits_toDigits (n : Nat) {rest : List Char}
    (htake : rest.takeWhile Char.isDigit = []) (hdrop : rest.dropWhile Char.isDigit = rest) :
    readDigits (Nat.toDigits 10 n ++ rest) = some (Nat.toDigits 10 n, rest) := by
  rcases Nat.eq_zero_or_pos n with rfl | hn
  · rfl
  · have hdigits : ∀ c ∈ Nat.toDigits 10 n, c.isDigit = true :=
      fun c hc => Nat.isDigit_of_mem_toDigits (by omega) (by omega) hc
    cases hl : Nat.toDigits 10 n with
    | nil => exact absurd hl Nat.toDigits_ne_nil
    | cons c cs =>
      have hc : c ≠ '0' := head_toDigits hn c cs hl
      rw [hl] at hdigits
      show readDigits (c :: (cs ++ rest)) = _
      rw [readDigits]
      · show (if ((c :: cs) ++ rest).takeWhile Char.isDigit = [] then none
          else some (((c :: cs) ++ rest).takeWhile Char.isDigit,
            ((c :: cs) ++ rest).dropWhile Char.isDigit)) = _
        rw [List.takeWhile_append_of_pos hdigits, List.dropWhile_append_of_pos hdigits, htake,
          hdrop, List.append_nil, if_neg (List.cons_ne_nil c cs)]
      · rintro rest' heq
        exact hc (List.cons.inj heq).1

theorem readMagnitude_toDigits (negative : Bool) (n : Nat) {rest : List Char} (h : Stops rest) :
    readMagnitude negative (Nat.toDigits 10 n ++ rest)
      = some (.int (if negative then -(n : Int) else n), rest) := by
  unfold readMagnitude
  rw [readDigits_toDigits n h.head_not_digit.1 h.head_not_digit.2]
  show (if ((readFraction rest).getD ([], rest)).1 = [] ∧ _ then _ else _) = _
  rw [h.no_fraction]
  show (if ([] : List Char) = [] ∧ ((readExponent rest).getD ([], rest)).1 = [] then _ else _) = _
  rw [h.no_exponent]
  show some (JsonValue.int (if negative then
    -((Nat.ofDigitChars 10 (Nat.toDigits 10 n) 0 : Nat) : Int)
      else ((Nat.ofDigitChars 10 (Nat.toDigits 10 n) 0 : Nat) : Int)), rest) = _
  rw [Nat.ofDigitChars_ten_toDigits]

/-- The text of an integer: its first character, and what the reader makes of it. -/
theorem readNumber_int (n : Int) :
    ∃ c cs, (toString n).toList = c :: cs ∧ (c = '-' ∨ c.isDigit = true) ∧
      (c = '-' → ∀ rest, readConstant (c :: cs ++ rest) = none) ∧
      ∀ rest, Stops rest → readNumber (c :: cs ++ rest) = some (.int n, rest) := by
  have hdigit : ∀ {m : Nat} {c : Char} {cs : List Char}, Nat.toDigits 10 m = c :: cs →
      c.isDigit = true := fun {m} {c} {cs} hl =>
    Nat.isDigit_of_mem_toDigits (by omega) (by omega) (hl ▸ List.mem_cons_self)
  cases n with
  -- digits only
  | ofNat m =>
    have htext : (toString (Int.ofNat m)).toList = Nat.toDigits 10 m := Nat.toList_repr
    cases hl : Nat.toDigits 10 m with
    | nil => exact absurd hl Nat.toDigits_ne_nil
    | cons c cs =>
      have hc := hdigit hl
      have hminus : c ≠ '-' := by
        rintro rfl
        exact absurd hc (by decide)
      refine ⟨c, cs, htext.trans hl, .inr hc, fun h => absurd h hminus, fun rest hrest => ?_⟩
      show readNumber (c :: (cs ++ rest)) = _
      rw [readNumber]
      · show readMagnitude false ((c :: cs) ++ rest) = _
        rw [← hl, readMagnitude_toDigits false m hrest]
        rfl
      · rintro rest' heq
        exact hminus (List.cons.inj heq).1
  -- a sign, and digits that do not spell `-Infinity`
  | negSucc m =>
    have htext : (toString (Int.negSucc m)).toList = '-' :: Nat.toDigits 10 (m + 1) := by
      show ("-" ++ (m + 1).repr).toList = _
      rw [String.toList_append, Nat.toList_repr]
      rfl
    refine ⟨'-', Nat.toDigits 10 (m + 1), htext, .inl rfl, fun _ rest => ?_, fun rest hrest => ?_⟩
    · cases hl : Nat.toDigits 10 (m + 1) with
      | nil => exact absurd hl Nat.toDigits_ne_nil
      | cons c cs =>
        have hc : c ≠ 'I' := by
          rintro rfl
          exact absurd (hdigit hl) (by decide)
        have hbeq : ('I' == c) = false := by
          rw [beq_eq_false_iff_ne]
          exact hc.symm
        simp [readConstant, constants, List.find?, List.isPrefixOf, hbeq]
    · show readMagnitude true (Nat.toDigits 10 (m + 1) ++ rest) = _
      rw [readMagnitude_toDigits true (m + 1) hrest]
      rfl

/-- An integer reads back. -/
theorem reads_int (n : Int) : Reads (toString n).toList (.int n) := by
  obtain ⟨c, cs, htext, hc, hconstant, hnumber⟩ := readNumber_int n
  -- the first character is none of the other openings
  have hne : ∀ d : Char, d.isDigit = false → d ≠ '-' → c ≠ d := by
    rintro d hd hminus rfl
    rcases hc with rfl | hc
    · exact hminus rfl
    · rw [hd] at hc
      cases hc
  have hblank : isBlank c = false := by
    rw [Bool.eq_false_iff]
    intro hb
    simp only [isBlank, Bool.or_eq_true, decide_eq_true_eq] at hb
    rcases hb with ((rfl | rfl) | rfl) | rfl <;> exact absurd hc (by decide)
  rw [htext]
  refine ⟨⟨c, cs, rfl, hblank, hne _ (by decide) (by decide)⟩, fun fuel rest hfuel hrest => ?_⟩
  obtain ⟨k, rfl⟩ := Nat.exists_eq_succ_of_ne_zero (Nat.ne_zero_of_lt hfuel)
  -- and starts no constant
  have hnone : readConstant (c :: cs ++ rest) = none := by
    rcases hc with rfl | hc
    · exact hconstant rfl rest
    · exact readConstant_digit hc _
  show readValue (k + 1) (c :: (cs ++ rest)) = _
  rw [readValue, if_neg (hne _ (by decide) (by decide)), if_neg (hne _ (by decide) (by decide)),
    if_neg (hne _ (by decide) (by decide))]
  show (readConstant (c :: cs ++ rest)).or (readNumber (c :: cs ++ rest)) = _
  rw [hnone, hnumber rest hrest]
  rfl

/-- The literal of a float reads back. -/
theorem reads_float {literal : String} (h : IsFloatLiteral literal) :
    Reads literal.toList (.float literal) := by
  obtain ⟨⟨c, cs, htext, hquote, hbrace, hbracket, hclose⟩, hgraphic, hread⟩ := h
  have hfirst : isBlank c = false := isBlank_of_isGraphic (hgraphic c (htext ▸ List.mem_cons_self))
  refine ⟨⟨c, cs, htext, hfirst, hclose⟩, fun fuel rest hfuel hrest => ?_⟩
  have hvalue := hread rest hrest
  rw [htext] at hvalue hfuel ⊢
  obtain ⟨k, rfl⟩ := Nat.exists_eq_succ_of_ne_zero (Nat.ne_zero_of_lt hfuel)
  show readValue (k + 1) (c :: (cs ++ rest)) = _
  rw [readValue, if_neg hquote, if_neg hbrace, if_neg hbracket]
  exact hvalue

/-! ### String literals -/

namespace Layout

variable (layout : Layout)

/-- No character is escaped by nothing, so the fuel for a text suffices for its characters. -/
theorem length_le_flatMap_escape (s : List Char) :
    s.length ≤ (s.flatMap layout.escape).length := by
  induction s with
  | nil => exact le_refl _
  | cons c s ih =>
    have hc := List.length_pos_of_ne_nil (layout.escape_ne_nil c)
    rw [List.flatMap_cons, List.length_append, List.length_cons]
    omega

/-- A string literal of the layout reads back. -/
theorem readString_quoted {s rest : List Char} :
    ∀ {fuel : Nat}, s.length < fuel →
      readString fuel (s.flatMap layout.escape ++ '"' :: rest) = some (s, rest) := by
  induction s with
  | nil =>
    intro fuel hfuel
    obtain ⟨n, rfl⟩ := Nat.exists_eq_succ_of_ne_zero (Nat.ne_of_gt hfuel)
    exact if_pos rfl
  | cons c s ih =>
    intro fuel hfuel
    obtain ⟨n, rfl⟩ := Nat.exists_eq_succ_of_ne_zero (Nat.ne_zero_of_lt hfuel)
    rw [List.flatMap_cons, List.append_assoc, layout.readString_escape,
      ih (show s.length < n by simpa using hfuel)]
    rfl

theorem quote_append (s : String) (rest : List Char) :
    layout.quote s ++ rest = '"' :: (s.toList.flatMap layout.escape ++ '"' :: rest) := by
  simp [quote]

theorem length_lt_length_quote (s : String) : s.toList.length + 1 < (layout.quote s).length := by
  have hlen := layout.length_le_flatMap_escape s.toList
  simp only [quote, List.cons_append, List.length_cons, List.length_append, List.length_nil]
  omega

/-- So a text does, quotes included. -/
theorem reads_str (s : String) : Reads (layout.quote s) (.str s) where
  starts := ⟨'"', _, rfl, rfl, by decide⟩
  reads fuel rest hfuel _ := by
    have hlen := layout.length_lt_length_quote s
    obtain ⟨k, rfl⟩ := Nat.exists_eq_succ_of_ne_zero (n := fuel) (by omega)
    rw [quote_append, readValue, if_pos rfl, layout.readString_quoted (by omega)]
    show some (JsonValue.str (String.ofList s.toList), rest) = _
    rw [String.ofList_toList]

end Layout

/-! ### Items and members -/

theorem joinWith_cons_append (sep part : List Char) (parts : List (List Char)) (rest : List Char) :
    joinWith sep (part :: parts) ++ rest =
      part ++ (parts.flatMap (fun p => sep ++ p) ++ rest) := by
  induction parts generalizing part with
  | nil => rfl
  | cons p parts ih =>
    show part ++ sep ++ joinWith sep (p :: parts) ++ rest = _
    rw [List.append_assoc, List.append_assoc, ih, List.flatMap_cons]
    simp only [List.append_assoc]

theorem length_joinWith_cons (sep part : List Char) (parts : List (List Char)) :
    (joinWith sep (part :: parts)).length
      = part.length + (parts.flatMap fun p => sep ++ p).length := by
  have h := congrArg List.length (joinWith_cons_append sep part parts [])
  simpa using h

section

variable {fuel : Nat} {text rest rest' : List Char} {value : JsonValue}

/-- An item, and the end of the array behind it. -/
theorem readItems_closed (hvalue : readValue fuel text = some (value, rest))
    (hrest : skipBlanks rest = ']' :: rest') :
    readItems (fuel + 1) text = some ([value], rest') := by
  rw [readItems, hvalue]
  simp only [Option.bind_eq_bind, Option.bind_some]
  rw [hrest]
  rfl

/-- An item with another one behind it. -/
theorem readItems_continued (hvalue : readValue fuel text = some (value, rest))
    (hrest : skipBlanks rest = ',' :: rest') :
    readItems (fuel + 1) text =
      (readItems fuel (skipBlanks rest')).bind fun r => some (value :: r.1, r.2) := by
  rw [readItems, hvalue]
  simp only [Option.bind_eq_bind, Option.bind_some]
  rw [hrest]
  rfl

/-- An array that does not end at once. -/
theorem readValue_array (h : ∀ rest, skipBlanks text ≠ ']' :: rest) :
    readValue (fuel + 1) ('[' :: text) =
      (readItems fuel (skipBlanks text)).bind fun r => some (.arr r.1, r.2) := by
  rw [readValue, if_neg (by decide), if_neg (by decide), if_pos rfl]
  split
  · rename_i hclosed
    exact absurd hclosed (h _)
  · rfl

end

/-- The items of an array, up to its closing bracket. -/
theorem readItems_of_reads {gap last : List Char} (hgap : ∀ c ∈ gap, isBlank c = true)
    (hlast : ∀ c ∈ last, isBlank c = true) {texts : List (List Char)} {values : List JsonValue}
    (h : List.Forall₂ Reads texts values) {text : List Char} {value : JsonValue}
    (hfirst : Reads text value) (rest : List Char) :
    ∀ fuel, (joinWith (',' :: gap) (text :: texts)).length < fuel →
      readItems fuel (joinWith (',' :: gap) (text :: texts) ++ (last ++ ']' :: rest))
        = some (value :: values, rest) := by
  have hend : Stops (last ++ ']' :: rest) := (stops_cons (.inr (.inl rfl))).blanks_append hlast
  have hskip : skipBlanks (last ++ ']' :: rest) = ']' :: rest :=
    (skipBlanks_append hlast).trans (skipBlanks_cons rfl)
  induction h generalizing text value with
  -- the last item is followed by the closing bracket
  | nil =>
    intro fuel hfuel
    obtain ⟨n, rfl⟩ := Nat.exists_eq_succ_of_ne_zero (Nat.ne_zero_of_lt hfuel)
    exact readItems_closed (hfirst.reads n _ (Nat.le_of_lt_succ hfuel) hend) hskip
  -- any other one by a comma, a gap and the next item
  | @cons text' value' texts values hnext hrest ih =>
    intro fuel hfuel
    have hlen := length_joinWith_cons (',' :: gap) text (text' :: texts)
    have hlen' := length_joinWith_cons (',' :: gap) text' texts
    simp only [List.flatMap_cons, List.length_append, List.length_cons] at hlen
    obtain ⟨n, rfl⟩ := Nat.exists_eq_succ_of_ne_zero (Nat.ne_zero_of_lt hfuel)
    have htext : joinWith (',' :: gap) (text :: text' :: texts) ++ (last ++ ']' :: rest) =
        text ++ ',' :: (gap ++
          (joinWith (',' :: gap) (text' :: texts) ++ (last ++ ']' :: rest))) := by
      show text ++ (',' :: gap) ++ joinWith (',' :: gap) (text' :: texts) ++ _ = _
      simp only [List.append_assoc, List.cons_append]
    rw [htext, readItems_continued (hfirst.reads n _ (by omega) (stops_cons (.inl rfl)))
      (skipBlanks_cons rfl), skipBlanks_append hgap, joinWith_cons_append, hnext.skipBlanks_eq,
      ← joinWith_cons_append, ih hnext n (by omega)]
    rfl

namespace Layout

variable (layout : Layout)

/-- One member, up to what follows its value. -/
theorem readMembers_memberText {key : String} {text : List Char} {value : JsonValue}
    (h : Reads text value) {rest : List Char} (hrest : Stops rest) {fuel : Nat}
    (hfuel : (layout.memberText (key, text)).length ≤ fuel) :
    readMembers (fuel + 1) (layout.memberText (key, text) ++ rest) =
      match skipBlanks rest with
      | '\x7d' :: rest => some ([(key, value)], rest)
      | ',' :: rest => (readMembers fuel (skipBlanks rest)).bind fun r =>
        some ((key, value) :: r.1, r.2)
      | _ => none := by
  have hkey := layout.length_lt_length_quote key
  have hlen : (layout.memberText (key, text)).length =
      (layout.quote key).length + 1 + layout.afterColon.length + text.length := by
    simp only [memberText, List.length_append, List.length_cons]
    omega
  have htext : layout.memberText (key, text) ++ rest =
      layout.quote key ++ ':' :: (layout.afterColon ++ (text ++ rest)) := by
    simp only [memberText, List.append_assoc, List.cons_append]
  have hcolon : skipBlanks (':' :: (layout.afterColon ++ (text ++ rest))) =
      ':' :: (layout.afterColon ++ (text ++ rest)) := skipBlanks_cons rfl
  rw [htext, quote_append, readMembers, layout.readString_quoted (by omega)]
  simp only [Option.bind_eq_bind, Option.bind_some]
  rw [hcolon]
  show (readValue fuel (skipBlanks (layout.afterColon ++ (text ++ rest)))).bind _ = _
  rw [skipBlanks_append layout.blank_afterColon, h.skipBlanks_eq,
    h.reads fuel rest (by omega) hrest, String.ofList_toList]
  rfl

/-- A member as it is printed, and as it is read. -/
def ReadsMember (t : String × List Char) (m : String × JsonValue) : Prop :=
  t.1 = m.1 ∧ Reads t.2 m.2

/-- The members of an object, up to its closing brace. -/
theorem readMembers_of_reads {gap last : List Char} (hgap : ∀ c ∈ gap, isBlank c = true)
    (hlast : ∀ c ∈ last, isBlank c = true) {texts : List (String × List Char)}
    {members : List (String × JsonValue)} (h : List.Forall₂ ReadsMember texts members)
    {t : String × List Char} {m : String × JsonValue} (hfirst : ReadsMember t m)
    (rest : List Char) :
    ∀ fuel, (joinWith (',' :: gap) ((t :: texts).map layout.memberText)).length < fuel →
      readMembers fuel (joinWith (',' :: gap) ((t :: texts).map layout.memberText) ++
        (last ++ '\x7d' :: rest)) = some (m :: members, rest) := by
  have hend : Stops (last ++ '\x7d' :: rest) :=
    (stops_cons (.inr (.inr (.inl rfl)))).blanks_append hlast
  have hskip : skipBlanks (last ++ '\x7d' :: rest) = '\x7d' :: rest :=
    (skipBlanks_append hlast).trans (skipBlanks_cons rfl)
  induction h generalizing t m with
  -- the last member is followed by the closing brace
  | nil =>
    intro fuel hfuel
    obtain ⟨n, rfl⟩ := Nat.exists_eq_succ_of_ne_zero (Nat.ne_zero_of_lt hfuel)
    obtain ⟨key, text⟩ := t
    obtain ⟨name, value⟩ := m
    obtain ⟨rfl, hreads⟩ := hfirst
    show readMembers (n + 1) (layout.memberText (key, text) ++ (last ++ '\x7d' :: rest)) = _
    rw [layout.readMembers_memberText hreads hend (Nat.le_of_lt_succ hfuel), hskip]
    rfl
  -- any other one by a comma, a gap and the next member
  | @cons t' m' texts members hnext hrest ih =>
    intro fuel hfuel
    have hlen := length_joinWith_cons (',' :: gap) (layout.memberText t)
      ((t' :: texts).map layout.memberText)
    have hlen' := length_joinWith_cons (',' :: gap) (layout.memberText t')
      (texts.map layout.memberText)
    simp only [List.map_cons, List.flatMap_cons, List.length_append, List.length_cons] at hlen hfuel
    obtain ⟨n, rfl⟩ := Nat.exists_eq_succ_of_ne_zero (Nat.ne_zero_of_lt hfuel)
    have htext : joinWith (',' :: gap) ((t :: t' :: texts).map layout.memberText) ++
        (last ++ '\x7d' :: rest) = layout.memberText t ++ ',' :: (gap ++
          (joinWith (',' :: gap) ((t' :: texts).map layout.memberText) ++
            (last ++ '\x7d' :: rest))) := by
      show layout.memberText t ++ (',' :: gap) ++
        joinWith (',' :: gap) ((t' :: texts).map layout.memberText) ++ _ = _
      simp only [List.append_assoc, List.cons_append]
    rw [htext]
    obtain ⟨key, text⟩ := t
    obtain ⟨name, value⟩ := m
    obtain ⟨rfl, hreads⟩ := hfirst
    dsimp only at hreads
    rw [layout.readMembers_memberText hreads (stops_cons (.inl rfl)) (by omega),
      skipBlanks_cons rfl]
    show (readMembers n (skipBlanks (gap ++ _))).bind _ = _
    have hquote : ∀ rest, skipBlanks (layout.memberText t' ++ rest) =
        layout.memberText t' ++ rest := fun _ => rfl
    rw [skipBlanks_append hgap, List.map_cons, joinWith_cons_append, hquote,
      ← joinWith_cons_append, ← List.map_cons, ih hnext n (by
        simp only [List.map_cons]
        omega)]
    rfl

/-! ### Every value -/

/-- Members that read back do so in key order. -/
theorem insertionSort_forall₂ {texts : List (String × List Char)}
    {members : List (String × JsonValue)} (h : List.Forall₂ ReadsMember texts members) :
    List.Forall₂ ReadsMember (texts.insertionSort fun a b => a.1 ≤ b.1)
      (members.insertionSort fun a b => a.1 ≤ b.1) := by
  induction h with
  | nil => exact .nil
  | cons hm _ ih => exact orderedInsert_forall₂ (fun _ _ h => h.1) hm ih

/-- Between two items there is nothing but white space. -/
theorem blank_gap (depth : Nat) :
    ∀ c ∈ layout.afterComma ++ layout.newLine depth, isBlank c = true := fun c hc =>
  (List.mem_append.mp hc).elim (layout.blank_afterComma c) (layout.blank_newLine depth c)

/-- A block of items that read back reads back as an array. -/
theorem reads_block_arr (depth : Nat) {texts : List (List Char)} {items : List JsonValue}
    (h : List.Forall₂ Reads texts items) :
    Reads (layout.block '[' ']' depth texts) (.arr items) := by
  cases h with
  | nil =>
    refine ⟨⟨'[', _, rfl, rfl, by decide⟩, fun fuel rest hfuel _ => ?_⟩
    obtain ⟨n, rfl⟩ := Nat.exists_eq_succ_of_ne_zero (Nat.ne_zero_of_lt hfuel)
    rfl
  | @cons text value texts values hfirst hrest =>
    unfold block
    rw [if_neg (List.cons_ne_nil _ _)]
    refine ⟨⟨'[', _, rfl, rfl, by decide⟩, fun fuel rest hfuel _ => ?_⟩
    simp only [List.cons_append, List.append_assoc, List.length_cons, List.length_append,
      List.length_nil] at hfuel
    obtain ⟨n, rfl⟩ := Nat.exists_eq_succ_of_ne_zero (n := fuel) (by omega)
    have hitems := readItems_of_reads (layout.blank_gap (depth + 1)) (layout.blank_newLine depth)
      hrest hfirst rest n (by omega)
    -- the block is the bracket, a line break, the items, a line break and the bracket
    have hshape : '[' :: layout.newLine (depth + 1) ++
        joinWith (',' :: layout.afterComma ++ layout.newLine (depth + 1)) (text :: texts) ++
        layout.newLine depth ++ [']'] ++ rest =
      '[' :: (layout.newLine (depth + 1) ++
        (joinWith (',' :: (layout.afterComma ++ layout.newLine (depth + 1))) (text :: texts) ++
          (layout.newLine depth ++ ']' :: rest))) := by
      simp only [List.cons_append, List.append_assoc, List.nil_append]
    have hskip : skipBlanks (layout.newLine (depth + 1) ++
        (joinWith (',' :: (layout.afterComma ++ layout.newLine (depth + 1))) (text :: texts) ++
          (layout.newLine depth ++ ']' :: rest))) =
        joinWith (',' :: (layout.afterComma ++ layout.newLine (depth + 1))) (text :: texts) ++
          (layout.newLine depth ++ ']' :: rest) := by
      rw [skipBlanks_append (layout.blank_newLine _), joinWith_cons_append, hfirst.skipBlanks_eq]
    -- the first item does not start with the closing bracket
    have hopen : ∀ rest', skipBlanks (layout.newLine (depth + 1) ++
        (joinWith (',' :: (layout.afterComma ++ layout.newLine (depth + 1))) (text :: texts) ++
          (layout.newLine depth ++ ']' :: rest))) ≠ ']' :: rest' := by
      intro rest' heq
      obtain ⟨c, cs, hstart, -, hclose⟩ := hfirst.starts
      rw [hskip, joinWith_cons_append, hstart] at heq
      exact hclose (List.cons.inj heq).1
    rw [hshape, readValue_array hopen, hskip, hitems]
    rfl

/-- A block of members that read back reads back as an object. -/
theorem reads_block_obj (depth : Nat) {texts : List (String × List Char)}
    {members : List (String × JsonValue)} (h : List.Forall₂ ReadsMember texts members) :
    Reads (layout.block '\x7b' '\x7d' depth (texts.map layout.memberText)) (.obj members) := by
  cases h with
  | nil =>
    refine ⟨⟨'\x7b', _, rfl, rfl, by decide⟩, fun fuel rest hfuel _ => ?_⟩
    obtain ⟨n, rfl⟩ := Nat.exists_eq_succ_of_ne_zero (Nat.ne_zero_of_lt hfuel)
    rfl
  | @cons t m texts members hfirst hrest =>
    unfold block
    rw [if_neg (by simp)]
    refine ⟨⟨'\x7b', _, rfl, rfl, by decide⟩, fun fuel rest hfuel _ => ?_⟩
    simp only [List.cons_append, List.append_assoc, List.length_cons, List.length_append,
      List.length_nil] at hfuel
    obtain ⟨n, rfl⟩ := Nat.exists_eq_succ_of_ne_zero (n := fuel) (by omega)
    have hmembers := layout.readMembers_of_reads (layout.blank_gap (depth + 1))
      (layout.blank_newLine depth) hrest hfirst rest n (by omega)
    -- the block is the brace, a line break, the members, a line break and the brace
    have hshape : '\x7b' :: layout.newLine (depth + 1) ++
        joinWith (',' :: layout.afterComma ++ layout.newLine (depth + 1))
          ((t :: texts).map layout.memberText) ++ layout.newLine depth ++ ['\x7d'] ++ rest =
      '\x7b' :: (layout.newLine (depth + 1) ++
        (joinWith (',' :: (layout.afterComma ++ layout.newLine (depth + 1)))
          ((t :: texts).map layout.memberText) ++ (layout.newLine depth ++ '\x7d' :: rest))) := by
      simp only [List.cons_append, List.append_assoc, List.nil_append]
    rw [hshape, readValue, if_neg (by decide), if_pos rfl,
      skipBlanks_append (layout.blank_newLine _)]
    -- the first member starts with its quote
    have hquote : ∃ cs, joinWith (',' :: (layout.afterComma ++ layout.newLine (depth + 1)))
        ((t :: texts).map layout.memberText) ++ (layout.newLine depth ++ '\x7d' :: rest)
          = '"' :: cs := by
      rw [List.map_cons, joinWith_cons_append]
      exact ⟨_, rfl⟩
    obtain ⟨cs, hquote⟩ := hquote
    rw [hquote] at hmembers ⊢
    show (readMembers n ('"' :: cs)).bind _ = _
    rw [hmembers]
    rfl

mutual

/-- A printed value reads back, with its members in key order. -/
theorem reads_print (depth : Nat) :
    ∀ value : JsonValue, HasLiterals value → Reads (layout.print depth value) (sorted value)
  | .null, _ => reads_null
  | .bool b, _ => reads_bool b
  | .int n, _ => reads_int n
  | .float _, h => reads_float h
  | .str s, _ => layout.reads_str s
  | .arr items, h => layout.reads_block_arr depth (reads_printAll (depth + 1) items h)
  | .obj members, h =>
    layout.reads_block_obj depth (insertionSort_forall₂ (reads_printMembers (depth + 1) members h))

theorem reads_printAll (depth : Nat) :
    ∀ items : List JsonValue, ItemsHaveLiterals items →
      List.Forall₂ Reads (layout.printAll depth items) (sortedAll items)
  | [], _ => .nil
  | item :: items, h => .cons (reads_print depth item h.1) (reads_printAll depth items h.2)

theorem reads_printMembers (depth : Nat) :
    ∀ members : List (String × JsonValue), MembersHaveLiterals members →
      List.Forall₂ ReadsMember (layout.printMembers depth members) (sortedMembers members)
  | [], _ => .nil
  | (_, value) :: members, h =>
    .cons ⟨rfl, reads_print depth value h.1⟩ (reads_printMembers depth members h.2)

end

/-- What is printed reads back, in any layout, also with white space behind it. -/
theorem loads_dumps_append {value : JsonValue} (h : HasLiterals value) {blanks : String}
    (hblanks : ∀ c ∈ blanks.toList, isBlank c = true) :
    loads (layout.dumps value ++ blanks) = some (sorted value) := by
  have hreads := layout.reads_print 0 value h
  have hstops : Stops blanks.toList := by
    rw [← List.append_nil blanks.toList]
    exact stops_nil.blanks_append hblanks
  have hread := hreads.reads ((layout.dumps value ++ blanks).length + 1) blanks.toList
    (by simp [dumps, ← String.length_toList]; omega) hstops
  have hrest : skipBlanks blanks.toList = [] := by
    rw [← List.append_nil blanks.toList, skipBlanks_append hblanks]
    rfl
  unfold loads
  rw [String.toList_append, dumps, String.toList_ofList, hreads.skipBlanks_eq]
  rw [dumps] at hread
  rw [hread]
  dsimp only
  rw [if_pos hrest]

theorem no_blanks : ∀ c ∈ "".toList, isBlank c = true := by simp

/-- The round trip through a text. -/
theorem loads_dumps {value : JsonValue} (h : HasLiterals value) :
    loads (layout.dumps value) = some (sorted value) := by
  have happend := layout.loads_dumps_append h no_blanks
  rwa [String.append_empty] at happend

end Layout

/-! ## The layouts of `json.dumps` -/

/-- A character of a string literal with `ensure_ascii=False`. -/
def escapeRaw (c : Char) : List Char := if 126 < c.toNat then [c] else escape c

/-- One character of a literal reads back where only the necessary ones are escaped. -/
theorem readString_escapeRaw (c : Char) (fuel : Nat) (rest : List Char) :
    readString (fuel + 1) (escapeRaw c ++ rest)
      = (readString fuel rest).map fun r => (c :: r.1, r.2) := by
  unfold escapeRaw
  split_ifs with h
  · have hne : ∀ d : Char, d.toNat ≤ 126 → c ≠ d := by
      rintro d hd rfl
      omega
    rw [List.singleton_append, readString, if_neg (hne _ (by decide)), if_neg (hne _ (by decide)),
      if_neg (by omega)]
    show (readString fuel rest).bind _ = _
    cases readString fuel rest <;> rfl
  · exact readString_escape c fuel rest

theorem escape_ne_nil (c : Char) : escape c ≠ [] := by
  unfold escape
  split_ifs <;> simp [unicodeEscape]

theorem escapeRaw_ne_nil (c : Char) : escapeRaw c ≠ [] := by
  unfold escapeRaw
  split_ifs
  · exact List.cons_ne_nil _ _
  · exact escape_ne_nil c

theorem not_mem_nil_blank : ∀ c ∈ ([] : List Char), isBlank c = true :=
  fun _ h => absurd h List.not_mem_nil

/-- `separators=(",", ":")`. -/
def compactAscii : Layout where
  escape := escape
  afterColon := []
  afterComma := []
  newLine _ := []
  readString_escape := readString_escape
  escape_ne_nil := escape_ne_nil
  blank_afterColon := not_mem_nil_blank
  blank_afterComma := not_mem_nil_blank
  blank_newLine _ := not_mem_nil_blank

/-- `separators=(",", ":"), ensure_ascii=False`. -/
def compactRaw : Layout :=
  { compactAscii with
    escape := escapeRaw
    readString_escape := readString_escapeRaw
    escape_ne_nil := escapeRaw_ne_nil }

theorem blank_of_eq_space : ∀ c ∈ [' '], isBlank c = true := by
  intro c hc
  obtain rfl := List.mem_singleton.mp hc
  rfl

/-- A new line and two spaces for each level. -/
def indentation (depth : Nat) : List Char := '\n' :: List.replicate (2 * depth) ' '

/-- A line starts with white space only. -/
theorem blank_indentation (depth : Nat) : ∀ c ∈ indentation depth, isBlank c = true := by
  intro c hc
  rcases List.mem_cons.mp hc with rfl | hc
  · rfl
  · rw [List.eq_of_mem_replicate hc]
    rfl

/-- `indent=2, ensure_ascii=False`. -/
def indentedRaw : Layout :=
  { compactRaw with
    afterColon := [' ']
    newLine := indentation
    blank_afterColon := blank_of_eq_space
    blank_newLine := blank_indentation }

mutual

/-- The compact layout is the one of `dumpsCompact`. -/
theorem compactAscii_print (depth : Nat) :
    ∀ value : JsonValue, compactAscii.print depth value = print [','] [':'] value
  | .null => rfl
  | .bool _ => rfl
  | .int _ => rfl
  | .float _ => rfl
  | .str _ => rfl
  | .arr items => by
    rw [Layout.print, print, compactAscii_printAll]
    cases printAll [','] [':'] items with
    | nil => rfl
    | cons part parts => simp [Layout.block, compactAscii]
  | .obj members => by
    rw [Layout.print, print, compactAscii_printMembers]
    -- a member is its key, a colon and its value, without blanks
    have htext : ∀ m : String × List Char,
        compactAscii.memberText m = quote m.1 ++ [':'] ++ m.2 := fun m => by
      simp [Layout.memberText, Layout.quote, quote, compactAscii]
    rw [List.map_congr_left fun m _ => htext m]
    cases hmap : ((printMembers [','] [':'] members).insertionSort
        fun a b => a.1 ≤ b.1).map fun m => quote m.1 ++ [':'] ++ m.2 with
    | nil => rfl
    | cons part parts => simp [Layout.block, compactAscii]

theorem compactAscii_printAll (depth : Nat) :
    ∀ items : List JsonValue, compactAscii.printAll depth items = printAll [','] [':'] items
  | [] => rfl
  | item :: items => by
    rw [Layout.printAll, printAll, compactAscii_print, compactAscii_printAll]

theorem compactAscii_printMembers (depth : Nat) :
    ∀ members : List (String × JsonValue),
      compactAscii.printMembers depth members = printMembers [','] [':'] members
  | [] => rfl
  | (key, value) :: members => by
    rw [Layout.printMembers, printMembers, compactAscii_print, compactAscii_printMembers]

end

/-- The compact layout prints what `dumpsCompact` does. -/
theorem compactAscii_dumps (value : JsonValue) : compactAscii.dumps value = dumpsCompact value := by
  rw [Layout.dumps, compactAscii_print, dumpsCompact]

/-! ## The characters of a text -/

/-- An ASCII character that shows, or a space. -/
def IsPrintable (c : Char) : Prop := 32 ≤ c.toNat ∧ c.toNat < 127

theorem isPrintable_of_mem_unicodeEscape {n : Nat} {d : Char} (h : d ∈ unicodeEscape n) :
    IsPrintable d := by
  have hex : ∀ k, IsPrintable (hexChar (k % 16)) := by
    have hall : ∀ k < 16, 32 ≤ (hexChar k).toNat ∧ (hexChar k).toNat < 127 := by decide
    exact fun k => hall _ (Nat.mod_lt _ (by decide))
  simp only [unicodeEscape, List.mem_cons, List.not_mem_nil, or_false] at h
  rcases h with rfl | rfl | rfl | rfl | rfl | rfl
  · exact ⟨by decide, by decide⟩
  · exact ⟨by decide, by decide⟩
  · exact hex _
  · exact hex _
  · exact hex _
  · exact hex _

/-- An escaped character is spelled in printable ASCII. -/
theorem isPrintable_of_mem_escape {c d : Char} (h : d ∈ escape c) : IsPrintable d := by
  unfold escape at h
  split_ifs at h with h₁ h₂ h₃ h₄ h₅ h₆ h₇ h₈ h₉
  · rcases List.mem_pair.mp h with rfl | rfl <;> exact ⟨by decide, by decide⟩
  · rcases List.mem_pair.mp h with rfl | rfl <;> exact ⟨by decide, by decide⟩
  · rcases List.mem_pair.mp h with rfl | rfl <;> exact ⟨by decide, by decide⟩
  · rcases List.mem_pair.mp h with rfl | rfl <;> exact ⟨by decide, by decide⟩
  · rcases List.mem_pair.mp h with rfl | rfl <;> exact ⟨by decide, by decide⟩
  · rcases List.mem_pair.mp h with rfl | rfl <;> exact ⟨by decide, by decide⟩
  · rcases List.mem_pair.mp h with rfl | rfl <;> exact ⟨by decide, by decide⟩
  · exact isPrintable_of_mem_unicodeEscape h
  · exact (List.mem_append.mp h).elim isPrintable_of_mem_unicodeEscape
      isPrintable_of_mem_unicodeEscape
  · obtain rfl := List.mem_singleton.mp h
    constructor <;> omega

/-- A line break is never spelled as itself. -/
theorem newline_not_mem_escapeRaw (c : Char) : ∀ d ∈ escapeRaw c, d ≠ '\n' := by
  rintro d hd rfl
  unfold escapeRaw at hd
  split_ifs at hd with h
  · rw [← List.mem_singleton.mp hd] at h
    exact absurd h (by decide)
  · exact absurd (isPrintable_of_mem_escape hd).1 (by decide)

namespace Layout

variable {layout : Layout} {P : Char → Prop}

/-- What is printed in the layout has characters of this kind alone. -/
structure Prints (layout : Layout) (P : Char → Prop) : Prop where
  graphic : ∀ c, isGraphic c = true → P c
  escape : ∀ c, ∀ d ∈ layout.escape c, P d
  afterColon : ∀ d ∈ layout.afterColon, P d
  afterComma : ∀ d ∈ layout.afterComma, P d
  newLine : ∀ depth, ∀ d ∈ layout.newLine depth, P d

theorem forall_mem_nil : ∀ d ∈ ([] : List Char), P d := fun _ h => absurd h List.not_mem_nil

/-- With the escapes of `ensure_ascii` a text is printable ASCII. -/
theorem compactAscii_prints : compactAscii.Prints IsPrintable where
  graphic c h := by
    have hc := of_decide_eq_true h
    exact ⟨hc.1.le, hc.2⟩
  escape _ _ h := isPrintable_of_mem_escape h
  afterColon := forall_mem_nil
  afterComma := forall_mem_nil
  newLine _ := forall_mem_nil

/-- A compact text is one line. -/
theorem compactRaw_prints : compactRaw.Prints (· ≠ '\n') where
  graphic c h := by
    rintro rfl
    exact absurd h (by decide)
  escape := newline_not_mem_escapeRaw
  afterColon := forall_mem_nil
  afterComma := forall_mem_nil
  newLine _ := forall_mem_nil

/-- A string literal has only characters that the layout prints. -/
theorem Prints.quote (h : layout.Prints P) (s : String) : ∀ d ∈ layout.quote s, P d := by
  intro d hd
  simp only [Layout.quote, List.cons_append, List.mem_cons, List.mem_append, List.mem_flatMap,
    List.not_mem_nil, or_false] at hd
  rcases hd with rfl | ⟨c, -, hd⟩ | rfl
  · exact h.graphic _ (by decide)
  · exact h.escape c d hd
  · exact h.graphic _ (by decide)

/-- A character of joined parts is one of a part or of the separator. -/
theorem mem_joinWith {sep : List Char} {parts : List (List Char)} {c : Char}
    (h : c ∈ joinWith sep parts) : c ∈ sep ∨ ∃ part ∈ parts, c ∈ part := by
  cases parts with
  | nil => exact absurd h List.not_mem_nil
  | cons part parts =>
    have happend := joinWith_cons_append sep part parts []
    rw [List.append_nil, List.append_nil] at happend
    rw [happend, List.mem_append, List.mem_flatMap] at h
    rcases h with h | ⟨p, hp, h⟩
    · exact .inr ⟨part, List.mem_cons_self, h⟩
    · exact (List.mem_append.mp h).imp id fun h => ⟨p, List.mem_cons_of_mem _ hp, h⟩

/-- So does a block, if its parts do. -/
theorem Prints.block (h : layout.Prints P) {opening closing : Char}
    (hopening : isGraphic opening = true) (hclosing : isGraphic closing = true) (depth : Nat)
    {parts : List (List Char)} (hparts : ∀ part ∈ parts, ∀ d ∈ part, P d) :
    ∀ d ∈ layout.block opening closing depth parts, P d := by
  intro d hd
  unfold Layout.block at hd
  split_ifs at hd
  · rcases List.mem_pair.mp hd with rfl | rfl
    · exact h.graphic _ hopening
    · exact h.graphic _ hclosing
  · simp only [List.mem_append, List.mem_cons, List.not_mem_nil, or_false] at hd
    rcases hd with (((rfl | hd) | hd) | hd) | rfl
    · exact h.graphic _ hopening
    · exact h.newLine _ d hd
    · rcases mem_joinWith hd with hsep | ⟨part, hpart, hin⟩
      · simp only [List.mem_append, List.mem_cons] at hsep
        rcases hsep with (rfl | hsep) | hsep
        · exact h.graphic _ (by decide)
        · exact h.afterComma d hsep
        · exact h.newLine _ d hsep
      · exact hparts part hpart d hin
    · exact h.newLine _ d hd
    · exact h.graphic _ hclosing

theorem isGraphic_of_isIntChar {c : Char} (h : isIntChar c = true) : isGraphic c = true := by
  unfold isIntChar at h
  rcases Bool.or_eq_true_iff.mp h with h | h
  · have hdigit : 48 ≤ c.toNat ∧ c.toNat ≤ 57 := Char.isDigit_iff_toNat.mp h
    exact decide_eq_true ⟨by omega, by omega⟩
  · rw [of_decide_eq_true h]
    decide

theorem Prints.constant (h : layout.Prints P) (text : List Char)
    (htext : text.all isGraphic = true) : ∀ d ∈ text, P d :=
  fun d hd => h.graphic d (List.all_eq_true.mp htext d hd)

mutual

/-- What a value is printed as has no other characters. -/
theorem Prints.print (h : layout.Prints P) (depth : Nat) :
    ∀ value : JsonValue, HasLiterals value → ∀ d ∈ layout.print depth value, P d
  | .null, _ => h.constant "null".toList (by decide)
  | .bool true, _ => h.constant "true".toList (by decide)
  | .bool false, _ => h.constant "false".toList (by decide)
  | .int _, _ => fun d hd => h.graphic d (isGraphic_of_isIntChar (isIntChar_of_mem hd))
  | .float _, hliteral => fun d hd => h.graphic d (hliteral.2.1 d hd)
  | .str s, _ => h.quote s
  | .arr items, hliterals =>
    h.block (by decide) (by decide) depth (h.printAll (depth + 1) items hliterals)
  | .obj members, hliterals => by
    refine h.block (by decide) (by decide) depth fun part hpart => ?_
    obtain ⟨m, hm, rfl⟩ := List.mem_map.mp hpart
    have hvalue := h.printMembers (depth + 1) members hliterals m
      ((List.mem_insertionSort _).mp hm)
    intro d hd
    rcases List.mem_append.mp hd with hd | hd
    -- the key, then the colon and the blank after it
    · rcases List.mem_append.mp hd with hd | hd
      · exact h.quote _ d hd
      · rcases List.mem_cons.mp hd with rfl | hd
        · exact h.graphic _ (by decide)
        · exact h.afterColon d hd
    · exact hvalue d hd

theorem Prints.printAll (h : layout.Prints P) (depth : Nat) :
    ∀ items : List JsonValue, ItemsHaveLiterals items →
      ∀ part ∈ layout.printAll depth items, ∀ d ∈ part, P d
  | [], _ => fun _ hpart => absurd hpart List.not_mem_nil
  | item :: items, hliterals =>
    List.forall_mem_cons.mpr ⟨h.print depth item hliterals.1, h.printAll depth items hliterals.2⟩

theorem Prints.printMembers (h : layout.Prints P) (depth : Nat) :
    ∀ members : List (String × JsonValue), MembersHaveLiterals members →
      ∀ m ∈ layout.printMembers depth members, ∀ d ∈ m.2, P d
  | [], _ => fun _ hm => absurd hm List.not_mem_nil
  | (_, value) :: members, hliterals =>
    List.forall_mem_cons.mpr
      ⟨h.print depth value hliterals.1, h.printMembers depth members hliterals.2⟩

end

end Layout

/-! ## Decimal numbers -/

/-- Digits on both sides of a point make a float. -/
theorem isFloatLiteral_decimal (n : Nat) {fraction : List Char} (hne : fraction ≠ [])
    (hfraction : ∀ c ∈ fraction, c.isDigit = true) :
    IsFloatLiteral (String.ofList (Nat.toDigits 10 n ++ '.' :: fraction)) := by
  have hdigits : ∀ c ∈ Nat.toDigits 10 n, c.isDigit = true :=
    fun c hc => Nat.isDigit_of_mem_toDigits (by omega) (by omega) hc
  have hgraphic : ∀ c : Char, c.isDigit = true → isGraphic c = true := fun c hc =>
    Layout.isGraphic_of_isIntChar (Bool.or_eq_true_iff.mpr (.inl hc))
  unfold IsFloatLiteral
  rw [String.toList_ofList]
  refine ⟨?_, ?_, fun rest hrest => ?_⟩
  -- a digit opens no other value
  · cases hl : Nat.toDigits 10 n with
    | nil => exact absurd hl Nat.toDigits_ne_nil
    | cons c cs =>
      have hc : c.isDigit = true := hdigits c (hl ▸ List.mem_cons_self)
      have hother : ∀ d : Char, d.isDigit = false → c ≠ d := by
        rintro d hd rfl
        rw [hd] at hc
        cases hc
      exact ⟨c, _, rfl, hother _ (by decide), hother _ (by decide), hother _ (by decide),
        hother _ (by decide)⟩
  -- digits and the point are graphic
  · intro c hc
    rcases List.mem_append.mp hc with hc | hc
    · exact hgraphic c (hdigits c hc)
    · rcases List.mem_cons.mp hc with rfl | hc
      · decide
      · exact hgraphic c (hfraction c hc)
  -- the whole literal is read up to a character that stops it
  · obtain ⟨htake, hdrop⟩ := hrest.head_not_digit
    have hread : readMagnitude false (Nat.toDigits 10 n ++ '.' :: fraction ++ rest) =
        some (.float (String.ofList (Nat.toDigits 10 n ++ '.' :: fraction)), rest) := by
      have hpoint : readFraction ('.' :: (fraction ++ rest)) = some ('.' :: fraction, rest) := by
        show (if (fraction ++ rest).takeWhile Char.isDigit = [] then none
          else some ('.' :: (fraction ++ rest).takeWhile Char.isDigit,
            (fraction ++ rest).dropWhile Char.isDigit)) = _
        rw [List.takeWhile_append_of_pos hfraction, List.dropWhile_append_of_pos hfraction, htake,
          hdrop, List.append_nil, if_neg hne]
      unfold readMagnitude
      rw [List.append_assoc, List.cons_append, readDigits_toDigits n rfl rfl]
      show (if ((readFraction ('.' :: (fraction ++ rest))).getD ([], _)).1 = [] ∧ _ then _
        else _) = _
      rw [hpoint]
      show (if '.' :: fraction = [] ∧ _ then _ else some (JsonValue.float (String.ofList
        ([] ++ Nat.toDigits 10 n ++ '.' :: fraction ++ ((readExponent rest).getD ([], rest)).1)),
          ((readExponent rest).getD ([], rest)).2)) = _
      rw [hrest.no_exponent, if_neg fun h => List.cons_ne_nil _ _ h.1]
      simp
    -- and its first digit is no constant
    cases hl : Nat.toDigits 10 n with
    | nil => exact absurd hl Nat.toDigits_ne_nil
    | cons c cs =>
      have hc : c.isDigit = true := hdigits c (hl ▸ List.mem_cons_self)
      rw [hl] at hread
      show (readConstant (c :: (cs ++ '.' :: fraction ++ rest))).or
        (readNumber (c :: (cs ++ '.' :: fraction ++ rest))) = _
      rw [readConstant_digit hc, readNumber]
      · exact hread
      · rintro rest' heq
        rw [(List.cons.inj heq).1] at hc
        exact absurd hc (by decide)

/-! ## Keys of sorted values -/

mutual

/-- Sorting makes no keys. -/
theorem hasKey_sorted {key : String} :
    ∀ {value : JsonValue}, hasKey key value = false → hasKey key value.sorted = false
  | .null, h | .bool _, h | .int _, h | .float _, h | .str _, h => h
  | .arr _, h => itemsHaveKey_sortedAll h
  | .obj _, h => by
    refine membersHaveKey_eq_false.mpr fun m hm => ?_
    exact membersHaveKey_eq_false.mp (membersHaveKey_sortedMembers h) m
      ((List.mem_insertionSort _).mp hm)

/-- Sorting members at every depth brings in no key. -/
theorem itemsHaveKey_sortedAll {key : String} :
    ∀ {items : List JsonValue}, itemsHaveKey key items = false →
      itemsHaveKey key (sortedAll items) = false
  | [], h => h
  | _ :: _, h => by
    rw [itemsHaveKey, Bool.or_eq_false_iff] at h
    rw [sortedAll, itemsHaveKey, hasKey_sorted h.1, itemsHaveKey_sortedAll h.2]
    rfl

theorem membersHaveKey_sortedMembers {key : String} :
    ∀ {members : List (String × JsonValue)}, membersHaveKey key members = false →
      membersHaveKey key (sortedMembers members) = false
  | [], h => h
  | (_, _) :: _, h => by
    rw [membersHaveKey, Bool.or_eq_false_iff, Bool.or_eq_false_iff] at h
    rw [sortedMembers, membersHaveKey, h.1.1, hasKey_sorted h.1.2, membersHaveKey_sortedMembers h.2]
    rfl

end

end JsonValue

end OpenMemory.Lib
