import Mathlib

/-!
# JSON texts

A value, its text with given separators (object members in key order, every character outside
ASCII escaped) and the reader. The reader takes any text: it skips white space between tokens,
knows every escape, and reads `NaN` and the infinities besides the numbers of the grammar. Numbers
with a fraction or an exponent keep their literal. A text is one of characters, so this reader rejects
a surrogate that stands alone; `Lib.Nesting` reads texts of code points.

The rules (`readString_plain`, `readNumber_nat`, `readMembers_value`, …) read back one token each;
`loads_flat` puts them together for an object of texts and numbers. A string literal of any
characters reads back too (`readString_flatMap_escape`), so it ends where it ends, and objects with
the same keys have the same text only with the same texts for their values (`objectText_inj`).
`hasKey` looks for a key at every depth of a value.
-/

namespace OpenMemory.Lib

/-- A JSON value; `float` is the literal of a number that is no integer. -/
inductive JsonValue
  | null
  | bool (b : Bool)
  | int (n : Int)
  | float (literal : String)
  | str (s : String)
  | arr (items : List JsonValue)
  | obj (members : List (String × JsonValue))

namespace JsonValue

/-! ## Printing -/

/-- A digit of `\uXXXX`. -/
def hexChar (n : Nat) : Char :=
  if n < 10 then Char.ofNat (48 + n) else Char.ofNat (87 + n)

/-- `\uXXXX`. -/
def unicodeEscape (n : Nat) : List Char :=
  ['\\', 'u', hexChar (n / 4096 % 16), hexChar (n / 256 % 16), hexChar (n / 16 % 16),
    hexChar (n % 16)]

/-- One character of a string literal; a character beyond the first plane is a surrogate pair. -/
def escape (c : Char) : List Char :=
  if c = '"' then ['\\', '"']
  else if c = '\\' then ['\\', '\\']
  else if c = '\n' then ['\\', 'n']
  else if c = '\r' then ['\\', 'r']
  else if c = '\t' then ['\\', 't']
  else if c.toNat = 12 then ['\\', 'f']
  else if c.toNat = 8 then ['\\', 'b']
  else if c.toNat < 32 ∨ (126 < c.toNat ∧ c.toNat < 65536) then unicodeEscape c.toNat
  else if 65536 ≤ c.toNat then
    unicodeEscape (55296 + (c.toNat - 65536) / 1024) ++
      unicodeEscape (56320 + (c.toNat - 65536) % 1024)
  else [c]

/-- A string literal. -/
def quote (s : String) : List Char := '"' :: s.toList.flatMap escape ++ ['"']

/-- The parts joined by the separator. -/
def joinWith (sep : List Char) : List (List Char) → List Char
  | [] => []
  | [part] => part
  | part :: rest => part ++ sep ++ joinWith sep rest

mutual

/-- The text of a value, with the separators between items and after keys. -/
def print (comma colon : List Char) : JsonValue → List Char
  | .null => "null".toList
  | .bool b => if b then "true".toList else "false".toList
  | .int n => (toString n).toList
  | .float literal => literal.toList
  | .str s => quote s
  | .arr items => '[' :: joinWith comma (printAll comma colon items) ++ [']']
  | .obj members =>
    '\x7b' :: joinWith comma (((printMembers comma colon members).insertionSort
      fun a b => a.1 ≤ b.1).map fun m => quote m.1 ++ colon ++ m.2) ++ ['\x7d']

/-- The texts of the items. -/
def printAll (comma colon : List Char) : List JsonValue → List (List Char)
  | [] => []
  | item :: items => print comma colon item :: printAll comma colon items

/-- The texts of the members, in source order. -/
def printMembers (comma colon : List Char) :
    List (String × JsonValue) → List (String × List Char)
  | [] => []
  | (key, value) :: members => (key, print comma colon value) :: printMembers comma colon members

end

/-- `json.dumps(value, sort_keys=True)`. -/
def dumps (value : JsonValue) : String := String.ofList (print [',', ' '] [':', ' '] value)

/-- `json.dumps(value, sort_keys=True, separators=(",", ":"))`. -/
def dumpsCompact (value : JsonValue) : String := String.ofList (print [','] [':'] value)

/-! ## Reading -/

def isBlank (c : Char) : Bool := c = ' ' || c = '\t' || c = '\n' || c = '\r'

/-- What follows the white space. -/
def skipBlanks (l : List Char) : List Char := l.dropWhile isBlank

/-- The value of a hexadecimal digit. -/
def hexDigitValue (c : Char) : Option Nat :=
  if '0' ≤ c ∧ c ≤ '9' then some (c.toNat - 48)
  else if 'a' ≤ c ∧ c ≤ 'f' then some (c.toNat - 87)
  else if 'A' ≤ c ∧ c ≤ 'F' then some (c.toNat - 55)
  else none

/-- Four hexadecimal digits. -/
def readHex4 : List Char → Option (Nat × List Char)
  | a :: b :: c :: d :: rest => do
    let a ← hexDigitValue a
    let b ← hexDigitValue b
    let c ← hexDigitValue c
    let d ← hexDigitValue d
    some (4096 * a + 256 * b + 16 * c + d, rest)
  | _ => none

/-- The second half of a surrogate pair. -/
def readLowSurrogate : List Char → Option (Nat × List Char)
  | '\\' :: 'u' :: rest => do
    let (n, rest) ← readHex4 rest
    if 56320 ≤ n ∧ n < 57344 then some (n, rest) else none
  | _ => none

/-- The character after `\u`. -/
def readUnicode (l : List Char) : Option (Char × List Char) := do
  let (n, rest) ← readHex4 l
  if 55296 ≤ n ∧ n < 56320 then
    let (low, rest) ← readLowSurrogate rest
    some (Char.ofNat (65536 + 1024 * (n - 55296) + (low - 56320)), rest)
  else if 56320 ≤ n ∧ n < 57344 then none
  else some (Char.ofNat n, rest)

/-- The character after a backslash. -/
def readEscape : List Char → Option (Char × List Char)
  | '"' :: rest => some ('"', rest)
  | '\\' :: rest => some ('\\', rest)
  | '/' :: rest => some ('/', rest)
  | 'b' :: rest => some (Char.ofNat 8, rest)
  | 'f' :: rest => some (Char.ofNat 12, rest)
  | 'n' :: rest => some ('\n', rest)
  | 'r' :: rest => some ('\r', rest)
  | 't' :: rest => some ('\t', rest)
  | 'u' :: rest => readUnicode rest
  | _ => none

/-- A string after its opening quote. -/
def readString : Nat → List Char → Option (List Char × List Char)
  | 0, _ => none
  | _ + 1, [] => none
  | fuel + 1, c :: rest =>
    if c = '"' then some ([], rest)
    else if c = '\\' then do
      let (c, rest) ← readEscape rest
      let (cs, rest) ← readString fuel rest
      some (c :: cs, rest)
    else if c.toNat < 32 then none
    else do
      let (cs, rest) ← readString fuel rest
      some (c :: cs, rest)

/-- `.` and digits. -/
def readFraction : List Char → Option (List Char × List Char)
  | '.' :: rest =>
    let digits := rest.takeWhile Char.isDigit
    if digits = [] then none else some ('.' :: digits, rest.dropWhile Char.isDigit)
  | _ => none

/-- The sign of an exponent. -/
def readSign : List Char → List Char × List Char
  | '+' :: rest => (['+'], rest)
  | '-' :: rest => (['-'], rest)
  | rest => ([], rest)

/-- `e` or `E`, a sign and digits. -/
def readExponent : List Char → Option (List Char × List Char)
  | e :: rest =>
    if e = 'e' ∨ e = 'E' then
      let (sign, rest) := readSign rest
      let digits := rest.takeWhile Char.isDigit
      if digits = [] then none else some (e :: sign ++ digits, rest.dropWhile Char.isDigit)
    else none
  | [] => none

/-- The digits of an integer part: `0`, or digits that do not start with it. -/
def readDigits : List Char → Option (List Char × List Char)
  | '0' :: rest => some (['0'], rest)
  | l =>
    let digits := l.takeWhile Char.isDigit
    if digits = [] then none else some (digits, l.dropWhile Char.isDigit)

/-- A number without its minus sign. -/
def readMagnitude (negative : Bool) (l : List Char) : Option (JsonValue × List Char) := do
  let (digits, rest) ← readDigits l
  let (fraction, rest) := (readFraction rest).getD ([], rest)
  let (exponent, rest) := (readExponent rest).getD ([], rest)
  if fraction = [] ∧ exponent = [] then
    let n := Nat.ofDigitChars 10 digits 0
    some (.int (if negative then -(n : Int) else n), rest)
  else
    some (.float (String.ofList ((if negative then ['-'] else []) ++ digits ++ fraction ++
      exponent)), rest)

/-- A number. -/
def readNumber : List Char → Option (JsonValue × List Char)
  | '-' :: rest => readMagnitude true rest
  | l => readMagnitude false l

/-- The constants, `NaN` and the infinities. -/
def constants : List (List Char × JsonValue) :=
  [("null".toList, .null), ("true".toList, .bool true), ("false".toList, .bool false),
    ("NaN".toList, .float "NaN"), ("Infinity".toList, .float "Infinity"),
    ("-Infinity".toList, .float "-Infinity")]

/-- A constant, if one comes next. -/
def readConstant (l : List Char) : Option (JsonValue × List Char) :=
  (constants.find? fun e => e.1.isPrefixOf l).map fun e => (e.2, l.drop e.1.length)

mutual

/-- A value, with no white space before it. -/
def readValue : Nat → List Char → Option (JsonValue × List Char)
  | 0, _ => none
  | _ + 1, [] => none
  | fuel + 1, c :: rest =>
    if c = '"' then do
      let (s, rest) ← readString fuel rest
      some (.str (String.ofList s), rest)
    else if c = '\x7b' then
      match skipBlanks rest with
      | '\x7d' :: rest => some (.obj [], rest)
      | rest => do
        let (members, rest) ← readMembers fuel rest
        some (.obj members, rest)
    else if c = '[' then
      match skipBlanks rest with
      | ']' :: rest => some (.arr [], rest)
      | rest => do
        let (items, rest) ← readItems fuel rest
        some (.arr items, rest)
    else (readConstant (c :: rest)).or (readNumber (c :: rest))

/-- The items of an array and its closing bracket. -/
def readItems : Nat → List Char → Option (List JsonValue × List Char)
  | 0, _ => none
  | fuel + 1, l => do
    let (item, rest) ← readValue fuel l
    match skipBlanks rest with
    | ']' :: rest => some ([item], rest)
    | ',' :: rest => do
      let (items, rest) ← readItems fuel (skipBlanks rest)
      some (item :: items, rest)
    | _ => none

/-- The members of an object and its closing brace. -/
def readMembers : Nat → List Char → Option (List (String × JsonValue) × List Char)
  | fuel + 1, '"' :: rest => do
    let (key, rest) ← readString fuel rest
    match skipBlanks rest with
    | ':' :: rest => do
      let (value, rest) ← readValue fuel (skipBlanks rest)
      match skipBlanks rest with
      | '\x7d' :: rest => some ([(String.ofList key, value)], rest)
      | ',' :: rest => do
        let (members, rest) ← readMembers fuel (skipBlanks rest)
        some ((String.ofList key, value) :: members, rest)
      | _ => none
    | _ => none
  | _, _ => none

end

/-- `json.loads`, `none` for `JSONDecodeError`. -/
def loads (text : String) : Option JsonValue :=
  match readValue (text.length + 1) (skipBlanks text.toList) with
  | some (value, rest) => if skipBlanks rest = [] then some value else none
  | none => none

/-- `payload[key]` on an object: the last member of that name. -/
def member (key : String) : List (String × JsonValue) → Option JsonValue
  | [] => none
  | (k, value) :: members => (member key members).or (if k = key then some value else none)

/-! ## Keys at any depth -/

mutual

/-- Does an object in the value, at whatever depth, have the key? -/
def hasKey (key : String) : JsonValue → Bool
  | .arr items => itemsHaveKey key items
  | .obj members => membersHaveKey key members
  | _ => false

/-- Does one of the items? -/
def itemsHaveKey (key : String) : List JsonValue → Bool
  | [] => false
  | item :: items => hasKey key item || itemsHaveKey key items

/-- Is the key one of an object with these members, or of one further down? -/
def membersHaveKey (key : String) : List (String × JsonValue) → Bool
  | [] => false
  | (name, value) :: members =>
    decide (name = key) || hasKey key value || membersHaveKey key members

end

/-- No item has the key. -/
theorem itemsHaveKey_eq_false {key : String} {items : List JsonValue} :
    itemsHaveKey key items = false ↔ ∀ item ∈ items, hasKey key item = false := by
  induction items with
  | nil => simp [itemsHaveKey]
  | cons item items ih =>
    rw [itemsHaveKey, Bool.or_eq_false_iff, ih, List.forall_mem_cons]

/-- The key is no name of a member, and no value has it. -/
theorem membersHaveKey_eq_false {key : String} {members : List (String × JsonValue)} :
    membersHaveKey key members = false ↔
      ∀ m ∈ members, m.1 ≠ key ∧ hasKey key m.2 = false := by
  induction members with
  | nil => simp [membersHaveKey]
  | cons m members ih =>
    rw [membersHaveKey, Bool.or_eq_false_iff, Bool.or_eq_false_iff, ih, List.forall_mem_cons,
      decide_eq_false_iff_not]

/-- A member that is found is one of the members. -/
theorem mem_of_member {key : String} {members : List (String × JsonValue)} {value : JsonValue}
    (h : member key members = some value) : (key, value) ∈ members := by
  induction members with
  | nil => cases h
  | cons m members ih =>
    obtain ⟨name, first⟩ := m
    rw [member, Option.or_eq_some_iff] at h
    rcases h with hlater | ⟨-, hfirst⟩
    · exact List.mem_cons_of_mem _ (ih hlater)
    · split_ifs at hfirst with hname
      cases hfirst
      rw [hname]
      exact List.mem_cons_self

/-! ## Reading back -/

/-- A character that a string literal spells as itself. -/
def isPlain (c : Char) : Bool :=
  decide (32 ≤ c.toNat) && decide (c.toNat ≤ 126) && decide (c ≠ '"') && decide (c ≠ '\\')

theorem isPlain_iff {c : Char} :
    isPlain c = true ↔ ((32 ≤ c.toNat ∧ c.toNat ≤ 126) ∧ c ≠ '"') ∧ c ≠ '\\' := by
  simp [isPlain]

/-- A plain character is not escaped. -/
theorem escape_of_plain {c : Char} (h : isPlain c = true) : escape c = [c] := by
  obtain ⟨⟨⟨hlow, hhigh⟩, hquote⟩, hslash⟩ := isPlain_iff.mp h
  have hne : ∀ d : Char, d.toNat < 32 → c ≠ d := by
    rintro d hd rfl
    omega
  unfold escape
  rw [if_neg hquote, if_neg hslash, if_neg (hne _ (by decide)), if_neg (hne _ (by decide)),
    if_neg (hne _ (by decide)), if_neg (by omega), if_neg (by omega), if_neg (by omega),
    if_neg (by omega)]

theorem flatMap_escape_of_plain {s : List Char} (h : ∀ c ∈ s, isPlain c = true) :
    s.flatMap escape = s := by
  induction s with
  | nil => rfl
  | cons c s ih =>
    obtain ⟨hc, hs⟩ := List.forall_mem_cons.mp h
    rw [List.flatMap_cons, escape_of_plain hc, ih hs]
    rfl

theorem quote_of_plain {s : String} (h : ∀ c ∈ s.toList, isPlain c = true) :
    quote s = '"' :: s.toList ++ ['"'] := by
  unfold quote
  rw [flatMap_escape_of_plain h]

/-- A hexadecimal digit reads back. -/
theorem hexDigitValue_hexChar {n : Nat} (h : n < 16) : hexDigitValue (hexChar n) = some n := by
  have hall : ∀ n < 16, hexDigitValue (hexChar n) = some n := by decide
  exact hall n h

/-- Four of them do. -/
theorem readHex4_unicodeEscape {n : Nat} (h : n < 65536) (rest : List Char) :
    readHex4 (((unicodeEscape n).drop 2) ++ rest) = some (n, rest) := by
  have hmod : ∀ k : Nat, k % 16 < 16 := fun k => Nat.mod_lt _ (by decide)
  show readHex4 (hexChar (n / 4096 % 16) :: hexChar (n / 256 % 16) :: hexChar (n / 16 % 16) ::
    hexChar (n % 16) :: rest) = _
  rw [readHex4, hexDigitValue_hexChar (hmod _), hexDigitValue_hexChar (hmod _),
    hexDigitValue_hexChar (hmod _), hexDigitValue_hexChar (hmod _)]
  dsimp only [Option.bind_eq_bind, Option.bind_some]
  rw [show 4096 * (n / 4096 % 16) + 256 * (n / 256 % 16) + 16 * (n / 16 % 16) + n % 16 = n by omega]

theorem unicodeEscape_append (n : Nat) (rest : List Char) :
    unicodeEscape n ++ rest = '\\' :: 'u' :: ((unicodeEscape n).drop 2 ++ rest) := rfl

/-- The escape of a character of the first plane reads back. -/
theorem readUnicode_bmp {c : Char} (h : c.toNat < 65536) (rest : List Char) :
    readUnicode ((unicodeEscape c.toNat).drop 2 ++ rest) = some (c, rest) := by
  have hvalid : c.toNat < 55296 ∨ 57343 < c.toNat := c.valid.imp id And.left
  unfold readUnicode
  rw [readHex4_unicodeEscape h]
  dsimp only [Option.bind_eq_bind, Option.bind_some]
  rw [if_neg (by omega), if_neg (by omega), Char.ofNat_toNat]

theorem readLowSurrogate_unicodeEscape {low : Nat} (h : 56320 ≤ low ∧ low < 57344)
    (rest : List Char) : readLowSurrogate (unicodeEscape low ++ rest) = some (low, rest) := by
  rw [unicodeEscape_append, readLowSurrogate, readHex4_unicodeEscape (by omega)]
  exact if_pos h

/-- The two halves of a surrogate pair. -/
theorem readUnicode_pair {high low : Nat} (hhigh : 55296 ≤ high ∧ high < 56320)
    (hlow : 56320 ≤ low ∧ low < 57344) (rest : List Char) :
    readUnicode ((unicodeEscape high).drop 2 ++ (unicodeEscape low ++ rest))
      = some (Char.ofNat (65536 + 1024 * (high - 55296) + (low - 56320)), rest) := by
  unfold readUnicode
  rw [readHex4_unicodeEscape (by omega)]
  dsimp only [Option.bind_eq_bind, Option.bind_some]
  rw [if_pos hhigh, readLowSurrogate_unicodeEscape hlow]
  rfl

/-- So does the pair for a character beyond it. -/
theorem readUnicode_astral {c : Char} (h : 65536 ≤ c.toNat) (rest : List Char) :
    readUnicode ((unicodeEscape (55296 + (c.toNat - 65536) / 1024)).drop 2 ++
      (unicodeEscape (56320 + (c.toNat - 65536) % 1024) ++ rest)) = some (c, rest) := by
  have hlt : c.toNat < 1114112 := by
    have hvalid : c.toNat < 55296 ∨ 57343 < c.toNat ∧ c.toNat < 1114112 := c.valid
    omega
  obtain ⟨k, hk⟩ := Nat.exists_eq_add_of_le h
  have hsum : 65536 + 1024 * (55296 + k / 1024 - 55296) + (56320 + k % 1024 - 56320)
      = 65536 + k := by omega
  rw [hk, Nat.add_sub_cancel_left, readUnicode_pair (by omega) (by omega), hsum, ← hk,
    Char.ofNat_toNat]

/-- An escape is one character of the literal. -/
theorem readString_backslash {c : Char} {fuel : Nat} {l rest : List Char}
    (h : readEscape l = some (c, rest)) :
    readString (fuel + 1) ('\\' :: l) = (readString fuel rest).map fun r => (c :: r.1, r.2) := by
  rw [readString, if_neg (by decide), if_pos rfl, h]
  show (readString fuel rest).bind _ = _
  cases readString fuel rest <;> rfl

/-- One character of a string literal reads back. -/
theorem readString_escape (c : Char) (fuel : Nat) (rest : List Char) :
    readString (fuel + 1) (escape c ++ rest)
      = (readString fuel rest).map fun r => (c :: r.1, r.2) := by
  by_cases hplain : isPlain c = true
  -- a plain character stands for itself
  · obtain ⟨⟨⟨hlow, -⟩, hquote⟩, hslash⟩ := isPlain_iff.mp hplain
    rw [escape_of_plain hplain, List.singleton_append, readString, if_neg hquote, if_neg hslash,
      if_neg (by omega)]
    show (readString fuel rest).bind _ = _
    cases readString fuel rest <;> rfl
  -- the others are escaped: by a letter, as one unit or as two
  · have hcode : ∀ n : Nat, c.toNat = n → c = Char.ofNat n := by
      rintro n rfl
      exact (Char.ofNat_toNat c).symm
    unfold escape
    split_ifs with h₁ h₂ h₃ h₄ h₅ h₆ h₇ h₈ h₉
    · subst h₁
      exact readString_backslash rfl
    · subst h₂
      exact readString_backslash rfl
    · subst h₃
      exact readString_backslash rfl
    · subst h₄
      exact readString_backslash rfl
    · subst h₅
      exact readString_backslash rfl
    · rw [hcode 12 h₆]
      exact readString_backslash rfl
    · rw [hcode 8 h₇]
      exact readString_backslash rfl
    -- one unit of four digits
    · exact readString_backslash (readUnicode_bmp (by omega) rest)
    -- two of them, a surrogate pair
    · rw [List.append_assoc]
      exact readString_backslash (readUnicode_astral h₉ rest)
    -- nothing is left
    · exact absurd (isPlain_iff.mpr ⟨⟨by omega, h₁⟩, h₂⟩) hplain

/-- A literal reads back up to its closing quote. -/
theorem readString_flatMap_escape {s rest : List Char} :
    ∀ {fuel : Nat}, s.length < fuel →
      readString fuel (s.flatMap escape ++ '"' :: rest) = some (s, rest) := by
  induction s with
  | nil =>
    intro fuel hfuel
    obtain ⟨n, rfl⟩ := Nat.exists_eq_succ_of_ne_zero (Nat.ne_of_gt hfuel)
    exact if_pos rfl
  | cons c s ih =>
    intro fuel hfuel
    obtain ⟨n, rfl⟩ := Nat.exists_eq_succ_of_ne_zero (Nat.ne_zero_of_lt hfuel)
    rw [List.flatMap_cons, List.append_assoc, readString_escape,
      ih (show s.length < n by simpa using hfuel)]
    rfl

/-- So does one of plain characters, which are spelled as themselves. -/
theorem readString_plain {s rest : List Char} (h : ∀ c ∈ s, isPlain c = true) {fuel : Nat}
    (hfuel : s.length < fuel) : readString fuel (s ++ '"' :: rest) = some (s, rest) := by
  have hread : readString fuel (s.flatMap escape ++ '"' :: rest) = some (s, rest) :=
    readString_flatMap_escape hfuel
  rwa [flatMap_escape_of_plain h] at hread

/-- A string literal ends where it ends, whatever follows. -/
theorem quote_append_inj {s s' : String} {rest rest' : List Char}
    (h : quote s ++ rest = quote s' ++ rest') : s = s' ∧ rest = rest' := by
  have hfuel : s.toList.length < s.toList.length + s'.toList.length + 1 := by omega
  have hfuel' : s'.toList.length < s.toList.length + s'.toList.length + 1 := by omega
  have htail : s.toList.flatMap escape ++ '"' :: rest
      = s'.toList.flatMap escape ++ '"' :: rest' := by
    simpa [quote] using h
  have hread : readString (s.toList.length + s'.toList.length + 1)
      (s.toList.flatMap escape ++ '"' :: rest) = some (s.toList, rest) :=
    readString_flatMap_escape hfuel
  rw [htail, readString_flatMap_escape hfuel'] at hread
  obtain ⟨hs, hrest⟩ := Prod.mk.inj (Option.some.inj hread)
  exact ⟨(String.toList_injective hs).symm, hrest.symm⟩

/-- The digits of a positive number do not start with a zero. -/
theorem head_toDigits {n : Nat} (hn : 0 < n) (c : Char) (rest : List Char) :
    Nat.toDigits 10 n = c :: rest → c ≠ '0' := by
  induction n using Nat.strong_induction_on generalizing c rest with
  | _ n ih =>
    intro h
    rw [Nat.toDigits_eq_if (by omega)] at h
    by_cases hsmall : n < 10
    · rw [if_pos hsmall] at h
      obtain ⟨rfl, -⟩ := List.cons.inj h
      have hall : ∀ m < 10, 0 < m → Nat.digitChar m ≠ '0' := by decide
      exact hall n hsmall hn
    · rw [if_neg hsmall] at h
      cases hd : Nat.toDigits 10 (n / 10) with
      | nil => exact absurd hd Nat.toDigits_ne_nil
      | cons d ds =>
        rw [hd] at h
        obtain ⟨rfl, -⟩ := List.cons.inj h
        exact ih (n / 10) (by omega) (by omega) d ds hd

/-- A delimiter: what ends a number. -/
def isDelimiter (c : Char) : Bool := c = ',' || c = '\x7d'

theorem isDelimiter_cases {c : Char} (h : isDelimiter c = true) : c = ',' ∨ c = '\x7d' := by
  simpa [isDelimiter] using h

/-- Digits stop at a delimiter. -/
theorem takeWhile_digits {digits : List Char} {d : Char} (rest : List Char)
    (hdigits : ∀ c ∈ digits, c.isDigit = true) (hd : isDelimiter d = true) :
    (digits ++ d :: rest).takeWhile Char.isDigit = digits ∧
      (digits ++ d :: rest).dropWhile Char.isDigit = d :: rest := by
  have hstop : d.isDigit = false := by
    rcases isDelimiter_cases hd with rfl | rfl <;> decide
  constructor
  · rw [List.takeWhile_append_of_pos hdigits, List.takeWhile_cons_of_neg (by simp [hstop]),
      List.append_nil]
  · rw [List.dropWhile_append_of_pos hdigits, List.dropWhile_cons_of_neg (by simp [hstop])]

/-- The digits of a positive number read back before a delimiter. -/
theorem readDigits_nat {n : Nat} {rest : List Char} {d : Char} (hn : 0 < n)
    (hd : isDelimiter d = true) :
    readDigits (Nat.toDigits 10 n ++ d :: rest) = some (Nat.toDigits 10 n, d :: rest) := by
  have hdigits : ∀ c ∈ Nat.toDigits 10 n, c.isDigit = true :=
    fun c hc => Nat.isDigit_of_mem_toDigits (by omega) (by omega) hc
  obtain ⟨htake, hdrop⟩ := takeWhile_digits rest hdigits hd
  cases hl : Nat.toDigits 10 n with
  | nil => exact absurd hl Nat.toDigits_ne_nil
  | cons c cs =>
    rw [hl] at htake hdrop
    have hc : c ≠ '0' := head_toDigits hn c cs hl
    show readDigits (c :: (cs ++ d :: rest)) = _
    rw [readDigits]
    · show (if ((c :: cs) ++ d :: rest).takeWhile Char.isDigit = [] then none
        else some (((c :: cs) ++ d :: rest).takeWhile Char.isDigit,
          ((c :: cs) ++ d :: rest).dropWhile Char.isDigit)) = _
      rw [htake, hdrop, if_neg (List.cons_ne_nil c cs)]
    · rintro rest' heq
      exact hc (List.cons.inj heq).1

/-- A positive integer before a delimiter reads back. -/
theorem readNumber_nat {n : Nat} {rest : List Char} {d : Char} (hn : 0 < n)
    (hd : isDelimiter d = true) :
    readNumber (Nat.toDigits 10 n ++ d :: rest) = some (.int n, d :: rest) := by
  -- the digits are followed by neither a fraction nor an exponent
  have hmagnitude : readMagnitude false (Nat.toDigits 10 n ++ d :: rest)
      = some (.int n, d :: rest) := by
    have hfraction : readFraction (d :: rest) = none := by
      rcases isDelimiter_cases hd with rfl | rfl <;> rfl
    have hexponent : readExponent (d :: rest) = none := by
      rcases isDelimiter_cases hd with rfl | rfl <;> rfl
    unfold readMagnitude
    rw [readDigits_nat hn hd]
    show (if ((readFraction (d :: rest)).getD ([], d :: rest)).1 = [] ∧ _ then _ else _) = _
    rw [hfraction]
    show (if ([] : List Char) = [] ∧ ((readExponent (d :: rest)).getD ([], d :: rest)).1 = [] then _
      else _) = _
    rw [hexponent]
    show some (JsonValue.int ((Nat.ofDigitChars 10 (Nat.toDigits 10 n) 0 : Nat) : Int), d :: rest) = _
    rw [Nat.ofDigitChars_ten_toDigits]
  -- and there is a first digit, which is no sign
  cases hl : Nat.toDigits 10 n with
  | nil => exact absurd hl Nat.toDigits_ne_nil
  | cons c cs =>
    have hdigit : c.isDigit = true := Nat.isDigit_of_mem_toDigits (by omega) (by omega)
      (hl ▸ List.mem_cons_self : c ∈ Nat.toDigits 10 n)
    rw [hl] at hmagnitude
    show readNumber (c :: (cs ++ d :: rest)) = _
    rw [readNumber]
    · exact hmagnitude
    · rintro rest' heq
      rw [(List.cons.inj heq).1] at hdigit
      exact absurd hdigit (by decide)

/-- Texts of plain characters and positive integers. -/
inductive IsScalar : JsonValue → Prop
  | str {s : String} (plain : ∀ c ∈ s.toList, isPlain c = true) : IsScalar (.str s)
  | int {n : Nat} (pos : 0 < n) : IsScalar (.int n)

/-- A digit starts no constant. -/
theorem readConstant_digit {c : Char} (h : c.isDigit = true) (rest : List Char) :
    readConstant (c :: rest) = none := by
  have hne : ∀ d : Char, d.isDigit = false → (d == c) = false := by
    intro d hd
    rw [beq_eq_false_iff_ne]
    rintro rfl
    rw [h] at hd
    cases hd
  -- no constant starts with a digit
  have hnone : constants.find? (fun e => e.1.isPrefixOf (c :: rest)) = none := by
    rw [List.find?_eq_none]
    intro e he
    simp only [constants, List.mem_cons, List.not_mem_nil, or_false] at he
    rcases he with rfl | rfl | rfl | rfl | rfl | rfl <;>
      simp [List.isPrefixOf, hne _ (by decide : ('n' : Char).isDigit = false),
        hne _ (by decide : ('t' : Char).isDigit = false),
        hne _ (by decide : ('f' : Char).isDigit = false),
        hne _ (by decide : ('N' : Char).isDigit = false),
        hne _ (by decide : ('I' : Char).isDigit = false),
        hne _ (by decide : ('-' : Char).isDigit = false)]
  unfold readConstant
  rw [hnone]
  rfl

/-- A scalar before a delimiter reads back. -/
theorem readValue_scalar {v : JsonValue} (h : IsScalar v) {comma colon rest : List Char} {d : Char}
    (hd : isDelimiter d = true) {fuel : Nat} (hfuel : (print comma colon v).length < fuel) :
    readValue fuel (print comma colon v ++ d :: rest) = some (v, d :: rest) := by
  obtain ⟨n, rfl⟩ := Nat.exists_eq_succ_of_ne_zero (Nat.ne_zero_of_lt hfuel)
  cases h with
  | @str s plain =>
    have hprint : print comma colon (.str s) = '"' :: s.toList ++ ['"'] := by
      rw [print]
      exact quote_of_plain plain
    rw [hprint] at hfuel ⊢
    have hlen : s.toList.length < n := by
      simp only [List.cons_append, List.length_cons, List.length_append, List.length_nil] at hfuel
      omega
    -- a plain string is read back up to its closing quote
    rw [List.append_assoc]
    show readValue (n + 1) ('"' :: (s.toList ++ '"' :: d :: rest)) = _
    rw [readValue, if_pos rfl, readString_plain plain hlen]
    show some (JsonValue.str (String.ofList s.toList), d :: rest) = _
    rw [String.ofList_toList]
  | @int k pos =>
    have hprint : print comma colon (.int k) = Nat.toDigits 10 k := by
      rw [print]
      exact Nat.toList_repr
    rw [hprint]
    have hread : readNumber (Nat.toDigits 10 k ++ d :: rest) = some (.int k, d :: rest) :=
      readNumber_nat pos hd
    cases hl : Nat.toDigits 10 k with
    | nil => exact absurd hl Nat.toDigits_ne_nil
    | cons c cs =>
      have hdigit : c.isDigit = true := Nat.isDigit_of_mem_toDigits (by omega) (by omega)
        (hl ▸ List.mem_cons_self : c ∈ Nat.toDigits 10 k)
      -- a digit starts neither a string, nor a list, nor an object, nor a constant
      have hne : ∀ e : Char, e.isDigit = false → c ≠ e := by
        rintro e he rfl
        rw [hdigit] at he
        cases he
      rw [hl] at hread
      show readValue (n + 1) (c :: (cs ++ d :: rest)) = _
      rw [readValue, if_neg (hne _ (by decide)), if_neg (hne _ (by decide)),
        if_neg (hne _ (by decide)), readConstant_digit hdigit]
      exact hread

/-- The text of one member in the compact style. -/
def memberText (m : String × JsonValue) : List Char :=
  quote m.1 ++ [':'] ++ print [','] [':'] m.2

/-- A member of plain key and scalar value. -/
def IsFlat (m : String × JsonValue) : Prop :=
  (∀ c ∈ m.1.toList, isPlain c = true) ∧ IsScalar m.2

theorem skipBlanks_of_delimiter {d : Char} (h : isDelimiter d = true) (rest : List Char) :
    skipBlanks (d :: rest) = d :: rest := by
  rcases isDelimiter_cases h with rfl | rfl <;> rfl

/-- A scalar does not start with white space. -/
theorem skipBlanks_scalar {v : JsonValue} (h : IsScalar v) {comma colon rest : List Char} :
    skipBlanks (print comma colon v ++ rest) = print comma colon v ++ rest := by
  cases h with
  | @str s plain =>
    rw [print, quote_of_plain plain]
    rfl
  | @int k pos =>
    have hprint : print comma colon (.int k) = Nat.toDigits 10 k := by
      rw [print]
      exact Nat.toList_repr
    rw [hprint]
    cases hl : Nat.toDigits 10 k with
    | nil => exact absurd hl Nat.toDigits_ne_nil
    | cons c cs =>
      -- digits are no blanks
      have hdigit : c.isDigit = true := Nat.isDigit_of_mem_toDigits (by omega) (by omega)
        (hl ▸ List.mem_cons_self : c ∈ Nat.toDigits 10 k)
      have hblank : isBlank c = false := by
        rw [Bool.eq_false_iff]
        intro hb
        simp only [isBlank, Bool.or_eq_true, decide_eq_true_eq] at hb
        rcases hb with ((rfl | rfl) | rfl) | rfl <;> exact absurd hdigit (by decide)
      exact List.dropWhile_cons_of_neg (by simp [hblank])

/-- Up to the value of the first member. -/
theorem readMembers_value {m : String × JsonValue} (h : IsFlat m) {d : Char} {rest : List Char}
    (hd : isDelimiter d = true) {fuel : Nat} (hfuel : (memberText m).length < fuel) :
    readMembers (fuel + 1) (memberText m ++ d :: rest) =
      match d :: rest with
      | '\x7d' :: rest => some ([m], rest)
      | ',' :: rest => (readMembers fuel (skipBlanks rest)).map fun r => (m :: r.1, r.2)
      | _ => none := by
  obtain ⟨key, value⟩ := m
  obtain ⟨hkey, hvalue⟩ := h
  dsimp only at hkey hvalue
  -- the key, a colon and the value
  have htext : memberText (key, value) ++ d :: rest =
      '"' :: (key.toList ++ '"' :: ':' :: (print [','] [':'] value ++ d :: rest)) := by
    unfold memberText
    rw [quote_of_plain hkey]
    simp only [List.cons_append, List.append_assoc, List.nil_append]
  have hlen : (memberText (key, value)).length =
      key.toList.length + 3 + (print [','] [':'] value).length := by
    unfold memberText
    rw [quote_of_plain hkey]
    simp only [List.cons_append, List.length_cons, List.length_append, List.length_nil]
    omega
  rw [htext, readMembers, readString_plain hkey (by omega)]
  show (match skipBlanks (':' :: (print [','] [':'] value ++ d :: rest)) with
    | ':' :: rest => _
    | _ => none) = _
  show (readValue fuel (skipBlanks (print [','] [':'] value ++ d :: rest))).bind _ = _
  rw [skipBlanks_scalar hvalue, readValue_scalar hvalue hd (by omega)]
  show (match skipBlanks (d :: rest) with
    | '\x7d' :: rest => some ([(String.ofList key.toList, value)], rest)
    | ',' :: rest => (readMembers fuel (skipBlanks rest)).bind _
    | _ => none) = _
  rw [skipBlanks_of_delimiter hd, String.ofList_toList]
  -- what follows the value decides whether the object goes on
  rcases isDelimiter_cases hd with rfl | rfl
  · show (readMembers fuel (skipBlanks rest)).bind _ = (readMembers fuel (skipBlanks rest)).map _
    rw [Option.map_eq_bind]
    rfl
  · rfl

/-- The members of a flat object read back. -/
theorem readMembers_flat {m : String × JsonValue} {members : List (String × JsonValue)}
    {rest : List Char} (h : ∀ e ∈ m :: members, IsFlat e) :
    ∀ {fuel : Nat}, (∀ e ∈ m :: members, (memberText e).length + members.length < fuel) →
      readMembers (fuel + 1)
        (joinWith [','] ((m :: members).map memberText) ++ '\x7d' :: rest)
          = some (m :: members, rest) := by
  induction members generalizing m with
  | nil =>
    intro fuel hfuel
    show readMembers (fuel + 1) (memberText m ++ '\x7d' :: rest) = _
    rw [readMembers_value (h m List.mem_cons_self) rfl
      (by simpa using hfuel m List.mem_cons_self)]
    rfl
  | cons m' members ih =>
    intro fuel hfuel
    have hfirst := hfuel m List.mem_cons_self
    rw [List.length_cons] at hfirst
    -- the fuel that is left suffices for the other members
    obtain ⟨fuel', rfl⟩ := Nat.exists_eq_succ_of_ne_zero (Nat.ne_zero_of_lt hfirst)
    have hmore : readMembers (fuel' + 1) (joinWith [','] ((m' :: members).map memberText) ++
        '\x7d' :: rest) = some (m' :: members, rest) := by
      refine ih (fun e he => h e (List.mem_cons_of_mem _ he)) fun e he => ?_
      have hlen := hfuel e (List.mem_cons_of_mem _ he)
      rw [List.length_cons] at hlen
      omega
    have htext : joinWith [','] ((m :: m' :: members).map memberText) ++ '\x7d' :: rest =
        memberText m ++ ',' :: (joinWith [','] ((m' :: members).map memberText) ++
          '\x7d' :: rest) := by
      show memberText m ++ [','] ++ joinWith [','] ((m' :: members).map memberText) ++ _ = _
      simp only [List.append_assoc, List.cons_append, List.nil_append]
    rw [htext, readMembers_value (h m List.mem_cons_self) rfl (by omega)]
    show (readMembers (fuel' + 1) (skipBlanks (joinWith [','] ((m' :: members).map memberText) ++
      '\x7d' :: rest))).map _ = _
    -- the next member starts with a quote
    have hskip : skipBlanks (joinWith [','] ((m' :: members).map memberText) ++ '\x7d' :: rest) =
        joinWith [','] ((m' :: members).map memberText) ++ '\x7d' :: rest := by
      cases members with
      | nil => rfl
      | cons m'' members => rfl
    rw [hskip, hmore]
    rfl

theorem printMembers_eq (comma colon : List Char) (members : List (String × JsonValue)) :
    printMembers comma colon members = members.map fun m => (m.1, print comma colon m.2) := by
  induction members with
  | nil => rw [printMembers, List.map_nil]
  | cons m members ih =>
    obtain ⟨key, value⟩ := m
    rw [printMembers, ih, List.map_cons]

/-- There is fuel for each part in the joined text. -/
theorem length_joinWith (parts : List (List Char)) :
    ∀ part ∈ parts, part.length + parts.length ≤ (joinWith [','] parts).length + 1 := by
  induction parts with
  | nil => exact fun part hpart => absurd hpart List.not_mem_nil
  | cons first parts ih =>
    intro part hpart
    cases parts with
    | nil =>
      obtain rfl := List.mem_singleton.mp hpart
      exact le_refl _
    | cons second parts =>
      have htext : (joinWith [','] (first :: second :: parts)).length =
          first.length + 1 + (joinWith [','] (second :: parts)).length := by
        show (first ++ [','] ++ joinWith [','] (second :: parts)).length = _
        simp only [List.length_append, List.length_cons, List.length_nil]
      have hrest := ih second List.mem_cons_self
      rw [htext]
      rcases List.mem_cons.mp hpart with rfl | hmem
      · simp only [List.length_cons] at hrest ⊢
        omega
      · have hone := ih part hmem
        simp only [List.length_cons] at hone ⊢
        omega

/-- A flat object with its members in key order reads back. -/
theorem loads_flat {m : String × JsonValue} {members : List (String × JsonValue)}
    (hflat : ∀ e ∈ m :: members, IsFlat e)
    (hsorted : (m :: members).Pairwise fun a b => a.1 ≤ b.1) :
    loads (dumpsCompact (.obj (m :: members))) = some (.obj (m :: members)) := by
  have htext : print [','] [':'] (.obj (m :: members)) =
      '\x7b' :: (joinWith [','] ((m :: members).map memberText) ++ ['\x7d']) := by
    rw [print, printMembers_eq]
    -- sorted members are printed in their order
    have hid : ((m :: members).map fun e => (e.1, print [','] [':'] e.2)).insertionSort
        (fun a b => a.1 ≤ b.1) = (m :: members).map fun e => (e.1, print [','] [':'] e.2) := by
      refine List.Pairwise.insertionSort_eq ?_
      rw [List.pairwise_map]
      exact hsorted
    rw [hid, List.map_map]
    rfl
  have hread : ∀ {fuel : Nat}, (joinWith [','] ((m :: members).map memberText)).length < fuel →
      readValue (fuel + 2) ('\x7b' :: (joinWith [','] ((m :: members).map memberText) ++ ['\x7d']))
        = some (.obj (m :: members), []) := by
    intro fuel hfuel
    have hmembers : readMembers (fuel + 1) (joinWith [','] ((m :: members).map memberText) ++
        '\x7d' :: []) = some (m :: members, []) := by
      -- every member is shorter than the text
      refine readMembers_flat hflat fun e he => ?_
      have hone := length_joinWith ((m :: members).map memberText) (memberText e)
        (List.mem_map_of_mem he)
      rw [List.length_map, List.length_cons] at hone
      omega
    have hstart : ∃ text, joinWith [','] ((m :: members).map memberText) ++ ['\x7d']
        = '"' :: text := by
      cases members with
      | nil => exact ⟨_, rfl⟩
      | cons m' members => exact ⟨_, rfl⟩
    obtain ⟨text, hstart⟩ := hstart
    rw [hstart] at hmembers ⊢
    rw [readValue, if_neg (by decide), if_pos rfl]
    show (readMembers (fuel + 1) ('"' :: text)).bind _ = _
    rw [hmembers]
    rfl
  have hlength : (dumpsCompact (.obj (m :: members))).length =
      (joinWith [','] ((m :: members).map memberText)).length + 2 := by
    rw [← String.length_toList, dumpsCompact, String.toList_ofList, htext]
    simp
  unfold loads
  rw [hlength, dumpsCompact, String.toList_ofList, htext]
  show (match readValue ((joinWith [','] ((m :: members).map memberText)).length + 1 + 2)
    ('\x7b' :: (joinWith [','] ((m :: members).map memberText) ++ ['\x7d'])) with
    | some (value, rest) => if skipBlanks rest = [] then some value else none
    | none => none) = _
  rw [hread (Nat.lt_succ_self _)]
  rfl

/-! ## Objects with given keys -/

/-- The compact text of an object, from the texts of its members. -/
def objectText (members : List (String × List Char)) : List Char :=
  '\x7b' :: joinWith [','] ((members.insertionSort fun a b => a.1 ≤ b.1).map fun m =>
    quote m.1 ++ [':'] ++ m.2) ++ ['\x7d']

theorem dumpsCompact_obj (members : List (String × JsonValue)) :
    dumpsCompact (.obj members)
      = String.ofList (objectText (printMembers [','] [':'] members)) := by
  rw [dumpsCompact, print, objectText]

/-- Sorting the members of an object before they are printed changes nothing. -/
theorem dumpsCompact_insertionSort (members : List (String × JsonValue)) :
    dumpsCompact (.obj (members.insertionSort fun a b => a.1 ≤ b.1))
      = String.ofList (objectText (members.map fun m => (m.1, print [','] [':'] m.2))) := by
  have htrans : IsTrans (String × List Char) fun a b => a.1 ≤ b.1 := ⟨fun _ _ _ => le_trans⟩
  have htotal : Std.Total fun a b : String × List Char => a.1 ≤ b.1 := ⟨fun _ _ => le_total _ _⟩
  have hsort : (members.insertionSort fun a b => a.1 ≤ b.1).map
        (fun m => (m.1, print [','] [':'] m.2))
      = (members.map fun m => (m.1, print [','] [':'] m.2)).insertionSort fun a b => a.1 ≤ b.1 :=
    List.map_insertionSort _ (fun a b : String × List Char => a.1 ≤ b.1) _ members
      fun a _ b _ => Iff.rfl
  rw [dumpsCompact_obj, printMembers_eq, hsort]
  unfold objectText
  rw [(List.pairwise_insertionSort (fun a b : String × List Char => a.1 ≤ b.1) _).insertionSort_eq]

/-- What follows ends both texts, so it does not matter how it goes on. -/
theorem append_inj_of_stops {p : Char → Bool} {l l' rest rest' : List Char}
    (hl : ∀ c ∈ l, p c = true) (hl' : ∀ c ∈ l', p c = true)
    (hrest : ∀ c ∈ rest.head?, p c = false) (hrest' : ∀ c ∈ rest'.head?, p c = false)
    (h : l ++ rest = l' ++ rest') : l = l' ∧ rest = rest' := by
  have hstop : ∀ {rest : List Char}, (∀ c ∈ rest.head?, p c = false) → rest.takeWhile p = [] := by
    intro rest hrest
    cases rest with
    | nil => rfl
    | cons c rest => rw [List.takeWhile_cons, hrest c rfl]; rfl
  have htake := congrArg (List.takeWhile p) h
  rw [List.takeWhile_append_of_pos hl, List.takeWhile_append_of_pos hl', hstop hrest, hstop hrest',
    List.append_nil, List.append_nil] at htake
  subst htake
  exact ⟨rfl, List.append_cancel_left h⟩

/-- A character of the text of an integer. -/
def isIntChar (c : Char) : Bool := c.isDigit || decide (c = '-')

/-- An integer is spelled by digits and a minus sign. -/
theorem isIntChar_of_mem {n : Int} {c : Char} (h : c ∈ (toString n).toList) :
    isIntChar c = true := by
  have hnat : ∀ m : Nat, ∀ c ∈ m.repr.toList, isIntChar c = true := by
    intro m c hc
    rw [Nat.toList_repr] at hc
    unfold isIntChar
    rw [Nat.isDigit_of_mem_toDigits (by decide) (by decide) hc]
    rfl
  cases n with
  | ofNat m => exact hnat m c h
  | negSucc m =>
    have hchars : (toString (Int.negSucc m)).toList = '-' :: (m + 1).repr.toList := by
      show ("-" ++ (m + 1).repr).toList = _
      rw [String.toList_append]
      rfl
    rw [hchars] at h
    rcases List.mem_cons.mp h with rfl | h
    · rfl
    · exact hnat _ c h

/-- The texts of two values cannot be confused where a value ends. -/
def Apart (t t' : List Char) : Prop :=
  ∀ d d' rest rest', isDelimiter d = true → isDelimiter d' = true →
    t ++ d :: rest = t' ++ d' :: rest' → t = t' ∧ d :: rest = d' :: rest'

/-- Two objects with the same keys have the same text only if they have the same texts for their
values. -/
theorem joinWith_members_inj {keys : List String} {t t' : String → List Char}
    (hapart : ∀ k ∈ keys, Apart (t k) (t' k)) {rest rest' : List Char}
    (h : joinWith [','] (keys.map fun k => quote k ++ [':'] ++ t k) ++ '\x7d' :: rest
      = joinWith [','] (keys.map fun k => quote k ++ [':'] ++ t' k) ++ '\x7d' :: rest') :
    ∀ k ∈ keys, t k = t' k := by
  induction keys with
  | nil => exact fun _ hk => absurd hk List.not_mem_nil
  | cons k keys ih =>
    obtain ⟨hk, hkeys⟩ := List.forall_mem_cons.mp hapart
    cases keys with
    | nil =>
      simp only [List.map_cons, List.map_nil, joinWith, List.append_assoc] at h
      have hvalue := List.append_cancel_left (List.append_cancel_left h)
      exact List.forall_mem_cons.mpr ⟨(hk _ _ _ _ rfl rfl hvalue).1, fun _ h =>
        absurd h List.not_mem_nil⟩
    | cons k' keys =>
      simp only [List.map_cons, joinWith, List.append_assoc] at h ih
      have hvalue := List.append_cancel_left (List.append_cancel_left h)
      obtain ⟨hone, hrest⟩ := hk _ _ _ _ rfl rfl hvalue
      exact List.forall_mem_cons.mpr ⟨hone, ih hkeys (List.cons.inj hrest).2⟩

/-- The text of an object determines the texts of its values. -/
theorem objectText_inj {keys : List String} {t t' : String → List Char}
    (hapart : ∀ k ∈ keys, Apart (t k) (t' k))
    (h : objectText (keys.map fun k => (k, t k)) = objectText (keys.map fun k => (k, t' k))) :
    ∀ k ∈ keys, t k = t' k := by
  have hsort : ∀ t : String → List Char,
      (keys.map fun k => (k, t k)).insertionSort (fun a b => a.1 ≤ b.1)
        = (keys.insertionSort fun a b => a ≤ b).map fun k => (k, t k) := fun t =>
    (List.map_insertionSort (fun a b : String => a ≤ b) _ (fun k => (k, t k)) keys
      fun a _ b _ => Iff.rfl).symm
  unfold objectText at h
  rw [hsort, hsort, List.map_map, List.map_map] at h
  have hall : ∀ k ∈ keys.insertionSort fun a b => a ≤ b, t k = t' k :=
    joinWith_members_inj (fun k hk => hapart k ((List.mem_insertionSort _).mp hk))
      (List.cons.inj h).2
  exact fun k hk => hall k ((List.mem_insertionSort _).mpr hk)

end JsonValue

end OpenMemory.Lib
