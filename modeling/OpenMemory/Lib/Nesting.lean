import OpenMemory.Lib.CodePoints
import OpenMemory.Lib.Txn

/-!
# Reading JSON within the interpreter's limits

The reader of `Lib.Json` again, as an interpreter runs it. Its texts are texts of code points: the
escape of half a surrogate pair is a code point, and two escapes that make a pair are the character
of the pair. It gives up where more brackets are open than it may nest (`RecursionError`), and an
integer may have so many digits (`ValueError`, as for a text that is no JSON). It reads from the
left, so the first of the two that it meets counts.

Where the reader of `Lib.Json` reads a value that fits the limits, this one reads the same
(`loadsWithin_of_loads`). For that, string literals of characters are compared first
(`scanString_of_readString`) and then values, by the fuel (`scan_of_read`).
-/

namespace OpenMemory.Lib

inductive ReadFailure
  | valueError
  | recursionError
  deriving DecidableEq

/-- What an interpreter may nest, and how long its integers may be. -/
structure ReadLimits where
  nesting : Nat
  digits : Nat

def orValueError {α : Type} : Option α → Except ReadFailure α
  | none => .error .valueError
  | some a => .ok a

theorem orValueError_ok {α : Type} {o : Option α} {a : α} :
    orValueError o = .ok a ↔ o = some a := by
  cases o with
  | none => simp [orValueError]
  | some b => simp [orValueError]

/-- The integer is not too long. -/
def ReadLimits.shortEnough (limits : ReadLimits) (n : Int) : Bool :=
  decide ((toString n.natAbs).length ≤ limits.digits)

namespace ScannedJson

/-! ## String literals -/

/-- Four hexadecimal digits. -/
def scanHex4 : CodePoints → Option (Nat × CodePoints)
  | .char a :: .char b :: .char c :: .char d :: rest =>
    (JsonValue.readHex4 [a, b, c, d]).map fun r => (r.1, rest)
  | _ => none

/-- The code point after `\u`. The escape of the first half of a pair is read together with that of
the second, if it comes next; otherwise it stands alone. -/
def scanUnicode (l : CodePoints) : Option (CodePoint × CodePoints) := do
  let (n, rest) ← scanHex4 l
  if 55296 ≤ n ∧ n < 56320 then
    match rest with
    | .char '\\' :: .char 'u' :: after => do
      let (low, after) ← scanHex4 after
      if 56320 ≤ low ∧ low < 57344 then
        some (.char (Char.ofNat (65536 + 1024 * (n - 55296) + (low - 56320))), after)
      else some (.ofNat n, rest)
    | _ => some (.ofNat n, rest)
  else some (.ofNat n, rest)

/-- The code point after a backslash. -/
def scanEscape : CodePoints → Option (CodePoint × CodePoints)
  | .char '"' :: rest => some (.char '"', rest)
  | .char '\\' :: rest => some (.char '\\', rest)
  | .char '/' :: rest => some (.char '/', rest)
  | .char 'b' :: rest => some (.char (Char.ofNat 8), rest)
  | .char 'f' :: rest => some (.char (Char.ofNat 12), rest)
  | .char 'n' :: rest => some (.char '\n', rest)
  | .char 'r' :: rest => some (.char '\r', rest)
  | .char 't' :: rest => some (.char '\t', rest)
  | .char 'u' :: rest => scanUnicode rest
  | _ => none

/-- Control characters end a literal before its time; a half does not. -/
def isControl : CodePoint → Bool
  | .char c => decide (c.toNat < 32)
  | .half _ => false

/-- A string after its opening quote. -/
def scanString : Nat → CodePoints → Option (CodePoints × CodePoints)
  | 0, _ => none
  | _ + 1, [] => none
  | fuel + 1, c :: rest =>
    if c = .char '"' then some ([], rest)
    else if c = .char '\\' then do
      let (c, rest) ← scanEscape rest
      let (cs, rest) ← scanString fuel rest
      some (c :: cs, rest)
    else if isControl c then none
    else do
      let (cs, rest) ← scanString fuel rest
      some (c :: cs, rest)

/-- A half that is escaped alone is read, and a pair is one character. -/
example : scanString 9 (.ofString "\\ud800\\u0061\\ud83d\\ude00\"") =
    some ([.half 0, .char 'a', .char (Char.ofNat 128512)], []) := by
  decide +kernel

/-! ## Values -/

/-- What follows the white space. -/
def skipBlanks (l : CodePoints) : CodePoints :=
  l.dropWhile fun c => c.toChar?.any JsonValue.isBlank

/-- The characters up to the first half, and what follows them. -/
def beforeHalf : CodePoints → List Char × CodePoints
  | .char c :: rest => (c :: (beforeHalf rest).1, (beforeHalf rest).2)
  | rest => ([], rest)

/-- A constant or a number: characters all of it. -/
def scanScalar (l : CodePoints) : Option (ScannedJson × CodePoints) :=
  ((JsonValue.readConstant (beforeHalf l).1).or (JsonValue.readNumber (beforeHalf l).1)).map
    fun r => (ofValue r.1, r.2.map .char ++ (beforeHalf l).2)

/-- One more bracket is open. -/
def nested : Nat → Except ReadFailure Nat
  | 0 => .error .recursionError
  | depth + 1 => .ok depth

/-- The value is no integer that is too long. -/
def shortEnough (limits : ReadLimits) : ScannedJson → Bool
  | .int n => limits.shortEnough n
  | _ => true

mutual

/-- A value, with no white space before it; `depth` more brackets may be opened. -/
def scanValue (limits : ReadLimits) :
    Nat → Nat → CodePoints → Except ReadFailure (ScannedJson × CodePoints)
  | 0, _, _ => .error .valueError
  | _ + 1, _, [] => .error .valueError
  | fuel + 1, depth, c :: rest =>
    if c = .char '"' then do
      let (s, rest) ← orValueError (scanString fuel rest)
      pure (.str s, rest)
    else if c = .char '\x7b' then do
      let depth ← nested depth
      match skipBlanks rest with
      | .char '\x7d' :: rest => pure (.obj [], rest)
      | rest => do
        let (members, rest) ← scanMembers limits fuel depth rest
        pure (.obj members, rest)
    else if c = .char '[' then do
      let depth ← nested depth
      match skipBlanks rest with
      | .char ']' :: rest => pure (.arr [], rest)
      | rest => do
        let (items, rest) ← scanItems limits fuel depth rest
        pure (.arr items, rest)
    else do
      let (value, rest) ← orValueError (scanScalar (c :: rest))
      if shortEnough limits value then pure (value, rest) else .error .valueError

/-- The items of an array and its closing bracket. -/
def scanItems (limits : ReadLimits) :
    Nat → Nat → CodePoints → Except ReadFailure (List ScannedJson × CodePoints)
  | 0, _, _ => .error .valueError
  | fuel + 1, depth, l => do
    let (item, rest) ← scanValue limits fuel depth l
    match skipBlanks rest with
    | .char ']' :: rest => pure ([item], rest)
    | .char ',' :: rest => do
      let (items, rest) ← scanItems limits fuel depth (skipBlanks rest)
      pure (item :: items, rest)
    | _ => .error .valueError

/-- The members of an object and its closing brace. -/
def scanMembers (limits : ReadLimits) :
    Nat → Nat → CodePoints → Except ReadFailure (List (CodePoints × ScannedJson) × CodePoints)
  | fuel + 1, depth, .char '"' :: rest => do
    let (key, rest) ← orValueError (scanString fuel rest)
    match skipBlanks rest with
    | .char ':' :: rest => do
      let (value, rest) ← scanValue limits fuel depth (skipBlanks rest)
      match skipBlanks rest with
      | .char '\x7d' :: rest => pure ([(key, value)], rest)
      | .char ',' :: rest => do
        let (members, rest) ← scanMembers limits fuel depth (skipBlanks rest)
        pure ((key, value) :: members, rest)
      | _ => .error .valueError
    | _ => .error .valueError
  | _, _, _ => .error .valueError

end

/-- `json.loads`. -/
def loadsWithin (limits : ReadLimits) (text : CodePoints) : Except ReadFailure ScannedJson := do
  let (value, rest) ← scanValue limits (text.length + 1) limits.nesting (skipBlanks text)
  if skipBlanks rest = [] then pure value else .error .valueError

/-! ## Literals of characters -/

/-- A number outside the surrogates is the code point of a character. -/
theorem codePoint_ofNat {n : Nat} (h : ¬(55296 ≤ n ∧ n < 57344)) :
    CodePoint.ofNat n = .char (Char.ofNat n) := dif_neg h

theorem scanHex4_of_readHex4 {l rest : List Char} {n : Nat}
    (h : JsonValue.readHex4 l = some (n, rest)) :
    scanHex4 (l.map .char) = some (n, rest.map .char) := by
  match l with
  | a :: b :: c :: d :: l =>
    obtain ⟨a', ha, h⟩ := Option.bind_eq_some_iff.mp h
    obtain ⟨b', hb, h⟩ := Option.bind_eq_some_iff.mp h
    obtain ⟨c', hc, h⟩ := Option.bind_eq_some_iff.mp h
    obtain ⟨d', hd, h⟩ := Option.bind_eq_some_iff.mp h
    cases h
    simp only [List.map_cons, scanHex4, JsonValue.readHex4, ha, hb, hc, hd]
    rfl
  | [] => cases h
  | [_] => cases h
  | [_, _] => cases h
  | [_, _, _] => cases h

theorem scanUnicode_of_readUnicode {l rest : List Char} {c : Char}
    (h : JsonValue.readUnicode l = some (c, rest)) :
    scanUnicode (l.map .char) = some (.char c, rest.map .char) := by
  obtain ⟨⟨n, rest'⟩, hhex, h⟩ := Option.bind_eq_some_iff.mp h
  unfold scanUnicode
  rw [scanHex4_of_readHex4 hhex]
  dsimp only [Option.bind_eq_bind, Option.bind_some] at h ⊢
  split_ifs at h ⊢ with hhigh hlow
  · -- The reader goes on only where the second half comes next.
    obtain ⟨⟨low, after⟩, hread, h⟩ := Option.bind_eq_some_iff.mp h
    obtain ⟨rfl, rfl⟩ := Prod.mk.inj (Option.some.inj h)
    unfold JsonValue.readLowSurrogate at hread
    split at hread
    · obtain ⟨⟨low', after'⟩, hhex', hread⟩ := Option.bind_eq_some_iff.mp hread
      dsimp only at hread
      split_ifs at hread with hrange
      cases hread
      simp only [List.map_cons]
      rw [scanHex4_of_readHex4 hhex']
      dsimp only [Option.bind_some]
      rw [if_pos hrange]
    · cases hread
  · cases h
    rw [codePoint_ofNat (by omega)]

theorem scanEscape_of_readEscape {l rest : List Char} {c : Char}
    (h : JsonValue.readEscape l = some (c, rest)) :
    scanEscape (l.map .char) = some (.char c, rest.map .char) := by
  unfold JsonValue.readEscape at h
  split at h
  case h_9 => exact scanUnicode_of_readUnicode h
  case h_10 => cases h
  all_goals
    cases h
    rw [List.map_cons, scanEscape]

/-- A literal that is read is scanned as the text of its characters. -/
theorem scanString_of_readString {fuel : Nat} {l s rest : List Char}
    (h : JsonValue.readString fuel l = some (s, rest)) :
    scanString fuel (l.map .char) = some (s.map .char, rest.map .char) := by
  induction fuel generalizing l s rest with
  | zero => cases h
  | succ fuel ih =>
    cases l with
    | nil => cases h
    | cons c l =>
      rw [JsonValue.readString] at h
      rw [List.map_cons, scanString]
      simp only [CodePoint.char.injEq, isControl, decide_eq_true_eq]
      split_ifs at h ⊢ with hquote hslash hcontrol
      · cases h
        rfl
      · obtain ⟨⟨c', rest'⟩, hescape, h⟩ := Option.bind_eq_some_iff.mp h
        obtain ⟨⟨cs, rest''⟩, hmore, h⟩ := Option.bind_eq_some_iff.mp h
        cases h
        rw [scanEscape_of_readEscape hescape]
        dsimp only [Option.bind_eq_bind, Option.bind_some]
        rw [ih hmore]
        rfl
      · obtain ⟨⟨cs, rest'⟩, hmore, h⟩ := Option.bind_eq_some_iff.mp h
        cases h
        rw [ih hmore]
        rfl

theorem skipBlanks_map (l : List Char) :
    skipBlanks (l.map .char) = (JsonValue.skipBlanks l).map .char := by
  unfold skipBlanks JsonValue.skipBlanks
  rw [List.dropWhile_map]
  rfl

theorem beforeHalf_map (l : List Char) : beforeHalf (l.map .char) = (l, []) := by
  induction l with
  | nil => rfl
  | cons c l ih => rw [List.map_cons, beforeHalf, ih]

theorem scanScalar_map (l : List Char) :
    scanScalar (l.map .char) =
      ((JsonValue.readConstant l).or (JsonValue.readNumber l)).map fun r =>
        (ofValue r.1, r.2.map .char) := by
  unfold scanScalar
  simp only [beforeHalf_map, List.append_nil]

end ScannedJson

/-! ## What the limits let through -/

namespace JsonValue

mutual

/-- The value nests no deeper than `depth`, and none of its integers is too long. -/
def fits (limits : ReadLimits) (depth : Nat) : JsonValue → Bool
  | .arr items => decide (0 < depth) && itemsFit limits (depth - 1) items
  | .obj members => decide (0 < depth) && membersFit limits (depth - 1) members
  | .int n => limits.shortEnough n
  | _ => true

def itemsFit (limits : ReadLimits) (depth : Nat) : List JsonValue → Bool
  | [] => true
  | item :: items => fits limits depth item && itemsFit limits depth items

def membersFit (limits : ReadLimits) (depth : Nat) : List (String × JsonValue) → Bool
  | [] => true
  | (_, value) :: members => fits limits depth value && membersFit limits depth members

end

theorem itemsFit_str (limits : ReadLimits) (depth : Nat) (texts : List String) :
    itemsFit limits depth (texts.map .str) = true := by
  induction texts with
  | nil => rfl
  | cons text texts ih =>
    rw [List.map_cons, itemsFit, ih, Bool.and_true]
    cases depth <;> rfl

/-- Inside of brackets one bracket less may be opened. -/
theorem exists_depth {depth : Nat} {inner : Bool} (h : (decide (0 < depth) && inner) = true) :
    ∃ d, depth = d + 1 ∧ inner = true := by
  rw [Bool.and_eq_true, decide_eq_true_eq] at h
  exact ⟨depth - 1, by omega, h.2⟩

end JsonValue

namespace ScannedJson

theorem shortEnough_ofValue {limits : ReadLimits} {depth : Nat} {value : JsonValue}
    (h : value.fits limits depth = true) : shortEnough limits (ofValue value) = true := by
  cases value with
  | int n => exact h
  | null => rfl
  | bool b => rfl
  | float literal => rfl
  | str s => rfl
  | arr items => rfl
  | obj members => rfl

section Scan

variable {limits : ReadLimits} {fuel : Nat}

/-- With so much fuel a value that is read and fits is scanned. -/
def ScansValues (limits : ReadLimits) (fuel : Nat) : Prop :=
  ∀ depth l value rest, JsonValue.readValue fuel l = some (value, rest) →
    value.fits limits depth = true →
      scanValue limits fuel depth (l.map .char) = .ok (ofValue value, rest.map .char)

def ScansItems (limits : ReadLimits) (fuel : Nat) : Prop :=
  ∀ depth l items rest, JsonValue.readItems fuel l = some (items, rest) →
    JsonValue.itemsFit limits depth items = true →
      scanItems limits fuel depth (l.map .char) = .ok (ofItems items, rest.map .char)

def ScansMembers (limits : ReadLimits) (fuel : Nat) : Prop :=
  ∀ depth l members rest, JsonValue.readMembers fuel l = some (members, rest) →
    JsonValue.membersFit limits depth members = true →
      scanMembers limits fuel depth (l.map .char) = .ok (ofMembers members, rest.map .char)

/-- The text of characters of which `c` is not the first does not start with `c`. -/
theorem ne_cons_map {l : List Char} {c : Char} (h : ∀ rest, l = c :: rest → False)
    (rest : CodePoints) : l.map .char ≠ .char c :: rest := by
  intro hcons
  obtain ⟨rest', hl, -⟩ := CodePoints.map_char_eq_cons.mp hcons
  exact h rest' hl

theorem scansValues_succ (hitems : ScansItems limits fuel) (hmembers : ScansMembers limits fuel) :
    ScansValues limits (fuel + 1) := by
  intro depth l value rest h hfits
  cases l with
  | nil =>
    rw [JsonValue.readValue] at h
    cases h
  | cons c l =>
    rw [JsonValue.readValue] at h
    rw [List.map_cons, scanValue]
    simp only [CodePoint.char.injEq]
    split_ifs at h ⊢ with hquote hbrace hbracket
    · obtain ⟨⟨s, rest'⟩, hread, h⟩ := Option.bind_eq_some_iff.mp h
      cases h
      rw [scanString_of_readString hread, ofValue, CodePoints.ofString, String.toList_ofList]
      rfl
    -- an object, empty or with members
    · rw [skipBlanks_map]
      generalize JsonValue.skipBlanks l = after at h ⊢
      split at h
      · cases h
        obtain ⟨d, rfl, -⟩ := JsonValue.exists_depth hfits
        rfl
      · rename_i hother
        obtain ⟨⟨members, rest'⟩, hread, h⟩ := Option.bind_eq_some_iff.mp h
        cases h
        obtain ⟨d, rfl, hfits⟩ := JsonValue.exists_depth hfits
        refine except_bind_ok.mpr ⟨d, rfl, ?_⟩
        split
        · exact absurd ‹_› (ne_cons_map hother _)
        · exact except_bind_ok.mpr ⟨_, hmembers d _ _ _ hread hfits, rfl⟩
    -- an array, empty or with items
    · rw [skipBlanks_map]
      generalize JsonValue.skipBlanks l = after at h ⊢
      split at h
      · cases h
        obtain ⟨d, rfl, -⟩ := JsonValue.exists_depth hfits
        rfl
      · rename_i hother
        obtain ⟨⟨items, rest'⟩, hread, h⟩ := Option.bind_eq_some_iff.mp h
        cases h
        obtain ⟨d, rfl, hfits⟩ := JsonValue.exists_depth hfits
        refine except_bind_ok.mpr ⟨d, rfl, ?_⟩
        split
        · exact absurd ‹_› (ne_cons_map hother _)
        · exact except_bind_ok.mpr ⟨_, hitems d _ _ _ hread hfits, rfl⟩
    · rw [← List.map_cons, scanScalar_map, h]
      exact if_pos (shortEnough_ofValue hfits)

theorem scansItems_succ (hvalue : ScansValues limits fuel) (hitems : ScansItems limits fuel) :
    ScansItems limits (fuel + 1) := by
  intro depth l items rest h hfits
  rw [JsonValue.readItems] at h
  rw [scanItems]
  obtain ⟨⟨item, rest'⟩, hread, h⟩ := Option.bind_eq_some_iff.mp h
  dsimp only at h
  generalize hafter : JsonValue.skipBlanks rest' = after at h
  have hscanned := skipBlanks_map rest'
  rw [hafter] at hscanned
  split at h
  -- the last item
  · cases h
    rw [JsonValue.itemsFit, Bool.and_eq_true] at hfits
    refine except_bind_ok.mpr ⟨_, hvalue depth l _ _ hread hfits.1, ?_⟩
    dsimp only
    rw [hscanned]
    rfl
  -- one that more items follow
  · obtain ⟨⟨items', rest''⟩, hmore, h⟩ := Option.bind_eq_some_iff.mp h
    cases h
    rw [JsonValue.itemsFit, Bool.and_eq_true] at hfits
    refine except_bind_ok.mpr ⟨_, hvalue depth l _ _ hread hfits.1, ?_⟩
    dsimp only
    rw [hscanned]
    have hrest := hitems depth _ _ _ hmore hfits.2
    rw [← skipBlanks_map] at hrest
    exact except_bind_ok.mpr ⟨_, hrest, rfl⟩
  · cases h

theorem scansMembers_succ (hvalue : ScansValues limits fuel)
    (hmembers : ScansMembers limits fuel) : ScansMembers limits (fuel + 1) := by
  intro depth l members rest h hfits
  cases l with
  | nil =>
    rw [JsonValue.readMembers] at h
    · cases h
    · intro _ _ _ hsplit
      cases hsplit
  | cons c l =>
    by_cases hquote : c = '"'
    · subst hquote
      rw [JsonValue.readMembers] at h
      rw [List.map_cons, scanMembers]
      obtain ⟨⟨key, rest₁⟩, hkey, h⟩ := Option.bind_eq_some_iff.mp h
      refine except_bind_ok.mpr ⟨_, orValueError_ok.mpr (scanString_of_readString hkey), ?_⟩
      dsimp only at h ⊢
      rw [skipBlanks_map]
      have hname : CodePoints.ofString (String.ofList key) = key.map .char := by
        rw [CodePoints.ofString, String.toList_ofList]
      generalize JsonValue.skipBlanks rest₁ = after at h ⊢
      split at h
      · obtain ⟨⟨value, rest₂⟩, hread, h⟩ := Option.bind_eq_some_iff.mp h
        dsimp only at h
        show (scanValue limits fuel depth (skipBlanks (List.map .char _))).bind _ = _
        rw [skipBlanks_map]
        generalize hafter : JsonValue.skipBlanks rest₂ = after₂ at h
        have hscanned := skipBlanks_map rest₂
        rw [hafter] at hscanned
        split at h
        -- the last member
        · cases h
          rw [JsonValue.membersFit, Bool.and_eq_true] at hfits
          refine except_bind_ok.mpr ⟨_, hvalue depth _ _ _ hread hfits.1, ?_⟩
          dsimp only
          rw [hscanned, ofMembers, hname]
          rfl
        -- one that more members follow
        · obtain ⟨⟨members', rest₃⟩, hmore, h⟩ := Option.bind_eq_some_iff.mp h
          cases h
          rw [JsonValue.membersFit, Bool.and_eq_true] at hfits
          refine except_bind_ok.mpr ⟨_, hvalue depth _ _ _ hread hfits.1, ?_⟩
          dsimp only
          rw [hscanned, ofMembers, hname]
          have hrest := hmembers depth _ _ _ hmore hfits.2
          rw [← skipBlanks_map] at hrest
          exact except_bind_ok.mpr ⟨_, hrest, rfl⟩
        · cases h
      · cases h
    · rw [JsonValue.readMembers] at h
      · cases h
      · intro _ _ _ hsplit
        exact hquote (List.cons.inj hsplit).1

/-- What is read and fits is scanned, whatever the fuel. -/
theorem scan_of_read (limits : ReadLimits) (fuel : Nat) :
    ScansValues limits fuel ∧ ScansItems limits fuel ∧ ScansMembers limits fuel := by
  induction fuel with
  | zero =>
    refine ⟨fun depth l value rest h _ => ?_, fun depth l items rest h _ => ?_,
      fun depth l members rest h _ => ?_⟩
    · rw [JsonValue.readValue] at h
      cases h
    · rw [JsonValue.readItems] at h
      cases h
    · rw [JsonValue.readMembers] at h
      · cases h
      · intro _ _ hfuel
        cases hfuel
  | succ fuel ih =>
    obtain ⟨hvalue, hitems, hmembers⟩ := ih
    exact ⟨scansValues_succ hitems hmembers, scansItems_succ hvalue hitems,
      scansMembers_succ hvalue hmembers⟩

end Scan

theorem loadsWithin_of_loads {limits : ReadLimits} {text : String} {value : JsonValue}
    (h : JsonValue.loads text = some value) (hfits : value.fits limits limits.nesting = true) :
    loadsWithin limits (.ofString text) = .ok (ofValue value) := by
  unfold JsonValue.loads at h
  split at h
  · rename_i value' rest hread
    split_ifs at h with hend
    cases h
    unfold loadsWithin CodePoints.ofString
    rw [List.length_map, String.length_toList, skipBlanks_map,
      (scan_of_read limits _).1 _ _ _ _ hread hfits]
    show (if skipBlanks (rest.map .char) = [] then pure (ofValue value) else _) = _
    rw [skipBlanks_map, hend]
    rfl
  · cases h

end ScannedJson

end OpenMemory.Lib
