import Mathlib

/-!
# Python text

The `str` operations a validator meets, over Lean strings (sequences of Unicode
scalar values, as Python strings without lone surrogates are): `strip`,
`split` without a separator, `join`, the normal form `" ".join(s.split())`, and
`replace`.

Two notions of whitespace are kept apart. `isSpace` is `str.isspace`; `isTrimmed`
is the Unicode `White_Space` property, which validators built on other runtimes
trim by. They differ on the four separators `U+001C`–`U+001F`.
-/

namespace OpenMemory.Lib

/-- `str.isspace` for one character. -/
def isSpace (c : Char) : Bool :=
  let n := c.toNat
  (9 ≤ n && n ≤ 13) || (28 ≤ n && n ≤ 32) || n == 0x85 || n == 0xA0 || n == 0x1680 ||
    (0x2000 ≤ n && n ≤ 0x200A) || n == 0x2028 || n == 0x2029 || n == 0x202F || n == 0x205F ||
    n == 0x3000

/-- The Unicode `White_Space` property: `isSpace` without `U+001C`–`U+001F`. -/
def isTrimmed (c : Char) : Bool := isSpace c && !(28 ≤ c.toNat && c.toNat ≤ 31)

/-- Drop the characters satisfying `p` at both ends. -/
def trimBoth (p : Char → Bool) (s : String) : String :=
  String.ofList ((s.toList.dropWhile p).reverse.dropWhile p).reverse

/-- `s.strip()`. -/
def strip (s : String) : String := trimBoth isSpace s

/-- The maximal runs of non-whitespace characters: `s.split()`. -/
def split (s : String) : List String :=
  ((s.toList.splitOnP isSpace).filter fun w => !w.isEmpty).map String.ofList

/-- `re.findall` of one or more characters of a class: their maximal runs. -/
def findall (p : Char → Bool) (s : String) : List String :=
  ((s.toList.splitOnP fun c => !p c).filter fun w => !w.isEmpty).map String.ofList

/-- What a tokenizer takes from the Unicode database: `str.casefold`, and `\w`. -/
structure UnicodeDatabase where
  casefold : String → String
  isWord : Char → Bool

/-- `" ".join(words)`. -/
def joinSpace (words : List String) : String := " ".intercalate words

/-- `" ".join(s.split())`: one space between words, none at the ends. -/
def collapse (s : String) : String := joinSpace (split s)

/-! ## The word laws -/

/-- `split`, on characters. -/
def wordsOf (l : List Char) : List (List Char) :=
  (l.splitOnP isSpace).filter fun w => !w.isEmpty

theorem split_eq_map_wordsOf (s : String) : split s = (wordsOf s.toList).map String.ofList := rfl

/-- A piece between separators contains none. -/
theorem not_sep_of_mem_splitOnP {p : Char → Bool} {l w : List Char}
    (hw : w ∈ l.splitOnP p) {c : Char} (hc : c ∈ w) : p c = false := by
  induction l generalizing w with
  | nil =>
    rw [List.splitOnP_nil, List.mem_singleton] at hw
    subst hw
    cases hc
  | cons x xs ih =>
    rw [List.splitOnP_cons_eq_if_modifyHead] at hw
    by_cases hx : p x = true
    · rw [if_pos hx] at hw
      rcases List.mem_cons.mp hw with rfl | hw
      · cases hc
      · exact ih hw hc
    · rw [if_neg hx] at hw
      cases hs : xs.splitOnP p with
      | nil => exact absurd hs (List.splitOnP_ne_nil p xs)
      | cons y ys =>
        rw [hs] at hw ih
        rcases List.mem_cons.mp hw with rfl | hw
        · rcases List.mem_cons.mp hc with rfl | hc
          · exact Bool.eq_false_iff.mpr hx
          · exact ih List.mem_cons_self hc
        · exact ih (List.mem_cons_of_mem _ hw) hc

/-- The words are not empty and hold no blank. -/
theorem wordsOf_spec {l w : List Char} (hw : w ∈ wordsOf l) :
    w ≠ [] ∧ ∀ c ∈ w, isSpace c = false := by
  obtain ⟨hmem, hne⟩ := List.mem_filter.mp hw
  exact ⟨by simpa using hne, fun c hc => not_sep_of_mem_splitOnP hmem hc⟩

/-- Splitting a join of words gives the words back. -/
theorem wordsOf_intercalate {ws : List (List Char)}
    (h : ∀ w ∈ ws, w ≠ [] ∧ ∀ c ∈ w, isSpace c = false) :
    wordsOf ([' '].intercalate ws) = ws := by
  induction ws with
  | nil => rfl
  | cons w rest ih =>
    obtain ⟨hne, hw⟩ := h w List.mem_cons_self
    have ih' := ih fun v hv => h v (List.mem_cons_of_mem _ hv)
    have hkeep : (!w.isEmpty) = true := by simpa using hne
    cases rest with
    | nil =>
      rw [List.intercalate_singleton, wordsOf, List.splitOnP_eq_singleton hw]
      simp [hne]
    | cons v rest =>
      rw [List.intercalate_cons_cons, List.append_assoc]
      show wordsOf (w ++ ' ' :: [' '].intercalate (v :: rest)) = _
      rw [wordsOf, List.splitOnP_append_cons_of_forall_mem hw ' ' rfl,
        List.filter_cons_of_pos (by simpa using hne)]
      exact congrArg (w :: ·) ih'

theorem toList_collapse (s : String) :
    (collapse s).toList = [' '].intercalate (wordsOf s.toList) := by
  rw [collapse, joinSpace, String.toList_intercalate, split_eq_map_wordsOf, List.map_map]
  have hid : (String.toList ∘ String.ofList) = id := funext fun l => String.toList_ofList
  rw [hid, List.map_id]
  rfl

/-- Collapsing blanks keeps the words. -/
theorem split_collapse (s : String) : split (collapse s) = split s := by
  rw [split_eq_map_wordsOf, toList_collapse,
    wordsOf_intercalate fun w hw => wordsOf_spec hw, ← split_eq_map_wordsOf]

/-- Collapsing whitespace is idempotent. -/
@[simp] theorem collapse_collapse (s : String) : collapse (collapse s) = collapse s := by
  rw [collapse, split_collapse]
  rfl

/-! ## Blankness -/

/-- Trimming leaves nothing exactly when every character is trimmed. -/
theorem trimBoth_eq_empty_iff (p : Char → Bool) (s : String) :
    trimBoth p s = "" ↔ ∀ c ∈ s.toList, p c = true := by
  rw [trimBoth, ← String.toList_inj, String.toList_ofList]
  show (List.reverse _) = [] ↔ _
  rw [List.reverse_eq_nil_iff, List.dropWhile_eq_nil_iff]
  constructor
  · intro h
    by_contra hcon
    push Not at hcon
    obtain ⟨c, hc, hpc⟩ := hcon
    -- the first kept character survives the left trim
    have hne : s.toList.dropWhile p ≠ [] := fun hnil =>
      hpc (List.dropWhile_eq_nil_iff.mp hnil c hc)
    have hhead := List.head_dropWhile_not p hne
    have := h _ (List.mem_reverse.mpr (List.head_mem hne))
    rw [this] at hhead
    cases hhead
  · intro h c hc
    exact h c ((List.dropWhile_sublist p).subset (List.mem_reverse.mp hc))

/-- A text without words is blank. -/
theorem wordsOf_eq_nil_iff (l : List Char) : wordsOf l = [] ↔ ∀ c ∈ l, isSpace c = true := by
  induction l with
  | nil => simp [wordsOf, List.splitOnP_nil]
  | cons x xs ih =>
    rw [wordsOf, List.splitOnP_cons_eq_if_modifyHead]
    by_cases hx : isSpace x = true
    · rw [if_pos hx]
      simpa [hx, wordsOf] using ih
    · rw [if_neg hx]
      cases hs : xs.splitOnP isSpace with
      | nil => exact absurd hs (List.splitOnP_ne_nil _ xs)
      | cons y ys => simp [hx]

/-- Stripping leaves nothing exactly when there are no words. -/
theorem strip_eq_empty_iff (s : String) : strip s = "" ↔ split s = [] := by
  rw [strip, trimBoth_eq_empty_iff, split_eq_map_wordsOf, List.map_eq_nil_iff,
    wordsOf_eq_nil_iff]

/-- Collapsing keeps a text blank or non-blank. -/
theorem strip_collapse_eq_empty_iff (s : String) : strip (collapse s) = "" ↔ strip s = "" := by
  rw [strip_eq_empty_iff, split_collapse, ← strip_eq_empty_iff]

/-! ## Trimming -/

theorem dropWhile_eq_self {p : Char → Bool} {l : List Char}
    (h : ∀ c, l.head? = some c → p c = false) : l.dropWhile p = l := by
  cases l with
  | nil => rfl
  | cons c rest => rw [List.dropWhile_cons_of_neg (by simp [h c rfl])]

/-- A text whose ends are kept is left alone. -/
theorem trimBoth_eq_self {p : Char → Bool} {s : String}
    (hhead : ∀ c, s.toList.head? = some c → p c = false)
    (hlast : ∀ c, s.toList.getLast? = some c → p c = false) : trimBoth p s = s := by
  rw [trimBoth, dropWhile_eq_self hhead, dropWhile_eq_self, List.reverse_reverse,
    String.ofList_toList]
  intro c hc
  exact hlast c (by rwa [List.head?_reverse] at hc)

/-- Nothing is trimmed where nothing is to be trimmed. -/
theorem trimBoth_eq_self_of_forall {p : Char → Bool} {s : String}
    (h : ∀ c ∈ s.toList, p c = false) : trimBoth p s = s :=
  trimBoth_eq_self (fun c hc => h c (List.mem_of_mem_head? hc))
    fun c hc => h c (List.mem_of_mem_getLast? hc)

/-- Trimming twice is trimming once. -/
@[simp] theorem trimBoth_trimBoth (p : Char → Bool) (s : String) :
    trimBoth p (trimBoth p s) = trimBoth p s := by
  refine trimBoth_eq_self (fun c hc => ?_) fun c hc => ?_
  · -- what is left of the left trim after the right trim is a prefix of it
    rw [trimBoth, String.toList_ofList] at hc
    have hsuffix := List.dropWhile_suffix p (l := (s.toList.dropWhile p).reverse)
    obtain ⟨rest, hrest⟩ := List.reverse_prefix.mpr hsuffix
    have hhead : (s.toList.dropWhile p).head? = some c := by
      rw [List.reverse_reverse] at hrest
      rw [← hrest, List.head?_append, hc]
      rfl
    have hfirst := List.head?_dropWhile_not p s.toList
    rw [hhead] at hfirst
    exact hfirst
  · rw [trimBoth, String.toList_ofList, List.getLast?_reverse] at hc
    have hfirst := List.head?_dropWhile_not p (s.toList.dropWhile p).reverse
    rw [hc] at hfirst
    exact hfirst

/-- Trimming does not lengthen. -/
theorem length_trimBoth_le (p : Char → Bool) (s : String) :
    (trimBoth p s).length ≤ s.length := by
  rw [trimBoth, ← String.length_toList, ← String.length_toList, String.toList_ofList,
    List.length_reverse]
  calc ((s.toList.dropWhile p).reverse.dropWhile p).length
      ≤ (s.toList.dropWhile p).reverse.length := (List.dropWhile_sublist p).length_le
    _ = (s.toList.dropWhile p).length := List.length_reverse
    _ ≤ s.toList.length := (List.dropWhile_sublist p).length_le

theorem getLast?_intercalate {ws : List (List Char)}
    (h : ∀ w ∈ ws, w ≠ [] ∧ ∀ c ∈ w, isSpace c = false) {c : Char}
    (hc : ([' '].intercalate ws).getLast? = some c) : isSpace c = false := by
  induction ws with
  | nil => cases hc
  | cons w rest ih =>
    obtain ⟨hw, hrest⟩ := List.forall_mem_cons.mp h
    cases rest with
    | nil =>
      rw [List.intercalate_singleton] at hc
      exact hw.2 c (List.mem_of_mem_getLast? hc)
    | cons v rest =>
      rw [List.intercalate_cons_cons] at hc
      have hne : [' '].intercalate (v :: rest) ≠ [] := by
        intro hnil
        have hwords := wordsOf_intercalate hrest
        rw [hnil] at hwords
        cases hwords
      rw [List.getLast?_append_of_ne_nil _ hne] at hc
      exact ih hrest hc

theorem head?_intercalate {ws : List (List Char)}
    (h : ∀ w ∈ ws, w ≠ [] ∧ ∀ c ∈ w, isSpace c = false) {c : Char}
    (hc : ([' '].intercalate ws).head? = some c) : isSpace c = false := by
  cases ws with
  | nil => cases hc
  | cons w rest =>
    obtain ⟨hne, hw⟩ := h w List.mem_cons_self
    obtain ⟨x, xs, rfl⟩ := List.exists_cons_of_ne_nil hne
    have hx : c = x := by
      cases rest with
      | nil => simpa [eq_comm] using hc
      | cons v rest => simpa [List.intercalate_cons_cons, eq_comm] using hc
    rw [hx]
    exact hw x List.mem_cons_self

/-- A normalised text has nothing to trim. -/
theorem trimBoth_collapse (s : String) : trimBoth isTrimmed (collapse s) = collapse s := by
  have hkeep : ∀ c, isSpace c = false → isTrimmed c = false := fun c hc => by
    simp [isTrimmed, hc]
  refine trimBoth_eq_self (fun c hc => hkeep c ?_) fun c hc => hkeep c ?_
  · rw [toList_collapse] at hc
    exact head?_intercalate (fun w hw => wordsOf_spec hw) hc
  · rw [toList_collapse] at hc
    exact getLast?_intercalate (fun w hw => wordsOf_spec hw) hc

/-- The characters of a text and its separators. -/
theorem length_splitOnP (p : Char → Bool) (l : List Char) :
    ((l.splitOnP p).map fun w => w.length + 1).sum = l.length + 1 := by
  induction l with
  | nil => simp [List.splitOnP_nil]
  | cons x xs ih =>
    rw [List.splitOnP_cons_eq_if_modifyHead]
    by_cases hx : p x = true
    · rw [if_pos hx, List.map_cons, List.sum_cons, ih, List.length_cons]
      simp
      omega
    · rw [if_neg hx]
      cases hs : xs.splitOnP p with
      | nil => exact absurd hs (List.splitOnP_ne_nil p xs)
      | cons y ys =>
        rw [hs] at ih
        simp at ih ⊢
        omega

theorem length_intercalate_le (ws : List (List Char)) :
    ([' '].intercalate ws).length ≤ (ws.map fun w => w.length + 1).sum - 1 := by
  induction ws with
  | nil => simp
  | cons w rest ih =>
    cases rest with
    | nil => simp
    | cons v rest =>
      rw [List.intercalate_cons_cons]
      simp at ih ⊢
      omega

/-- Normalising never lengthens. -/
theorem length_collapse_le (s : String) : (collapse s).length ≤ s.length := by
  rw [← String.length_toList, ← String.length_toList, toList_collapse]
  have hwords := length_intercalate_le (wordsOf s.toList)
  have hall := length_splitOnP isSpace s.toList
  have hsub : ((wordsOf s.toList).map fun w => w.length + 1).sum
      ≤ ((s.toList.splitOnP isSpace).map fun w => w.length + 1).sum :=
    (List.Sublist.map _ List.filter_sublist).sum_le_sum fun _ _ => Nat.zero_le _
  omega

/-! ## Replacing -/

/-- The scan of `s.replace(old, new)`, with characters of an occurrence still to skip. -/
def replaceFrom (old new : List Char) : Nat → List Char → List Char
  | _, [] => []
  | skip + 1, _ :: rest => replaceFrom old new skip rest
  | 0, c :: rest =>
    if old.isPrefixOf (c :: rest) then new ++ replaceFrom old new (old.length - 1) rest
    else c :: replaceFrom old new 0 rest

/-- `s.replace(old, new)` for a non-empty `old`. -/
def replace (old new s : String) : String :=
  String.ofList (replaceFrom old.toList new.toList 0 s.toList)

theorem mem_replaceFrom {old new : List Char} {c : Char} {skip : Nat} {l : List Char}
    (h : c ∈ replaceFrom old new skip l) : c ∈ l ∨ c ∈ new := by
  induction l generalizing skip with
  | nil => cases skip <;> cases h
  | cons x rest ih =>
    cases skip with
    | succ skip => exact (ih h).imp_left (List.mem_cons_of_mem _)
    | zero =>
      unfold replaceFrom at h
      by_cases hpre : old.isPrefixOf (x :: rest) = true
      · rw [if_pos hpre] at h
        rcases List.mem_append.mp h with h | h
        · exact .inr h
        · exact (ih h).imp_left (List.mem_cons_of_mem _)
      · rw [if_neg hpre] at h
        rcases List.mem_cons.mp h with rfl | h
        · exact .inl List.mem_cons_self
        · exact (ih h).imp_left (List.mem_cons_of_mem _)

/-- A replacement that is no longer than what it replaces does not lengthen. -/
theorem length_replaceFrom_le {old new : List Char} (hnew : new.length ≤ old.length)
    (hold : old ≠ []) (skip : Nat) (l : List Char) :
    (replaceFrom old new skip l).length ≤ (l.drop skip).length := by
  have hpos : 0 < old.length := List.length_pos_iff.mpr hold
  induction l generalizing skip with
  | nil => cases skip <;> simp [replaceFrom]
  | cons x rest ih =>
    cases skip with
    | succ skip => exact ih skip
    | zero =>
      unfold replaceFrom
      by_cases hpre : old.isPrefixOf (x :: rest) = true
      · have hle := (List.isPrefixOf_iff_prefix.mp hpre).length_le
        have hrec := ih (old.length - 1)
        rw [if_pos hpre, List.length_append]
        simp only [List.length_drop, List.length_cons] at hrec hle ⊢
        omega
      · have hrec := ih 0
        rw [if_neg hpre]
        simpa using hrec

/-- Reading back a character that stands for `old`. -/
theorem replaceFrom_char {z : Char} {old : List Char} (l : List Char) :
    replaceFrom [z] old 0 l = l.flatMap fun c => if c = z then old else [c] := by
  induction l with
  | nil => rfl
  | cons c rest ih =>
    unfold replaceFrom
    by_cases hc : c = z
    · subst hc
      simp [List.isPrefixOf, ih]
    · have hne : (z == c) = false := by simpa using Ne.symm hc
      simp [List.isPrefixOf, hne, hc, ih]

/-- Writing a new character for `old` and reading it back changes nothing. -/
theorem replaceFrom_replaceFrom {z : Char} {old : List Char} (hold : old ≠ []) (skip : Nat)
    {l : List Char} (hz : z ∉ l) :
    (replaceFrom old [z] skip l).flatMap (fun c => if c = z then old else [c]) = l.drop skip := by
  have hpos : 0 < old.length := List.length_pos_iff.mpr hold
  induction l generalizing skip with
  | nil => cases skip <;> rfl
  | cons x rest ih =>
    obtain ⟨hx, hrest⟩ := List.ne_and_not_mem_of_not_mem_cons hz
    cases skip with
    | succ skip => exact ih skip hrest
    | zero =>
      unfold replaceFrom
      by_cases hpre : old.isPrefixOf (x :: rest) = true
      · obtain ⟨tail, htail⟩ := List.isPrefixOf_iff_prefix.mp hpre
        have hdrop : rest.drop (old.length - 1) = tail := by
          have hd : (x :: rest).drop old.length = tail := by rw [← htail, List.drop_left]
          obtain ⟨n, hn⟩ := Nat.exists_eq_succ_of_ne_zero (Nat.pos_iff_ne_zero.mp hpos)
          rw [hn] at hd ⊢
          exact hd
        rw [if_pos hpre, List.flatMap_append, ih (old.length - 1) hrest, hdrop]
        simpa using htail
      · rw [if_neg hpre, List.flatMap_cons, ih 0 hrest, if_neg (Ne.symm hx)]
        rfl

/-- `s.replace(old, z).replace(z, old) == s` when `z` does not occur. -/
theorem replace_replace {z : Char} {old s : String} (hold : old ≠ "") (hz : z ∉ s.toList) :
    replace (String.singleton z) old (replace old (String.singleton z) s) = s := by
  have hne : old.toList ≠ [] := by simpa using hold
  unfold replace
  rw [String.toList_singleton, String.toList_ofList, replaceFrom_char,
    replaceFrom_replaceFrom hne 0 hz, List.drop_zero, String.ofList_toList]

end OpenMemory.Lib
