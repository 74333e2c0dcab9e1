import OpenMemory.Application.Reference
import OpenMemory.Cloud.EncryptedMemory
import OpenMemory.Lib.Sha256

/-!
# What the worker takes from the standard library

The worker signs with HMAC-SHA-256, and it writes ids, datetimes and counters as texts that it reads
back after a restart. Signing is a definition (`hmacHexdigest`). How an arbitrary object prints and
what the readers make of arbitrary texts never decides anything, so these are fields of
`WorkerLibrary`; constrained is that each reader inverts the printer.

The instance on rational numbers has a reader for every text that `isoformat` prints, with a
fraction or without, in any offset or in none (`readIsoformat_isoformat`), and one for `str(uuid)`
(`readUuid_str`).
-/

namespace OpenMemory.Worker

open Lib Cloud

/-! ## Signing -/

/-- `hmac.new(secret, message, hashlib.sha256).hexdigest()`. -/
def hmacHexdigest (secret message : Bytes) : String :=
  String.ofList (Sha256.hmacHexdigest hexDigit (secret.map UInt8.toNat) (message.map UInt8.toNat))

/-- `text.isascii()`. -/
def isAscii (text : String) : Bool := text.toList.all fun c => decide (c.toNat < 128)

theorem isAscii_hmacHexdigest (secret message : Bytes) :
    isAscii (hmacHexdigest secret message) = true := by
  have hdigits : ∀ n < 16, (hexDigit n).toNat < 128 := by decide
  refine List.all_eq_true.mpr fun c hc => decide_eq_true ?_
  rw [hmacHexdigest, String.toList_ofList] at hc
  obtain ⟨n, hn, rfl⟩ := Sha256.mem_hexdigest hc
  exact hdigits n hn

/-- `hmac.compare_digest` on texts, `none` for `TypeError`: both must be ASCII. -/
def compareDigest (a b : String) : Option Bool :=
  if isAscii a && isAscii b then some (decide (a = b)) else none

/-! ## Printing and reading -/

/-- A dict of texts and integers under texts. -/
def IsPlain {R : Type} (d : PyDict R) : Prop :=
  ∀ e ∈ d, ∃ key, e.1 = .str key ∧ ((∃ s, e.2 = .str s) ∨ ∃ n, e.2 = .int n)

class WorkerLibrary (R : Type) where
  /-- `str(value)`. -/
  str : PyObj R → String
  /-- `int(text)`, `none` for `ValueError`. -/
  int : String → Option Int
  /-- `json.dumps(value, sort_keys=True, separators=(",", ":"))`, `none` for what it raises. -/
  dumps : PyDict R → Option String
  /-- `UUID(text)`, `none` for `ValueError`. -/
  parseUuid : String → Option UUID
  /-- `datetime.fromisoformat`, `none` for `ValueError`. -/
  fromisoformat : String → Option DateTime
  str_str : ∀ s, str (.str s) = s
  int_str : ∀ n : Int, int (str (.int n)) = some n
  isSome_dumps : ∀ d, IsPlain d → (dumps d).isSome = true
  parseUuid_str : ∀ u : UUID, parseUuid u.str = some u
  fromisoformat_isoformat : ∀ d : DateTime, fromisoformat d.isoformat = some d

/-! ## A reader of ISO texts -/

/-- The number at the front of a text. -/
def readNat (l : List Char) : Nat × List Char :=
  (Nat.ofDigitChars 10 (l.takeWhile Char.isDigit) 0, l.dropWhile Char.isDigit)

/-- The text goes on with something that is no digit. -/
def StopsDigits (l : List Char) : Prop := ∀ c ∈ l.head?, c.isDigit = false

/-- Padded digits are read back. -/
theorem readNat_padded (width n : Nat) {rest : List Char} (h : StopsDigits rest) :
    readNat (padded width n ++ rest) = (n, rest) := by
  have hdigits : ∀ c ∈ padded width n, c.isDigit = true := fun c => isDigit_of_mem_padded
  have htake : rest.takeWhile Char.isDigit = [] := by
    cases rest with
    | nil => rfl
    | cons c rest => simp [h c rfl]
  have hdrop : rest.dropWhile Char.isDigit = rest := by
    cases rest with
    | nil => rfl
    | cons c rest => simp [h c rfl]
  unfold readNat
  rw [List.takeWhile_append_of_pos hdigits, List.dropWhile_append_of_pos hdigits, htake, hdrop,
    List.append_nil, ofDigitChars_padded]

/-- The fraction of a second, if there is one. -/
def readFraction : List Char → Nat × List Char
  | '.' :: l => readNat l
  | l => (0, l)

/-- The fraction of `isoformat` is read back. -/
theorem readFraction_text (micros : Nat) {rest : List Char} (h : StopsDigits rest)
    (hdot : rest.head? ≠ some '.') : readFraction (fractionText micros ++ rest) = (micros, rest) := by
  unfold fractionText
  by_cases hzero : micros = 0
  · rw [if_pos hzero, hzero, List.nil_append]
    unfold readFraction
    split
    · exact absurd rfl hdot
    · rfl
  · rw [if_neg hzero]
    exact readNat_padded 6 micros h

/-- The seconds of an offset, if there are any. -/
def readSeconds : List Char → Nat × List Char
  | ':' :: l => readNat l
  | l => (0, l)

/-- The offset at the end of a text. -/
def readOffset : List Char → Option Int
  | [] => none
  | sign :: l =>
    let (hour, l) := readNat l
    let (minute, l) := readNat l.tail
    let (second, l) := readSeconds l
    let (micros, _) := readFraction l
    let magnitude := ((hour * 60 + minute) * 60 + second) * 1000000 + micros
    some (if sign = '-' then -(magnitude : Int) else magnitude)

/-- Wall clock and offset of a text. -/
def readIsoChars (l : List Char) : Nat × Option Int :=
  let (year, l) := readNat l
  let (month, l) := readNat l.tail
  let (day, l) := readNat l.tail
  let (hour, l) := readNat l.tail
  let (minute, l) := readNat l.tail
  let (second, l) := readNat l.tail
  let (micros, l) := readFraction l
  (wallOf year month day hour minute second micros, readOffset l)

/-- `datetime.fromisoformat` on the texts that `isoformat` prints. -/
def readIsoformat (text : String) : Option DateTime :=
  let (wall, offset) := readIsoChars text.toList
  if h : (wall : Int) < maxWall ∧
      offset.all (fun off => decide (off.natAbs < dayMicros)) = true then
    let value : DateTime :=
      { wall := wall, offset := offset, wall_nonneg := Int.natCast_nonneg wall, wall_lt := h.1
        offset_lt := h.2 }
    if value.isoformat = text then some value else none
  else none

theorem stopsDigits_nil : StopsDigits [] := by
  intro c hc
  cases hc

theorem stopsDigits_cons {c : Char} (h : c.isDigit = false) (l : List Char) :
    StopsDigits (c :: l) := by
  intro c' hc'
  cases hc'
  exact h

/-- The offset is read back. -/
theorem readOffset_text (off : Int) : readOffset (offsetText (some off)) = some off := by
  have hcolon : ∀ l, StopsDigits (':' :: l) := stopsDigits_cons rfl
  have hsign : ∀ n : Nat, off.natAbs = n →
      (if (if off < 0 then '-' else '+') = '-' then -(n : Int) else n) = off := by
    intro n hn
    by_cases hneg : off < 0
    · rw [if_pos hneg, if_pos rfl]
      omega
    · rw [if_neg hneg, if_neg (by decide)]
      omega
  unfold offsetText readOffset
  dsimp only
  rw [readNat_padded 2 _ (hcolon _)]
  dsimp only [List.tail_cons]
  by_cases hminutes : off.natAbs % 60000000 = 0
  · -- whole minutes: the text ends after them
    rw [if_pos hminutes, readNat_padded 2 _ stopsDigits_nil]
    refine congrArg some (hsign _ ?_)
    show off.natAbs = ((_ * 60 + _) * 60 + 0) * 1000000 + 0
    omega
  · have hstop : StopsDigits (fractionText (off.natAbs % 1000000)) := by
      unfold fractionText
      split
      · exact stopsDigits_nil
      · exact stopsDigits_cons rfl _
    have hfraction := readFraction_text (off.natAbs % 1000000) stopsDigits_nil (by simp)
    rw [List.append_nil] at hfraction
    have hseconds : readSeconds (':' :: (padded 2 (off.natAbs / 1000000 % 60) ++
        fractionText (off.natAbs % 1000000))) = _ := readNat_padded 2 _ hstop
    rw [if_neg hminutes, readNat_padded 2 _ (hcolon _)]
    dsimp only
    rw [hseconds]
    dsimp only
    rw [hfraction]
    refine congrArg some (hsign _ ?_)
    omega

theorem stopsDigits_offsetText (offset : Option Int) : StopsDigits (offsetText offset) := by
  cases offset with
  | none => exact stopsDigits_nil
  | some off =>
    refine stopsDigits_cons ?_ _
    split <;> rfl

theorem head?_offsetText_ne_dot (offset : Option Int) : (offsetText offset).head? ≠ some '.' := by
  cases offset with
  | none => simp [offsetText]
  | some off =>
    unfold offsetText
    rw [List.head?_cons]
    split <;> decide

/-- `fromisoformat` reads what `isoformat` writes. -/
theorem readIsoChars_isoChars (d : DateTime) :
    readIsoChars d.isoChars = (d.wall.toNat, d.offset) := by
  have hsep : ∀ {c : Char}, c.isDigit = false → ∀ l, StopsDigits (c :: l) := stopsDigits_cons
  have hrest : StopsDigits (fractionText (d.wall.toNat % dayMicros % 1000000) ++
      offsetText d.offset) := by
    unfold fractionText
    split
    · exact stopsDigits_offsetText d.offset
    · exact stopsDigits_cons rfl _
  have hoffset : readOffset (offsetText d.offset) = d.offset := by
    cases hoff : d.offset with
    | none => rfl
    | some off => exact readOffset_text off
  unfold readIsoChars DateTime.isoChars clockText
  simp only [List.append_assoc, List.cons_append]
  rw [readNat_padded 4 _ (hsep rfl _)]
  dsimp only [List.tail_cons]
  rw [readNat_padded 2 _ (hsep rfl _)]
  dsimp only [List.tail_cons]
  rw [readNat_padded 2 _ (hsep rfl _)]
  dsimp only [List.tail_cons]
  rw [readNat_padded 2 _ (hsep rfl _)]
  dsimp only [List.tail_cons]
  rw [readNat_padded 2 _ (hsep rfl _)]
  dsimp only [List.tail_cons]
  rw [readNat_padded 2 _ hrest]
  dsimp only
  rw [readFraction_text _ (stopsDigits_offsetText d.offset) (head?_offsetText_ne_dot d.offset)]
  dsimp only
  rw [hoffset, wallOf_isoChars]

/-- The fields of a value make it up again. -/
theorem readIsoformat_of {d : DateTime} {wall : Nat} (hwall : (wall : Int) = d.wall)
    (hread : readIsoChars d.isoformat.toList = (wall, d.offset)) :
    readIsoformat d.isoformat = some d := by
  obtain ⟨wall', offset, h₀, h₁, h₂⟩ := d
  obtain rfl : (wall : Int) = wall' := hwall
  unfold readIsoformat
  rw [hread]
  dsimp only
  rw [dif_pos ⟨h₁, h₂⟩]
  exact if_pos rfl

/-- Reading inverts printing. -/
theorem readIsoformat_isoformat (d : DateTime) : readIsoformat d.isoformat = some d := by
  refine readIsoformat_of (Int.toNat_of_nonneg d.wall_nonneg) ?_
  rw [DateTime.isoformat, String.toList_ofList]
  exact readIsoChars_isoChars d

/-! ## A reader of ids -/

theorem hexValue_hexDigit {n : Nat} (h : n < 16) : hexValue (hexDigit n) = some n := by
  have hall : ∀ n < 16, hexValue (hexDigit n) = some n := by decide
  exact hall n h

/-- The digits of a number, most significant first, add up to it. -/
theorem foldl_digits (n k acc : Nat) :
    ((List.range k).map fun i => n / 16 ^ (k - 1 - i) % 16).foldl (fun sofar v => 16 * sofar + v) acc
      = acc * 16 ^ k + n % 16 ^ k := by
  induction k generalizing acc with
  | zero => simp [Nat.mod_one]
  | succ k ih =>
    have hrest : ((List.range k).map Nat.succ).map (fun i => n / 16 ^ (k + 1 - 1 - i) % 16) =
        (List.range k).map fun i => n / 16 ^ (k - 1 - i) % 16 := by
      rw [List.map_map]
      refine List.map_congr_left fun i _ => ?_
      show n / 16 ^ (k + 1 - 1 - (i + 1)) % 16 = _
      rw [show k + 1 - 1 - (i + 1) = k - 1 - i by omega]
    rw [List.range_succ_eq_map, List.map_cons, List.foldl_cons, hrest, ih,
      show k + 1 - 1 - 0 = k by omega, Nat.mod_pow_succ, pow_succ]
    ring

theorem mapM_hexValue {ns : List Nat} (h : ∀ n ∈ ns, n < 16) :
    (ns.map hexDigit).mapM hexValue = some ns := by
  induction ns with
  | nil => rfl
  | cons n ns ih =>
    rw [List.map_cons, List.mapM_cons, hexValue_hexDigit (h n List.mem_cons_self),
      ih fun m hm => h m (List.mem_cons_of_mem _ hm)]
    rfl

/-- `UUID` reads what `str` writes. -/
theorem readUuid_str (u : UUID) : readUuid u.str = some u := by
  have hdigits : ∀ n ∈ (List.range 32).map (fun i => u.int.val / 16 ^ (31 - i) % 16), n < 16 := by
    intro n hn
    obtain ⟨i, -, rfl⟩ := List.mem_map.mp hn
    exact Nat.mod_lt _ (by decide)
  have hmap : u.str.toList.filter (fun c => decide (c ≠ '-')) =
      ((List.range 32).map fun i => u.int.val / 16 ^ (31 - i) % 16).map hexDigit := by
    rw [UUID.filter_str, List.map_map]
    rfl
  have hsum := foldl_digits u.int.val 32 0
  rw [Nat.zero_mul, Nat.zero_add, Nat.mod_eq_of_lt (show u.int.val < 16 ^ 32 from u.int.isLt)] at hsum
  unfold readUuid
  rw [hmap]
  dsimp only
  rw [if_pos (by simp), mapM_hexValue hdigits, Option.map_some, hsum]
  exact congrArg (fun i => some (UUID.mk i)) (Fin.ofNat_val_eq_self u.int)

/-! ## The library on rational numbers -/

/-- `str`, where only texts, integers, booleans and `None` are told apart. -/
def printObj : PyObj ℚ → String
  | .none => "None"
  | .bool b => if b then "True" else "False"
  | .int n => n.repr
  | .float x => fixedDecimal 6 x
  | .str s => s
  | .bytes _ => "b''"
  | .list _ => "[...]"
  | .dict _ => "\x7b...\x7d"

/-- A member of a plain dict. -/
def plainMember : PyKey × PyObj ℚ → Option (String × JsonValue)
  | (.str key, .str s) => some (key, .str s)
  | (.str key, .int n) => some (key, .int n)
  | _ => none

/-- `json.dumps` of a plain dict. -/
def dumpsPlain (d : PyDict ℚ) : Option String :=
  (d.mapM plainMember).map fun members =>
    (JsonValue.obj (members.insertionSort fun a b => a.1 ≤ b.1)).dumpsCompact

/-- Plain values can be dumped. -/
theorem isSome_dumpsPlain {d : PyDict ℚ} (h : IsPlain d) : (dumpsPlain d).isSome = true := by
  suffices hmembers : ∃ members, d.mapM plainMember = some members by
    obtain ⟨members, hmembers⟩ := hmembers
    rw [dumpsPlain, hmembers]
    rfl
  induction d with
  | nil => exact ⟨[], rfl⟩
  | cons e d ih =>
    obtain ⟨members, hmembers⟩ := ih fun e' he' => h e' (List.mem_cons_of_mem _ he')
    obtain ⟨key, value⟩ := e
    obtain ⟨key', hkey, hvalue⟩ := h (key, value) List.mem_cons_self
    obtain rfl : key = .str key' := hkey
    rcases hvalue with ⟨s, hs⟩ | ⟨n, hn⟩
    · obtain rfl : value = .str s := hs
      rw [List.mapM_cons, hmembers]
      exact ⟨_, rfl⟩
    · obtain rfl : value = .int n := hn
      rw [List.mapM_cons, hmembers]
      exact ⟨_, rfl⟩

instance : WorkerLibrary ℚ where
  str := printObj
  int := String.toInt?
  dumps := dumpsPlain
  parseUuid := readUuid
  fromisoformat := readIsoformat
  str_str _ := rfl
  int_str n := Int.toInt?_repr n
  isSome_dumps _ h := isSome_dumpsPlain h
  parseUuid_str := readUuid_str
  fromisoformat_isoformat := readIsoformat_isoformat

end OpenMemory.Worker
