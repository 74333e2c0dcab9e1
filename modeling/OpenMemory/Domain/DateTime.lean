import OpenMemory.Lib.Text

/-!
# Datetimes and their ISO text

`DateTime` is a wall-clock reading of the years 1–9999 with an optional UTC offset of
less than a day, as `datetime` values are. `isoformat` prints it the way the standard
library does; a value in UTC ends in `+00:00`, which the wire formats write as `Z`.

What the rest relies on: the text contains no `Z` of its own, so that writing the `Z` and
reading it back cancel out (`fromZ_zulu`), no whitespace, and few characters.
-/

namespace OpenMemory

open Lib

/-- Microseconds of a day. -/
def dayMicros : Nat := 86400000000

/-- One past the last microsecond of the year 9999. -/
def maxWall : Int := 315537897600000000

/-- A `datetime`: microseconds of the wall clock since `0001-01-01T00:00`, and the UTC
offset in microseconds (`none` for a naive value). -/
structure DateTime where
  wall : Int
  offset : Option Int
  wall_nonneg : 0 ≤ wall := by decide
  wall_lt : wall < maxWall := by decide
  offset_lt : offset.all (fun off => decide (off.natAbs < dayMicros)) = true := by decide
  deriving DecidableEq, Repr

/-- UTC is an offset of zero. -/
theorem utc_offset_lt :
    (some 0 : Option Int).all (fun off => decide (off.natAbs < dayMicros)) = true := by
  decide

/-- `a == b` on datetimes: aware values compare as instants. -/
def DateTime.pyEq (a b : DateTime) : Bool :=
  match a.offset, b.offset with
  | none, none => decide (a.wall = b.wall)
  | some x, some y => decide (a.wall - x = b.wall - y)
  | _, _ => false

/-! ## Zero-padded numbers -/

/-- `f"{n:0{width}d}"`. -/
def padded (width n : Nat) : List Char :=
  List.replicate (width - (Nat.toDigits 10 n).length) '0' ++ Nat.toDigits 10 n

theorem isDigit_of_mem_padded {width n : Nat} {c : Char} (h : c ∈ padded width n) :
    c.isDigit = true := by
  rcases List.mem_append.mp h with h | h
  · rw [List.eq_of_mem_replicate h]
    rfl
  · exact Nat.isDigit_of_mem_toDigits (by decide) (by decide) h

/-- A padded number reads back. -/
@[simp] theorem ofDigitChars_padded (width n : Nat) :
    Nat.ofDigitChars 10 (padded width n) 0 = n := by
  rw [padded, Nat.ofDigitChars_append, Nat.ofDigitChars_replicate_zero, Nat.mul_zero,
    Nat.ofDigitChars_ten_toDigits]

/-- It is no longer than the padding, or than its digits. -/
theorem length_padded_le {width n k : Nat} (hk : 0 < k) (hwidth : width ≤ k) (hn : n < 10 ^ k) :
    (padded width n).length ≤ k := by
  have hdigits := (Nat.length_toDigits_le_iff (by decide) hk).mpr hn
  rw [padded, List.length_append, List.length_replicate]
  omega

/-! ## The calendar -/

/-- Days before the first of January of a year. -/
def daysBeforeYear (year : Nat) : Nat :=
  (year - 1) * 365 + (year - 1) / 4 - (year - 1) / 100 + (year - 1) / 400

/-- Days of a year before the first of a month. -/
def daysBeforeMonth (year month : Nat) : Nat :=
  ([0, 0, 31, 59, 90, 120, 151, 181, 212, 243, 273, 304, 334].getD month 366) +
    if 2 < month ∧ year % 4 = 0 ∧ (year % 100 ≠ 0 ∨ year % 400 = 0) then 1 else 0

/-- The last index, going up from `k`, at which `before` has not passed `target`. -/
def climb (before : Nat → Nat) (target : Nat) : Nat → Nat → Nat
  | 0, k => k
  | fuel + 1, k => if before (k + 1) ≤ target then climb before target fuel (k + 1) else k

/-- Climbing stops below the target. -/
theorem climb_le {before : Nat → Nat} {target : Nat} (fuel : Nat) {k : Nat}
    (h : before k ≤ target) : before (climb before target fuel k) ≤ target := by
  induction fuel generalizing k with
  | zero => exact h
  | succ fuel ih =>
    unfold climb
    by_cases hnext : before (k + 1) ≤ target
    · rw [if_pos hnext]
      exact ih hnext
    · rw [if_neg hnext]
      exact h

/-- And after as many steps as there is fuel. -/
theorem climb_bound {before : Nat → Nat} {target : Nat} (fuel k : Nat) :
    climb before target fuel k ≤ k + fuel := by
  induction fuel generalizing k with
  | zero => exact le_rfl
  | succ fuel ih =>
    unfold climb
    split
    · exact (ih (k + 1)).trans (by omega)
    · omega

/-- The year of a day number counted from `0001-01-01`. -/
def yearOf (days : Nat) : Nat := climb daysBeforeYear days 30 (days / 366 + 1)

/-- The month of that day. -/
def monthOf (days : Nat) : Nat :=
  climb (daysBeforeMonth (yearOf days)) (days - daysBeforeYear (yearOf days)) 11 1

/-- The day of the month. -/
def dayOf (days : Nat) : Nat :=
  days - daysBeforeYear (yearOf days) - daysBeforeMonth (yearOf days) (monthOf days) + 1

/-- A day is not before its year. -/
theorem daysBeforeYear_yearOf (days : Nat) : daysBeforeYear (yearOf days) ≤ days := by
  refine climb_le 30 ?_
  unfold daysBeforeYear
  omega

/-- Nor before its month. -/
theorem daysBeforeMonth_monthOf (days : Nat) :
    daysBeforeMonth (yearOf days) (monthOf days) ≤ days - daysBeforeYear (yearOf days) := by
  refine climb_le 11 ?_
  simp [daysBeforeMonth]

/-- Year, month and day determine the day number. -/
theorem days_eq (days : Nat) : daysBeforeYear (yearOf days) +
    daysBeforeMonth (yearOf days) (monthOf days) + (dayOf days - 1) = days := by
  have hyear := daysBeforeYear_yearOf days
  have hmonth := daysBeforeMonth_monthOf days
  unfold dayOf
  omega

/-- The years of the calendar have four digits. -/
theorem yearOf_lt {days : Nat} (h : days < 3652059) : yearOf days < 10 ^ 4 := by
  have hyear := daysBeforeYear_yearOf days
  unfold daysBeforeYear at hyear
  omega

example : (yearOf 739616, monthOf 739616, dayOf 739616) = (2026, 1, 1) := by decide

/-! ## Printing -/

/-- The fraction of a second, when there is one. -/
def fractionText (micros : Nat) : List Char :=
  if micros = 0 then [] else '.' :: padded 6 micros

/-- `HH:MM:SS[.ffffff]`. -/
def clockText (micros : Nat) : List Char :=
  padded 2 (micros / 3600000000) ++ ':' :: (padded 2 (micros / 60000000 % 60) ++
    ':' :: (padded 2 (micros / 1000000 % 60) ++ fractionText (micros % 1000000)))

/-- `±HH:MM[:SS[.ffffff]]`. -/
def offsetText : Option Int → List Char
  | none => []
  | some off =>
    (if off < 0 then '-' else '+') :: (padded 2 (off.natAbs / 3600000000) ++
      ':' :: (padded 2 (off.natAbs / 60000000 % 60) ++
        if off.natAbs % 60000000 = 0 then []
        else ':' :: (padded 2 (off.natAbs / 1000000 % 60) ++ fractionText (off.natAbs % 1000000))))

/-- `datetime.isoformat()`, as characters. -/
def DateTime.isoChars (d : DateTime) : List Char :=
  let days := d.wall.toNat / dayMicros
  padded 4 (yearOf days) ++ '-' :: (padded 2 (monthOf days) ++ '-' :: (padded 2 (dayOf days) ++
    'T' :: (clockText (d.wall.toNat % dayMicros) ++ offsetText d.offset)))

/-- `datetime.isoformat()`. -/
def DateTime.isoformat (d : DateTime) : String := String.ofList d.isoChars

example : DateTime.isoformat { wall := 63902822400000001, offset := some (-19800000000) }
    = "2026-01-01T00:00:00.000001-05:30" := by decide

/-- A character of an ISO text: a digit or one of the separators. -/
def isIsoChar (c : Char) : Bool := c.isDigit || decide (c ∈ ['-', 'T', ':', '.', '+'])

theorem isIsoChar_of_mem_padded {width n : Nat} {c : Char} (h : c ∈ padded width n) :
    isIsoChar c = true := by
  simp [isIsoChar, isDigit_of_mem_padded h]

theorem isIsoChar_of_mem_fractionText {micros : Nat} {c : Char} (h : c ∈ fractionText micros) :
    isIsoChar c = true := by
  unfold fractionText at h
  split at h
  · cases h
  · rcases List.mem_cons.mp h with rfl | h
    · rfl
    · exact isIsoChar_of_mem_padded h

/-- Two parts joined by a separator. -/
theorem isIsoChar_of_mem_joined {left right : List Char} {sep : Char}
    (hsep : isIsoChar sep = true) (hleft : ∀ c ∈ left, isIsoChar c = true)
    (hright : ∀ c ∈ right, isIsoChar c = true) {c : Char} (h : c ∈ left ++ sep :: right) :
    isIsoChar c = true := by
  rcases List.mem_append.mp h with h | h
  · exact hleft c h
  · rcases List.mem_cons.mp h with rfl | h
    · exact hsep
    · exact hright c h

theorem isIsoChar_of_mem_clockText {micros : Nat} {c : Char} (h : c ∈ clockText micros) :
    isIsoChar c = true := by
  refine isIsoChar_of_mem_joined rfl (fun _ => isIsoChar_of_mem_padded) (fun c h => ?_) h
  refine isIsoChar_of_mem_joined rfl (fun _ => isIsoChar_of_mem_padded) (fun c h => ?_) h
  rcases List.mem_append.mp h with h | h
  · exact isIsoChar_of_mem_padded h
  · exact isIsoChar_of_mem_fractionText h

theorem isIsoChar_of_mem_offsetText {offset : Option Int} {c : Char}
    (h : c ∈ offsetText offset) : isIsoChar c = true := by
  cases offset with
  | none => cases h
  | some off =>
    rcases List.mem_cons.mp h with rfl | h
    · split <;> rfl
    · refine isIsoChar_of_mem_joined rfl (fun _ => isIsoChar_of_mem_padded) (fun c h => ?_) h
      rcases List.mem_append.mp h with h | h
      · exact isIsoChar_of_mem_padded h
      · split at h
        · cases h
        · rcases List.mem_cons.mp h with rfl | h
          · rfl
          · rcases List.mem_append.mp h with h | h
            · exact isIsoChar_of_mem_padded h
            · exact isIsoChar_of_mem_fractionText h

/-- The text of a time has digits, signs, colons, a dot and a `T`. -/
theorem DateTime.isIsoChar_of_mem_isoChars {d : DateTime} {c : Char} (h : c ∈ d.isoChars) :
    isIsoChar c = true := by
  refine isIsoChar_of_mem_joined rfl (fun _ => isIsoChar_of_mem_padded) (fun c h => ?_) h
  refine isIsoChar_of_mem_joined rfl (fun _ => isIsoChar_of_mem_padded) (fun c h => ?_) h
  refine isIsoChar_of_mem_joined rfl (fun _ => isIsoChar_of_mem_padded) (fun c h => ?_) h
  rcases List.mem_append.mp h with h | h
  · exact isIsoChar_of_mem_clockText h
  · exact isIsoChar_of_mem_offsetText h

theorem length_fractionText_le {micros : Nat} (h : micros < 1000000) :
    (fractionText micros).length ≤ 7 := by
  unfold fractionText
  split
  · simp
  · have hdigits : (padded 6 micros).length ≤ 6 := length_padded_le (by decide) le_rfl h
    rw [List.length_cons]
    omega

theorem length_offsetText_le {offset : Option Int}
    (h : offset.all (fun off => decide (off.natAbs < dayMicros)) = true) :
    (offsetText offset).length ≤ 20 := by
  cases offset with
  | none => simp [offsetText]
  | some off =>
    have hoff : off.natAbs < dayMicros := by simpa using h
    unfold dayMicros at hoff
    have hhour : (padded 2 (off.natAbs / 3600000000)).length ≤ 2 :=
      length_padded_le (by decide) le_rfl (by omega)
    have hminute : (padded 2 (off.natAbs / 60000000 % 60)).length ≤ 2 :=
      length_padded_le (by decide) le_rfl (by omega)
    have hsecond : (padded 2 (off.natAbs / 1000000 % 60)).length ≤ 2 :=
      length_padded_le (by decide) le_rfl (by omega)
    have hfraction : (fractionText (off.natAbs % 1000000)).length ≤ 7 :=
      length_fractionText_le (by omega)
    simp only [offsetText, List.length_cons, List.length_append]
    split
    · simp
      omega
    · simp only [List.length_cons, List.length_append]
      omega

/-- An ISO text fits the 80 characters that wire formats allow. -/
theorem DateTime.length_isoChars_le (d : DateTime) : d.isoChars.length ≤ 60 := by
  have hwall := d.wall_lt
  have hnonneg := d.wall_nonneg
  unfold maxWall at hwall
  unfold DateTime.isoChars clockText dayMicros
  generalize hdays : d.wall.toNat / 86400000000 = days
  generalize hmicros : d.wall.toNat % 86400000000 = micros
  have hyear : (padded 4 (yearOf days)).length ≤ 4 :=
    length_padded_le (by decide) le_rfl (yearOf_lt (by omega))
  have hmonth : (padded 2 (monthOf days)).length ≤ 2 := by
    refine length_padded_le (by decide) le_rfl ?_
    have : monthOf days ≤ 1 + 11 := climb_bound 11 1
    omega
  have hday : (padded 2 (dayOf days)).length ≤ 7 := by
    refine length_padded_le (by decide) (by decide) ?_
    have hday := days_eq days
    omega
  have hhour : (padded 2 (micros / 3600000000)).length ≤ 2 :=
    length_padded_le (by decide) le_rfl (by omega)
  have hminute : (padded 2 (micros / 60000000 % 60)).length ≤ 2 :=
    length_padded_le (by decide) le_rfl (by omega)
  have hsecond : (padded 2 (micros / 1000000 % 60)).length ≤ 2 :=
    length_padded_le (by decide) le_rfl (by omega)
  have hfraction : (fractionText (micros % 1000000)).length ≤ 7 :=
    length_fractionText_le (by omega)
  have hoffset := length_offsetText_le d.offset_lt
  simp only [List.length_append, List.length_cons]
  omega

/-! ## The wire spelling of UTC -/

/-- `value.isoformat().replace("+00:00", "Z")`. -/
def DateTime.zulu (d : DateTime) : String := replace "+00:00" "Z" d.isoformat

/-- `text.replace("Z", "+00:00")`. -/
def fromZ (text : String) : String := replace "Z" "+00:00" text

/-- A `Z` stands for the offset that is UTC's. -/
theorem fromZ_zulu (d : DateTime) : fromZ d.zulu = d.isoformat := by
  refine replace_replace (z := 'Z') (by decide) ?_
  intro hz
  rw [DateTime.isoformat, String.toList_ofList] at hz
  exact absurd (DateTime.isIsoChar_of_mem_isoChars hz) (by decide)

/-- There is no space in it. -/
theorem DateTime.not_isSpace_of_mem_zulu {d : DateTime} {c : Char} (h : c ∈ d.zulu.toList) :
    isSpace c = false := by
  rw [zulu, replace, String.toList_ofList] at h
  rcases mem_replaceFrom h with h | h
  · rw [isoformat, String.toList_ofList] at h
    have hiso := isIsoChar_of_mem_isoChars h
    rcases Bool.or_eq_true_iff.mp hiso with hdigit | hsep
    · simp only [Char.isDigit, Bool.and_eq_true, decide_eq_true_eq] at hdigit
      have hlow : 48 ≤ c.toNat := hdigit.1
      have hhigh : c.toNat ≤ 57 := hdigit.2
      simp only [isSpace, Bool.or_eq_false_iff, Bool.and_eq_false_iff, decide_eq_false_iff_not,
        beq_eq_false_iff_ne]
      omega
    · have hseps : ∀ x ∈ ['-', 'T', ':', '.', '+'], isSpace x = false := by
        simp only [List.mem_cons, List.not_mem_nil, or_false]
        rintro x (rfl | rfl | rfl | rfl | rfl) <;> rfl
      exact hseps c (of_decide_eq_true hsep)
  · have hz : "Z".toList = ['Z'] := rfl
    rw [hz, List.mem_singleton] at h
    rw [h]
    rfl

theorem DateTime.zulu_ne_empty (d : DateTime) : d.zulu ≠ "" := by
  intro h
  have hread : fromZ d.zulu = "" := by
    rw [h]
    decide
  rw [fromZ_zulu] at hread
  have hnil : d.isoChars = [] := by
    have := congrArg String.toList hread
    simpa [isoformat] using this
  simp [isoChars] at hnil

/-- And it is short. -/
theorem DateTime.length_zulu_le (d : DateTime) : d.zulu.length ≤ 60 := by
  rw [← String.length_toList, zulu, replace, String.toList_ofList]
  refine (length_replaceFrom_le (by decide) (by decide) 0 _).trans ?_
  rw [isoformat, String.toList_ofList]
  exact d.length_isoChars_le

end OpenMemory
