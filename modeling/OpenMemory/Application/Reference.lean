import OpenMemory.Application.Services

/-!
# A reference configuration

Everything above is proved for any runtime and any embedding provider. This module
fixes one of each, so that definitions can be evaluated: exact rational numbers
for `R`, a reader for the ISO texts that `isoformat` prints, and the hash provider in
one dimension with a fixed bucket. The digest is the text itself, which is
collision-free as SHA-256 is taken to be.
-/

namespace OpenMemory

/-! ## Text of numbers -/

/-- Round to the nearest integer, ties to even. -/
def roundHalfEven (x : ℚ) : Int :=
  let low := x.floor
  let rest := x - low
  if rest < 1 / 2 then low
  else if 1 / 2 < rest then low + 1
  else if low % 2 = 0 then low else low + 1

/-- `x` with exactly `digits` decimals. -/
def fixedDecimal (digits : Nat) (x : ℚ) : String :=
  let scaled := roundHalfEven (x * 10 ^ digits)
  String.ofList ((if scaled < 0 then ['-'] else []) ++
    (padded 1 (scaled.natAbs / 10 ^ digits) ++ '.' :: padded digits (scaled.natAbs % 10 ^ digits)))

theorem roundHalfEven_bounds {x : ℚ} {n : Int} (h₀ : 0 ≤ x) (hn : x ≤ n) :
    0 ≤ roundHalfEven x ∧ roundHalfEven x ≤ n := by
  have hlow : 0 ≤ x.floor := Rat.le_floor_iff.mpr (by simpa using h₀)
  have hle : x.floor ≤ n := by
    have : (x.floor : ℚ) ≤ n := (Rat.floor_le x).trans hn
    exact_mod_cast this
  -- rounding up leaves a gap of at least one half below `x`
  have hup : 1 / 2 ≤ x - x.floor → x.floor + 1 ≤ n := by
    intro hhalf
    by_contra hcon
    have heq : x.floor = n := by omega
    rw [heq] at hhalf
    linarith
  unfold roundHalfEven
  dsimp only
  split_ifs with h₁ h₂ h₃
  · exact ⟨hlow, hle⟩
  · exact ⟨by omega, hup h₂.le⟩
  · exact ⟨hlow, hle⟩
  · exact ⟨by omega, hup (not_lt.mp h₁)⟩

/-- Two decimals of a number from 0 to 1 take four characters. -/
theorem length_fixedDecimal_two {x : ℚ} (h₀ : 0 ≤ x) (h₁ : x ≤ 1) :
    (fixedDecimal 2 x).length = 4 := by
  have hbounds : 0 ≤ roundHalfEven (x * 10 ^ 2) ∧ roundHalfEven (x * 10 ^ 2) ≤ 100 :=
    roundHalfEven_bounds (by positivity) (by push_cast; linarith)
  obtain ⟨n, hn⟩ := Int.eq_ofNat_of_zero_le hbounds.1
  have hall : ∀ k ≤ 100, (padded 1 (k / 10 ^ 2) ++ '.' :: padded 2 (k % 10 ^ 2)).length = 4 := by
    decide
  unfold fixedDecimal
  dsimp only
  rw [hn, if_neg (by omega), List.nil_append, ← String.length_toList, String.toList_ofList]
  exact hall n (by omega)

/-! ## Reading -/

/-- The digits of a text between its separators, as numbers. -/
def numbersOf (l : List Char) : List Nat :=
  (l.splitOnP fun c => !c.isDigit).map fun w => Nat.ofDigitChars 10 w 0

theorem numbersOf_append {w rest : List Char} {sep : Char} (hw : ∀ c ∈ w, c.isDigit = true)
    (hsep : sep.isDigit = false) :
    numbersOf (w ++ sep :: rest) = Nat.ofDigitChars 10 w 0 :: numbersOf rest := by
  unfold numbersOf
  rw [List.splitOnP_append_cons_of_forall_mem (fun c hc => by simp [hw c hc]) sep
    (by simp [hsep])]
  rfl

theorem numbersOf_digits {w : List Char} (hw : ∀ c ∈ w, c.isDigit = true) :
    numbersOf w = [Nat.ofDigitChars 10 w 0] := by
  unfold numbersOf
  rw [List.splitOnP_eq_singleton fun c hc => by simp [hw c hc]]
  rfl

/-- A value in UTC, if `text` is how it prints. -/
def readAs (text : String) (wall : Nat) : Option DateTime :=
  if h : (wall : Int) < maxWall then
    let value : DateTime :=
      { wall := wall, offset := some 0, wall_nonneg := Int.natCast_nonneg wall, wall_lt := h
        offset_lt := utc_offset_lt }
    if value.isoformat = text then some value else none
  else none

/-- Microseconds since `0001-01-01T00:00`. -/
def wallOf (year month day hour minute second micros : Nat) : Nat :=
  (daysBeforeYear year + daysBeforeMonth year month + (day - 1)) * dayMicros +
    (((hour * 60 + minute) * 60 + second) * 1000000 + micros)

/-- `datetime.fromisoformat` on the texts that `isoformat` prints in UTC. -/
def readIso (text : String) : Option DateTime :=
  match numbersOf text.toList with
  | [year, month, day, hour, minute, second, _, _] =>
    readAs text (wallOf year month day hour minute second 0)
  | [year, month, day, hour, minute, second, micros, _, _] =>
    readAs text (wallOf year month day hour minute second micros)
  | _ => none

theorem readAs_isoformat {d : DateTime} (hd : d.offset = some 0) {wall : Nat}
    (hwall : (wall : Int) = d.wall) : readAs d.isoformat wall = some d := by
  obtain ⟨wall', offset, h₀, h₁, h₂⟩ := d
  obtain rfl : offset = some 0 := hd
  obtain rfl : (wall : Int) = wall' := hwall
  unfold readAs
  rw [dif_pos h₁]
  exact if_pos rfl

theorem wallOf_isoChars (n : Nat) : wallOf (yearOf (n / dayMicros)) (monthOf (n / dayMicros))
    (dayOf (n / dayMicros)) (n % dayMicros / 3600000000) (n % dayMicros / 60000000 % 60)
    (n % dayMicros / 1000000 % 60) (n % dayMicros % 1000000) = n := by
  unfold wallOf
  rw [days_eq]
  unfold dayMicros
  omega

/-- The numbers in the text of a value in UTC; there is a fraction unless it is zero. -/
theorem numbersOf_isoformat {d : DateTime} (hd : d.offset = some 0) :
    numbersOf d.isoformat.toList =
      [yearOf (d.wall.toNat / dayMicros), monthOf (d.wall.toNat / dayMicros),
        dayOf (d.wall.toNat / dayMicros), d.wall.toNat % dayMicros / 3600000000,
        d.wall.toNat % dayMicros / 60000000 % 60, d.wall.toNat % dayMicros / 1000000 % 60] ++
      (if d.wall.toNat % dayMicros % 1000000 = 0 then [0, 0]
        else [d.wall.toNat % dayMicros % 1000000, 0, 0]) := by
  have hdigits : ∀ {width n : Nat}, ∀ c ∈ padded width n, c.isDigit = true :=
    fun _ => isDigit_of_mem_padded
  have hoffset : offsetText (some 0) = '+' :: (padded 2 0 ++ ':' :: padded 2 0) := by decide
  rw [DateTime.isoformat, String.toList_ofList, DateTime.isoChars, hd, clockText, hoffset,
    fractionText]
  by_cases hmicros : d.wall.toNat % dayMicros % 1000000 = 0
  · rw [if_pos hmicros, if_pos hmicros]
    simp only [List.append_assoc, List.cons_append, List.nil_append]
    simp only [numbersOf_append hdigits, numbersOf_digits hdigits, ofDigitChars_padded,
      Char.reduceIsDigit]
  · rw [if_neg hmicros, if_neg hmicros]
    simp only [List.append_assoc, List.cons_append, List.nil_append]
    simp only [numbersOf_append hdigits, numbersOf_digits hdigits, ofDigitChars_padded,
      Char.reduceIsDigit]

/-- Reading inverts printing. -/
theorem readIso_isoformat {d : DateTime} (hd : d.offset = some 0) :
    readIso d.isoformat = some d := by
  have hwall : ((d.wall.toNat : Nat) : Int) = d.wall := Int.toNat_of_nonneg d.wall_nonneg
  have hfields := wallOf_isoChars d.wall.toNat
  unfold readIso
  rw [numbersOf_isoformat hd]
  by_cases hmicros : d.wall.toNat % dayMicros % 1000000 = 0
  · rw [hmicros] at hfields
    rw [if_pos hmicros]
    exact (congrArg (readAs d.isoformat) hfields).trans (readAs_isoformat hd hwall)
  · rw [if_neg hmicros]
    exact (congrArg (readAs d.isoformat) hfields).trans (readAs_isoformat hd hwall)

/-- The value of a hexadecimal digit. -/
def hexValue (c : Char) : Option Nat :=
  if c.isDigit then some (c.toNat - 48)
  else if 97 ≤ c.toNat ∧ c.toNat ≤ 102 then some (c.toNat - 87)
  else if 65 ≤ c.toNat ∧ c.toNat ≤ 70 then some (c.toNat - 55)
  else none

/-- `UUID(text)` on 32 hexadecimal digits, with or without hyphens. -/
def readUuid (text : String) : Option UUID :=
  let digits := text.toList.filter fun c => c ≠ '-'
  if digits.length = 32 then
    (digits.mapM hexValue).map fun values =>
      ⟨Fin.ofNat _ (values.foldl (fun sofar v => 16 * sofar + v) 0)⟩
  else none

/-- The exact runtime. -/
instance : Python ℚ where
  ofInt n := n
  decimal mantissa digits := (mantissa : ℚ) / 10 ^ digits
  le a b := decide (a ≤ b)
  add a b := a + b
  sub a b := a - b
  mul a b := a * b
  div a b := a / b
  sqrt x := Rat.sqrt x
  round6 x := (roundHalfEven (x * 10 ^ 6) : ℚ) / 10 ^ 6
  fixed2 := fixedDecimal 2
  numRepr := fixedDecimal 6
  fromisoformat := readIso
  parseUuid := readUuid
  sha256Hexdigest text := text
  le_total a b := by
    simp only [decide_eq_true_eq]
    exact le_total a b
  le_trans a b c := by
    simp only [decide_eq_true_eq]
    exact le_trans
  zero_le_one := by simp
  length_fixed2 x h₀ h₁ :=
    length_fixedDecimal_two (by simpa using h₀) (by simpa using h₁)
  fromisoformat_isoformat _ hd := readIso_isoformat hd

/-! ## A service -/

instance neZeroYear : NeZero 365 := ⟨by decide⟩

theorem day2026_nonneg (n : Fin 365) : 0 ≤ ((739616 + n.val : Nat) * dayMicros : Int) := by
  unfold dayMicros
  omega

theorem day2026_lt (n : Fin 365) : ((739616 + n.val : Nat) * dayMicros : Int) < maxWall := by
  have := n.isLt
  unfold dayMicros maxWall
  omega

/-- Midnight UTC of day `n` of the year 2026. -/
def day2026 (n : Fin 365) : DateTime where
  wall := (739616 + n.val : Nat) * dayMicros
  offset := some 0
  wall_nonneg := day2026_nonneg n
  wall_lt := day2026_lt n
  offset_lt := utc_offset_lt

/-- `HashEmbeddingProvider(dimension=1)` on texts whose features fall in the positive
bucket. -/
def hashProvider : EmbeddingProvider ℚ where
  profile := { id := "hash", version := "v1", dimension := 1 }
  embed _ _ := .ok [1]

/-- Its descriptor. -/
def hashDescriptor : EmbeddingDescriptor where
  profileId := "hash"
  profileVersion := "v1"
  dimension := 1
  checked := by decide

/-- The service as a call on day `n` sees it, with the id it draws. -/
def serviceOn (n : Fin 365) (id : Nat) : MemoryApplicationService ℚ where
  embeddingProvider := hashProvider
  clock _ := day2026 n
  uuid4 := ⟨Fin.ofNat _ id⟩

/-- Origin: typed in by the user on the first day. -/
def typedByUser : Provenance where
  sourceType := .user
  capturedAt := day2026 0
  checked := by decide

/-- `WriteMemoryCommand(owner_id, content, FACT, …, importance=confidence=0.5)`. -/
def noteCommand (ownerId content : String) (idempotencyKey tenantId : Option String) :
    WriteMemoryCommand ℚ where
  ownerId := ownerId
  content := content
  memoryType := .fact
  provenance := typedByUser
  importance := 1 / 2
  confidence := 1 / 2
  idempotencyKey := idempotencyKey
  tenantId := tenantId

/-- Origin: sent by a client application. -/
def sentByClient : Provenance where
  sourceType := .conversation
  capturedAt := day2026 0
  sourceClient := some "desk"
  checked := by decide

/-- The user asked for the capture. -/
def asked : CaptureConsent where
  mode := .manual
  consentId := "consent-1"
  reasonCode := .userRequestedMemory
  policyVersion := "1"
  grantedAt := day2026 0
  checked := by decide

/-- `CaptureMemoryCommand(…)` of a tenant's connection. -/
def captureCommand (tenantId ownerId content idempotencyKey : String) :
    CaptureMemoryCommand ℚ where
  tenantId := tenantId
  ownerId := ownerId
  connectionId := "desk-1"
  content := content
  memoryType := .fact
  space := none
  provenance := sentByClient
  consent := asked
  idempotencyKey := idempotencyKey
  importance := 1 / 2
  confidence := 1 / 2

end OpenMemory
