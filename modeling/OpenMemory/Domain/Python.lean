import OpenMemory.Domain.DateTime

/-!
# What the program takes from Python

Exceptions, identifiers, numbers and the canonical JSON digest. Values whose
concrete form never decides anything here (the digest of a text, the printed form
of a number) are fields of the class `Python`: every result below holds for each
of them.

- `PyError`: the domain errors of `domain/errors.py` with their messages, and the
  built-in exceptions the code can meet.
- `ensureAware` is the source's `ensure_aware`; converting to UTC can leave the
  representable range.
- `Python R`: numbers of a type `R` (a total preorder, so that `1` and `1.0` may
  be different values that compare equal), `fromisoformat`, `sha256`.
- `Json.dumps`, `digest`: `json.dumps(sort_keys=True, separators=(",", ":"),
  ensure_ascii=False)` and `_digest`.
-/

namespace OpenMemory

open Lib

/-! ## Exceptions -/

/-- The error classes of `domain/errors.py`. -/
inductive ErrorClass
  | validationError
  | notFoundError
  | ownerAccessError
  | invalidStateTransitionError
  | versionConflictError
  | idempotencyConflictError
  | idempotencyInProgressError
  | importConflictError
  | embeddingProfileMismatchError
  | relationConflictError
  | storageError
  | consentRequiredError
  | captureDisabledError
  | connectionRevokedError
  | scopeDeniedError
  | spaceForbiddenError
  | restoreBlockedByTombstoneError
  deriving DecidableEq, Repr

/-- The stable machine-readable code of an error class. -/
def ErrorClass.code : ErrorClass → String
  | .validationError => "validation_error"
  | .notFoundError => "not_found"
  | .ownerAccessError => "owner_access_denied"
  | .invalidStateTransitionError => "invalid_state_transition"
  | .versionConflictError => "version_conflict"
  | .idempotencyConflictError => "idempotency_conflict"
  | .idempotencyInProgressError => "idempotency_in_progress"
  | .importConflictError => "import_conflict"
  | .embeddingProfileMismatchError => "embedding_profile_mismatch"
  | .relationConflictError => "relation_conflict"
  | .storageError => "storage_error"
  | .consentRequiredError => "consent_required"
  | .captureDisabledError => "capture_disabled"
  | .connectionRevokedError => "connection_revoked"
  | .scopeDeniedError => "scope_denied"
  | .spaceForbiddenError => "space_forbidden"
  | .restoreBlockedByTombstoneError => "restore_blocked_by_tombstone"

/-- Exceptions. `foreign` is whatever an embedding provider raised, by class name
and `code` attribute. -/
inductive PyError
  | omp (cls : ErrorClass) (message : String)
  | valueError (message : String)
  | runtimeError (message : String)
  | keyError
  | stopIteration
  | overflowError
  | timeoutError
  | connectionError
  | tenantContextError (message : String)
  | integrityError
  | pydanticValidationError
  | foreign (className : String) (code : Option String)
  deriving DecidableEq, Repr

/-- The name of an error class. -/
def ErrorClass.name : ErrorClass → String
  | .validationError => "ValidationError"
  | .notFoundError => "NotFoundError"
  | .ownerAccessError => "OwnerAccessError"
  | .invalidStateTransitionError => "InvalidStateTransitionError"
  | .versionConflictError => "VersionConflictError"
  | .idempotencyConflictError => "IdempotencyConflictError"
  | .idempotencyInProgressError => "IdempotencyInProgressError"
  | .importConflictError => "ImportConflictError"
  | .embeddingProfileMismatchError => "EmbeddingProfileMismatchError"
  | .relationConflictError => "RelationConflictError"
  | .storageError => "StorageError"
  | .consentRequiredError => "ConsentRequiredError"
  | .captureDisabledError => "CaptureDisabledError"
  | .connectionRevokedError => "ConnectionRevokedError"
  | .scopeDeniedError => "ScopeDeniedError"
  | .spaceForbiddenError => "SpaceForbiddenError"
  | .restoreBlockedByTombstoneError => "RestoreBlockedByTombstoneError"

/-- `error.__class__.__name__`. -/
def PyError.className : PyError → String
  | .omp cls _ => cls.name
  | .valueError _ => "ValueError"
  | .runtimeError _ => "RuntimeError"
  | .keyError => "KeyError"
  | .stopIteration => "StopIteration"
  | .overflowError => "OverflowError"
  | .timeoutError => "TimeoutError"
  | .connectionError => "ConnectionError"
  | .tenantContextError _ => "TenantContextError"
  | .integrityError => "IntegrityError"
  | .pydanticValidationError => "ValidationError"
  | .foreign name _ => name

/-- `getattr(error, "code", None)`. -/
def PyError.code : PyError → Option String
  | .omp cls _ => some cls.code
  | .foreign _ code => code
  | _ => none

/-- `raise ValidationError(message)`. -/
abbrev PyError.validation (message : String) : PyError := .omp .validationError message

/-- `raise NotFoundError(message)`. -/
abbrev PyError.notFound (message : String) : PyError := .omp .notFoundError message

/-- `if c: raise e`. -/
def raiseIf {m : Type → Type} [Monad m] [MonadExceptOf PyError m] (c : Bool) (e : PyError) :
    m Unit :=
  if c then throw e else pure ()

/-! ## Identifiers -/

/-- A UUID is a 128-bit number. -/
structure UUID where
  int : Fin (2 ^ 128)
  deriving DecidableEq, Repr

instance neZeroUuid : NeZero (2 ^ 128) := ⟨by decide⟩

/-- One hexadecimal digit. -/
def hexDigit (n : Nat) : Char :=
  if n < 10 then Char.ofNat (48 + n) else Char.ofNat (87 + n)

/-- `str(uuid)`: 8-4-4-4-12 lower-case hexadecimal digits. -/
def UUID.str (u : UUID) : String :=
  let digits := (List.range 32).map fun i => hexDigit (u.int.val / 16 ^ (31 - i) % 16)
  String.ofList (digits.take 8 ++ '-' :: (digits.drop 8).take 4 ++ '-' :: (digits.drop 12).take 4
    ++ '-' :: (digits.drop 16).take 4 ++ '-' :: digits.drop 20)

/-- The text of an id consists of hexadecimal digits and hyphens. -/
theorem UUID.mem_str {u : UUID} {c : Char} (h : c ∈ u.str.toList) :
    c = '-' ∨ ∃ n < 16, c = hexDigit n := by
  have hdigit : ∀ x ∈ (List.range 32).map fun i => hexDigit (u.int.val / 16 ^ (31 - i) % 16),
      x = '-' ∨ ∃ n < 16, x = hexDigit n := by
    intro x hx
    obtain ⟨i, -, rfl⟩ := List.mem_map.mp hx
    exact .inr ⟨_, Nat.mod_lt _ (by decide), rfl⟩
  unfold UUID.str at h
  rw [String.toList_ofList] at h
  simp only [List.mem_append, List.mem_cons] at h
  rcases h with (((h | rfl | h) | rfl | h) | rfl | h) | rfl | h
  · exact hdigit c (List.mem_of_mem_take h)
  · exact .inl rfl
  · exact hdigit c (List.mem_of_mem_drop (List.mem_of_mem_take h))
  · exact .inl rfl
  · exact hdigit c (List.mem_of_mem_drop (List.mem_of_mem_take h))
  · exact .inl rfl
  · exact hdigit c (List.mem_of_mem_drop (List.mem_of_mem_take h))
  · exact .inl rfl
  · exact hdigit c (List.mem_of_mem_drop h)

theorem UUID.length_str (u : UUID) : u.str.length = 36 := by
  unfold UUID.str
  rw [← String.length_toList, String.toList_ofList]
  simp

theorem hexDigit_inj {m n : Nat} (hm : m < 16) (hn : n < 16) (h : hexDigit m = hexDigit n) :
    m = n := by
  have hall : ∀ m < 16, ∀ n < 16, hexDigit m = hexDigit n → m = n := by decide
  exact hall m hm n hn h

/-- Without its hyphens the text is the list of digits. -/
theorem UUID.filter_str (u : UUID) : u.str.toList.filter (fun c => decide (c ≠ '-')) =
    (List.range 32).map fun i => hexDigit (u.int.val / 16 ^ (31 - i) % 16) := by
  unfold UUID.str
  rw [String.toList_ofList]
  generalize hdigits : ((List.range 32).map fun i => hexDigit (u.int.val / 16 ^ (31 - i) % 16)) = d
  have hkeep : ∀ l : List Char, l ⊆ d → l.filter (fun c => decide (c ≠ '-')) = l := by
    intro l hl
    refine List.filter_eq_self.mpr fun c hc => decide_eq_true ?_
    rw [← hdigits] at hl
    obtain ⟨i, -, rfl⟩ := List.mem_map.mp (hl hc)
    have hdash : ∀ n < 16, hexDigit n ≠ '-' := by decide
    exact hdash _ (Nat.mod_lt _ (by decide))
  have htail : ∀ n k : Nat, (d.drop n).take k ++ d.drop (n + k) = d.drop n := by
    intro n k
    rw [← List.drop_drop, List.take_append_drop]
  have hsub : ∀ n k : Nat, (d.drop n).take k ⊆ d :=
    fun n k => List.Subset.trans (List.take_subset _ _) (List.drop_subset _ _)
  simp only [List.filter_append, List.filter_cons, ne_eq, not_true_eq_false, decide_false,
    Bool.false_eq_true, if_false, List.append_assoc]
  rw [hkeep _ (List.take_subset _ _), hkeep _ (hsub _ _), hkeep _ (hsub _ _), hkeep _ (hsub _ _),
    hkeep _ (List.drop_subset _ _), htail 16 4, htail 12 4, htail 8 4, List.take_append_drop]

theorem mod_pow_of_digits {m n k : Nat} (h : ∀ i < k, m / 16 ^ i % 16 = n / 16 ^ i % 16) :
    m % 16 ^ k = n % 16 ^ k := by
  induction k with
  | zero => rw [pow_zero, Nat.mod_one, Nat.mod_one]
  | succ k ih =>
    rw [Nat.mod_pow_succ, Nat.mod_pow_succ, ih fun i hi => h i (by omega), h k (by omega)]

theorem UUID.str_injective : Function.Injective UUID.str := by
  intro u u' h
  have hlist : (List.range 32).map (fun i => hexDigit (u.int.val / 16 ^ (31 - i) % 16)) =
      (List.range 32).map fun i => hexDigit (u'.int.val / 16 ^ (31 - i) % 16) := by
    rw [← UUID.filter_str, ← UUID.filter_str, h]
  have hdigit : ∀ i < 32, u.int.val / 16 ^ i % 16 = u'.int.val / 16 ^ i % 16 := by
    intro i hi
    have hchar := List.map_inj_left.mp hlist (31 - i) (List.mem_range.mpr (by omega))
    rw [show 31 - (31 - i) = i by omega] at hchar
    exact hexDigit_inj (Nat.mod_lt _ (by decide)) (Nat.mod_lt _ (by decide)) hchar
  have hlt : ∀ u : UUID, u.int.val < 16 ^ 32 := fun u => u.int.isLt
  have hint := mod_pow_of_digits hdigit
  rw [Nat.mod_eq_of_lt (hlt u), Nat.mod_eq_of_lt (hlt u')] at hint
  cases u
  cases u'
  exact congrArg UUID.mk (Fin.ext hint)

/-! ## Conversion to UTC -/

/-- `ensure_aware`: reject naive values, convert the others to UTC. The
conversion overflows outside the years 1–9999. -/
def ensureAware (value : DateTime) (fieldName : String) : Except PyError DateTime :=
  match value.offset with
  | none => throw (.validation (fieldName ++ " must be timezone-aware"))
  | some off =>
    if h : 0 ≤ value.wall - off ∧ value.wall - off < maxWall then
      pure { wall := value.wall - off, offset := some 0, wall_nonneg := h.1, wall_lt := h.2 }
    else throw .overflowError

/-- A converted value is in UTC. -/
theorem ensureAware_ok {value utc : DateTime} {fieldName : String}
    (h : ensureAware value fieldName = .ok utc) : utc.offset = some 0 := by
  unfold ensureAware at h
  cases hoff : value.offset with
  | none =>
    rw [hoff] at h
    cases h
  | some off =>
    rw [hoff] at h
    dsimp only at h
    by_cases hr : 0 ≤ value.wall - off ∧ value.wall - off < maxWall
    · rw [dif_pos hr] at h
      cases h
      rfl
    · rw [dif_neg hr] at h
      cases h

/-- Converting a value in UTC changes nothing. -/
theorem ensureAware_utc {utc : DateTime} (h : utc.offset = some 0) (fieldName : String) :
    ensureAware utc fieldName = .ok utc := by
  obtain ⟨wall, offset, h₀, h₁, h₂⟩ := utc
  obtain rfl : offset = some 0 := h
  unfold ensureAware
  simp only [Int.sub_zero]
  exact dif_pos ⟨h₀, h₁⟩

/-- Converting to UTC twice is converting once. -/
theorem ensureAware_idem {value utc : DateTime} {fieldName fieldName' : String}
    (h : ensureAware value fieldName = .ok utc) : ensureAware utc fieldName' = .ok utc :=
  ensureAware_utc (ensureAware_ok h) fieldName'

/-! ## Numbers, printing and hashing -/

/-- The runtime: exact or rounded numbers in `R`, and the text functions of the
standard library. Constrained are the order of numbers, the width of a fixed-point
text, and that reading an ISO text inverts printing it. -/
class Python (R : Type) where
  ofInt : Int → R
  /-- The literal `mantissa · 10⁻ᵈⁱᵍⁱᵗˢ`. -/
  decimal (mantissa digits : Nat) : R
  le : R → R → Bool
  add : R → R → R
  sub : R → R → R
  mul : R → R → R
  div : R → R → R
  sqrt : R → R
  /-- `round(x, 6)`. -/
  round6 : R → R
  /-- `f"{x:.2f}"`. -/
  fixed2 : R → String
  /-- The JSON text of a number. -/
  numRepr : R → String
  /-- `datetime.fromisoformat`, `none` for `ValueError`. -/
  fromisoformat : String → Option DateTime
  /-- `UUID(text)`, `none` for `ValueError`. -/
  parseUuid : String → Option UUID
  /-- `hashlib.sha256(text.encode("utf-8")).hexdigest()`. -/
  sha256Hexdigest : String → String
  le_total : ∀ a b : R, le a b = true ∨ le b a = true
  le_trans : ∀ a b c : R, le a b = true → le b c = true → le a c = true
  zero_le_one : le (ofInt 0) (ofInt 1) = true
  /-- Two decimals of a number from 0 to 1: `0.00` to `1.00`. -/
  length_fixed2 : ∀ x : R, le (ofInt 0) x = true → le x (ofInt 1) = true → (fixed2 x).length = 4
  /-- `fromisoformat` reads what `isoformat` prints. -/
  fromisoformat_isoformat : ∀ d : DateTime, d.offset = some 0 →
    fromisoformat d.isoformat = some d

namespace Python

variable {R : Type} [Python R]

/-- `a < b`. -/
def lt (a b : R) : Bool := !le b a

/-- `a == b` on numbers. -/
def numEq (a b : R) : Bool := le a b && le b a

/-- `max(a, b)`: the first argument unless the second is larger. -/
def max (a b : R) : R := if lt a b then b else a

/-- `min(a, b)`: the first argument unless the second is smaller. -/
def min (a b : R) : R := if lt b a then b else a

/-- `0 <= value <= 1`. -/
def inUnit (value : R) : Bool := le (ofInt 0) value && le value (ofInt 1)

theorem le_refl (a : R) : le a a = true := by
  rcases le_total a a with h | h <;> exact h

end Python

/-! ## Canonical JSON -/

/-- JSON data as the digests see it. Integers and other numbers print
differently. -/
inductive Json (R : Type)
  | null
  | bool (b : Bool)
  | int (n : Int)
  | num (x : R)
  | str (s : String)
  | arr (items : List (Json R))
  | obj (members : List (String × Json R))

namespace Json

variable {R : Type}

/-- A nullable value. -/
def ofOption {α : Type} (f : α → Json R) : Option α → Json R
  | none => .null
  | some a => f a

/-- One character of a JSON string literal (`ensure_ascii=False`). -/
def escapeChar (c : Char) : List Char :=
  if c = '"' then ['\\', '"']
  else if c = '\\' then ['\\', '\\']
  else if c = '\n' then ['\\', 'n']
  else if c = '\r' then ['\\', 'r']
  else if c = '\t' then ['\\', 't']
  else if c.toNat = 12 then ['\\', 'f']
  else if c.toNat = 8 then ['\\', 'b']
  else if c.toNat < 32 then ['\\', 'u', '0', '0', hexDigit (c.toNat / 16), hexDigit (c.toNat % 16)]
  else [c]

/-- A JSON string literal. -/
def quote (s : String) : String :=
  String.ofList ('"' :: s.toList.flatMap escapeChar ++ ['"'])

/-- Members in key order, `"key":value` joined by commas. -/
def joinMembers (members : List (String × String)) : String :=
  ",".intercalate ((members.insertionSort fun a b => a.1 ≤ b.1).map fun e => quote e.1 ++ ":" ++ e.2)

mutual

/-- `json.dumps(value, sort_keys=True, separators=(",", ":"), ensure_ascii=False)`. -/
def dumps [Python R] : Json R → String
  | .null => "null"
  | .bool b => if b then "true" else "false"
  | .int n => toString n
  | .num x => Python.numRepr x
  | .str s => quote s
  | .arr items => "[" ++ ",".intercalate (dumpsAll items) ++ "]"
  | .obj members => "\x7b" ++ joinMembers (dumpsMembers members) ++ "\x7d"

/-- The printed elements of an array. -/
def dumpsAll [Python R] : List (Json R) → List String
  | [] => []
  | item :: items => dumps item :: dumpsAll items

/-- The printed members of an object, in source order. -/
def dumpsMembers [Python R] : List (String × Json R) → List (String × String)
  | [] => []
  | (key, value) :: members => (key, dumps value) :: dumpsMembers members

end

end Json

/-- `_digest`. -/
def digest {R : Type} [Python R] (value : Json R) : String :=
  Python.sha256Hexdigest R value.dumps

end OpenMemory
