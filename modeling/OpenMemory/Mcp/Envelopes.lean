import OpenMemory.Lib.Layouts
import OpenMemory.Mcp.Adapter

/-!
# Envelopes as JSON (`adapters/mcp/schemas.py`)

`model_dump(mode="json")` of an envelope: the fields of the models in their order, with their nulls.
A number of the wire is a float of the JSON, and stands in the text as `repr` prints it.
`PrintsUnits` is what that text has to be for a reader to take it for the number that it is.
-/

namespace OpenMemory.Mcp

open Lib

variable {R : Type} [Python R]

/-- A text, or `null`. -/
def orNull (text : Option String) : JsonValue := (text.map JsonValue.str).getD .null

/-- The dump of a provenance. -/
def WireProvenance.dumped (p : WireProvenance) : JsonValue :=
  .obj [("source_type", .str p.sourceType.value), ("captured_at", .str p.capturedAt.val),
    ("source_id", orNull (p.sourceId.map Text.val)),
    ("source_model", orNull (p.sourceModel.map Text.val)),
    ("evidence", orNull (p.evidence.map Text.val))]

/-- The dump of a number between 0 and 1. -/
def unitJson (x : UnitFloat R) : JsonValue := .float (Python.numRepr x.val)

/-- The dump of a record. -/
def MemoryRecord.json (record : MemoryRecord R) : JsonValue :=
  .obj [("id", .str record.id.val), ("owner_id", .str record.ownerId.val),
    ("content", .str record.content.val), ("type", .str record.type.value),
    ("space", orNull (record.space.map Text.val)), ("importance", unitJson record.importance),
    ("confidence", unitJson record.confidence), ("state", .str record.state.value),
    ("version", .int record.version.val), ("created_at", .str record.createdAt.val),
    ("updated_at", .str record.updatedAt.val),
    ("occurred_at", orNull (record.occurredAt.map Text.val)),
    ("provenance", record.provenance.dumped)]

/-- The dump of a found memory. -/
def SearchResult.json (result : SearchResult R) : JsonValue :=
  .obj [("memory", result.memory.json), ("score", unitJson result.score),
    ("reason_retrieved", .str result.reasonRetrieved.val),
    ("retrieval_profile_version", .str result.retrievalProfileVersion.val)]

def WriteStatus.value : WriteStatus → String
  | .created => "created"
  | .alreadyExists => "already_exists"

def ForgetStatus.value : ForgetStatus → String
  | .forgotten => "forgotten"
  | .alreadyAbsent => "already_absent"

/-- The dump of a response. -/
def ResponseData.json : ResponseData R → JsonValue
  | .write memory status => .obj [("memory", memory.json), ("status", .str status.value)]
  | .search response =>
    .obj [("memories", .arr (response.memories.map SearchResult.json)),
      ("count", .int response.count.val)]
  | .update memory => .obj [("memory", memory.json), ("status", .str "updated")]
  | .forget status => .obj [("status", .str status.value)]

def PublicErrorCode.value : PublicErrorCode → String
  | .validation => "validation_error"
  | .notFound => "not_found"
  | .versionConflict => "version_conflict"
  | .forbidden => "forbidden"
  | .rateLimited => "rate_limited"
  | .dependencyUnavailable => "dependency_unavailable"
  | .internal => "internal_error"

/-- The dump of an envelope. -/
def Envelope.json : Envelope R → JsonValue
  | .success requestId data =>
    .obj [("protocol_version", .str "omp.mcp.v0"), ("request_id", .str requestId.val),
      ("ok", .bool true), ("data", data.json)]
  | .failure requestId error =>
    .obj [("protocol_version", .str "omp.mcp.v0"), ("request_id", .str requestId.val),
      ("ok", .bool false),
      ("error", .obj [("code", .str error.code.value), ("message", .str error.message),
        ("retryable", .bool error.retryable)])]

/-! ## Literals -/

/-- `repr` of a number of the wire is a literal of a float. -/
def PrintsUnits (R : Type) [Python R] : Prop :=
  ∀ x : R, Python.inUnit x = true → JsonValue.IsFloatLiteral (Python.numRepr x)

/-- The rationals, with six decimals. -/
theorem printsUnits_rat : PrintsUnits ℚ := by
  intro x hx
  have hnonneg : 0 ≤ roundHalfEven (x * 10 ^ 6) := by
    have h0 : (0 : ℚ) ≤ x := by
      have hle : Python.le (Python.ofInt 0) x = true := (Bool.and_eq_true_iff.mp hx).1
      simpa [Python.le, Python.ofInt] using hle
    exact (roundHalfEven_bounds (n := (x * 10 ^ 6).ceil) (by positivity) Rat.le_ceil).1
  have hwhole : ∀ n, padded 1 n = Nat.toDigits 10 n := by
    intro n
    have hpos := List.length_pos_iff.mpr (Nat.toDigits_ne_nil (n := n) (b := 10))
    unfold padded
    rw [Nat.sub_eq_zero_of_le hpos]
    rfl
  show JsonValue.IsFloatLiteral (fixedDecimal 6 x)
  unfold fixedDecimal
  dsimp only
  rw [if_neg (not_lt.mpr hnonneg), List.nil_append, hwhole]
  refine JsonValue.isFloatLiteral_decimal _ ?_ fun c hc => isDigit_of_mem_padded hc
  unfold padded
  simp [Nat.toDigits_ne_nil]

theorem hasLiterals_orNull (text : Option String) : (orNull text).HasLiterals := by
  cases text with
  | none => exact trivial
  | some text => exact trivial

theorem hasLiterals_dumped (p : WireProvenance) : p.dumped.HasLiterals :=
  ⟨trivial, trivial, hasLiterals_orNull _, hasLiterals_orNull _, hasLiterals_orNull _, trivial⟩

section

variable (h : PrintsUnits R)
include h

theorem PrintsUnits.record (record : MemoryRecord R) : record.json.HasLiterals :=
  ⟨trivial, trivial, trivial, trivial, hasLiterals_orNull _, h _ record.importance.property,
    h _ record.confidence.property, trivial, trivial, trivial, trivial, hasLiterals_orNull _,
    hasLiterals_dumped _, trivial⟩

theorem PrintsUnits.results (results : List (SearchResult R)) :
    JsonValue.ItemsHaveLiterals (results.map SearchResult.json) := by
  induction results with
  | nil => exact trivial
  | cons result results ih =>
    exact ⟨⟨h.record result.memory, h _ result.score.property, trivial, trivial, trivial⟩, ih⟩

theorem PrintsUnits.data (data : ResponseData R) : data.json.HasLiterals := by
  cases data with
  | write memory status => exact ⟨h.record memory, trivial, trivial⟩
  | search response => exact ⟨h.results response.memories, trivial, trivial⟩
  | update memory => exact ⟨h.record memory, trivial, trivial⟩
  | forget status => exact ⟨trivial, trivial⟩

/-- All floats of an envelope are written as floats. -/
theorem PrintsUnits.envelope (envelope : Envelope R) : envelope.json.HasLiterals := by
  cases envelope with
  | success requestId data => exact ⟨trivial, trivial, trivial, h.data data, trivial⟩
  | failure requestId error =>
    exact ⟨trivial, trivial, trivial, ⟨trivial, trivial, trivial, trivial⟩, trivial⟩

end

end OpenMemory.Mcp
