import OpenMemory.Application.Models

/-!
# Command fingerprints

The canonical JSON of a command and its digest, one per operation: which fields
enter is what decides whether a replayed key counts as the same operation.

Note what is *absent*: the tenant from write, update, forget, confirm, pin and
discard, and the idempotency key everywhere. Capture is the one operation that
fingerprints the tenant.
-/

namespace OpenMemory

variable {R : Type} [Python R]

/-- `_canonical_provenance`. -/
def canonicalProvenance (p : Provenance) : Json R :=
  .obj [
    ("source_type", .str p.sourceType.value),
    ("source_id", .ofOption .str p.sourceId),
    ("source_model", .ofOption .str p.sourceModel),
    ("source_client", .ofOption .str p.sourceClient),
    ("source_connection_id", .ofOption .str p.sourceConnectionId),
    ("conversation_id", .ofOption .str p.conversationId),
    ("message_id", .ofOption .str p.messageId),
    ("captured_at", .str p.capturedAt.isoformat),
    ("evidence", .arr (p.evidence.map .str))]

/-- `_canonical_consent`. -/
def canonicalConsent (c : CaptureConsent) : Json R :=
  .obj [
    ("mode", .str c.mode.value),
    ("consent_id", .str c.consentId),
    ("reason_code", .str c.reasonCode.value),
    ("policy_version", .str c.policyVersion),
    ("granted_at", .str c.grantedAt.isoformat)]

/-- `_canonical_write_command`. -/
def canonicalWriteCommand (c : WriteMemoryCommand R) : Json R :=
  .obj [
    ("content", .str c.content),
    ("type", .str c.memoryType.value),
    ("importance", .num c.importance),
    ("confidence", .num c.confidence),
    ("space", .ofOption .str c.space),
    ("occurred_at", .ofOption (fun at_ => .str at_.isoformat) c.occurredAt),
    ("provenance", canonicalProvenance c.provenance)]

/-- `MemoryApplicationService._fingerprint`. -/
def fingerprintWriteCommand (c : WriteMemoryCommand R) : String := digest (canonicalWriteCommand c)

/-- The fingerprint of `capture`. -/
def fingerprintCaptureCommand (c : CaptureMemoryCommand R) : String :=
  digest (R := R) (.obj [
    ("tenant_id", .str c.tenantId),
    ("connection_id", .str c.connectionId),
    ("content", .str c.content),
    ("type", .str c.memoryType.value),
    ("space", .ofOption .str c.space),
    ("importance", .num c.importance),
    ("confidence", .num c.confidence),
    ("provenance", canonicalProvenance c.provenance),
    ("consent", canonicalConsent c.consent)])

/-- The fingerprint of `confirm_candidate`. -/
def fingerprintConfirmCommand (R : Type) [Python R] (c : ConfirmCandidateCommand) : String :=
  digest (R := R) (.obj [
    ("memory_id", .str c.memoryId.str),
    ("expected_version", .int c.expectedVersion),
    ("content", .ofOption .str c.content),
    ("type", .ofOption (fun t => .str t.value) c.memoryType),
    ("space", .ofOption .str c.space),
    ("reason", .str c.actorReason)])

/-- The fingerprint of `pin`. -/
def fingerprintPinCommand (R : Type) [Python R] (c : PinMemoryCommand) : String :=
  digest (R := R) (.obj [
    ("memory_id", .str c.memoryId.str),
    ("expected_version", .int c.expectedVersion),
    ("pinned", .bool c.pinned)])

/-- The fingerprint of `discard_candidate`. -/
def fingerprintDiscardCommand (R : Type) [Python R] (c : DiscardCandidateCommand) : String :=
  digest (R := R) (.obj [
    ("memory_id", .str c.memoryId.str),
    ("expected_version", .int c.expectedVersion),
    ("reason", .str c.reasonCode)])

/-- `fingerprint_update_command`. -/
def fingerprintUpdateCommand (c : UpdateMemoryCommand R) : String :=
  digest (R := R) (.obj [
    ("owner_id", .str c.ownerId),
    ("memory_id", .str c.memoryId.str),
    ("expected_version", .int c.expectedVersion),
    ("content", .ofOption .str c.content),
    ("memory_type", .ofOption (fun t => .str t.value) c.memoryType),
    ("importance", .ofOption .num c.importance),
    ("confidence", .ofOption .num c.confidence),
    ("state", .ofOption (fun s => .str s.value) c.state),
    ("occurred_at", .ofOption (fun at_ => .str at_.isoformat) c.occurredAt),
    ("space", .ofOption .str c.space),
    ("provenance", .ofOption canonicalProvenance c.provenance),
    ("supersedes_memory_id", .ofOption (fun id => .str id.str) c.supersedesMemoryId),
    ("contradicts_memory_id", .ofOption (fun id => .str id.str) c.contradictsMemoryId),
    ("change_reason", .str c.changeReason)])

/-- `fingerprint_forget_command`. -/
def fingerprintForgetCommand (R : Type) [Python R] (c : ForgetMemoryCommand) : String :=
  digest (R := R) (.obj [
    ("owner_id", .str c.ownerId),
    ("memory_id", .str c.memoryId.str)])

/-! ## What a digest determines

The text of a removal determines the memory that it addresses; so does its digest, unless two
texts collide.
-/

/-- The canonical form of a forget. -/
def canonicalForgetCommand (R : Type) (c : ForgetMemoryCommand) : Json R :=
  .obj [
    ("owner_id", .str c.ownerId),
    ("memory_id", .str c.memoryId.str)]

/-- The canonical form of a discard. -/
def canonicalDiscardCommand (R : Type) (c : DiscardCandidateCommand) : Json R :=
  .obj [
    ("memory_id", .str c.memoryId.str),
    ("expected_version", .int c.expectedVersion),
    ("reason", .str c.reasonCode)]

/-- An id needs no escapes. -/
theorem quote_str (u : UUID) : Json.quote u.str = String.ofList ('"' :: u.str.toList ++ ['"']) := by
  unfold Json.quote
  have hplain : u.str.toList.flatMap Json.escapeChar = u.str.toList := by
    have hchar : ∀ c ∈ u.str.toList, Json.escapeChar c = [c] := by
      intro c hc
      rcases UUID.mem_str hc with rfl | ⟨n, hn, rfl⟩
      · rfl
      · have hall : ∀ n < 16, Json.escapeChar (hexDigit n) = [hexDigit n] := by decide
        exact hall n hn
    rw [List.flatMap_congr hchar, List.flatMap_singleton']
  rw [hplain]

/-- Two texts that begin with an id begin with the same one. -/
theorem str_of_quote_append {u u' : UUID} {rest rest' : List Char}
    (h : (Json.quote u.str).toList ++ rest = (Json.quote u'.str).toList ++ rest') : u = u' := by
  rw [quote_str, quote_str, String.toList_ofList, String.toList_ofList] at h
  have hlength : ('"' :: u.str.toList ++ ['"']).length = ('"' :: u'.str.toList ++ ['"']).length := by
    simp only [List.cons_append, List.length_cons, List.length_append, List.length_nil,
      String.length_toList, UUID.length_str]
  have hquoted := List.append_inj_left h hlength
  have hchars := List.append_cancel_right (List.cons.inj hquoted).2
  exact UUID.str_injective (String.toList_injective hchars)

/-- The members of an object, as a list of characters. -/
theorem toList_dumps_obj (members : List (String × Json R)) :
    (Json.obj members).dumps.toList =
      '\x7b' :: ((Json.joinMembers (Json.dumpsMembers members)).toList ++ ['\x7d']) := by
  simp only [Json.dumps, String.toList_append]
  rfl

theorem joinMembers_forget (o i : String) :
    (Json.joinMembers [("owner_id", o), ("memory_id", i)]).toList =
      "\"memory_id\":".toList ++ (i.toList ++ (",\"owner_id\":" ++ o).toList) := by
  have hsort : [("owner_id", o), ("memory_id", i)].insertionSort (fun a b => a.1 ≤ b.1) =
      [("memory_id", i), ("owner_id", o)] := by
    simp only [List.insertionSort, List.foldr, List.orderedInsert]
    rw [if_neg (by decide)]
  have hid : (Json.quote "memory_id").toList ++ ":".toList = "\"memory_id\":".toList := by decide
  have howner : ",".toList ++ ((Json.quote "owner_id").toList ++ ":".toList) =
      ",\"owner_id\":".toList := by decide
  unfold Json.joinMembers
  rw [hsort]
  simp only [List.map_cons, List.map_nil, String.intercalate_cons_cons,
    String.intercalate_singleton, String.toList_append, ← hid, ← howner, List.append_assoc]

theorem joinMembers_discard (i v r : String) :
    (Json.joinMembers [("memory_id", i), ("expected_version", v), ("reason", r)]).toList =
      "\"expected_version\":".toList ++ (v.toList ++ ',' :: ("\"memory_id\":".toList ++
        (i.toList ++ (",\"reason\":" ++ r).toList))) := by
  have hsort : [("memory_id", i), ("expected_version", v), ("reason", r)].insertionSort
      (fun a b => a.1 ≤ b.1) = [("expected_version", v), ("memory_id", i), ("reason", r)] := by
    simp only [List.insertionSort, List.foldr, List.orderedInsert]
    rw [if_pos (by decide)]
    simp only [List.orderedInsert]
    rw [if_neg (by decide), if_pos (by decide)]
  have hversion : (Json.quote "expected_version").toList ++ ":".toList =
      "\"expected_version\":".toList := by decide
  have hid : ",".toList ++ ((Json.quote "memory_id").toList ++ ":".toList) =
      ',' :: "\"memory_id\":".toList := by decide
  have hreason : ",".toList ++ ((Json.quote "reason").toList ++ ":".toList) =
      ",\"reason\":".toList := by decide
  unfold Json.joinMembers
  rw [hsort]
  simp only [List.map_cons, List.map_nil, String.intercalate_cons_cons,
    String.intercalate_singleton, String.toList_append, ← hversion, ← hreason, ← List.cons_append,
    ← hid, List.append_assoc]

/-- A printed integer has no comma. -/
theorem comma_not_mem_toString (n : Int) : ',' ∉ (toString n).toList := by
  have hnat : ∀ m : Nat, ',' ∉ m.repr.toList := by
    intro m hmem
    rw [Nat.toList_repr] at hmem
    have hdigit := Nat.isDigit_of_mem_toDigits (by decide) (by decide) hmem
    revert hdigit
    decide
  cases n with
  | ofNat m => exact hnat m
  | negSucc m =>
    show ',' ∉ ("-" ++ (m + 1).repr).toList
    rw [String.toList_append, List.mem_append, not_or]
    exact ⟨by decide, hnat _⟩

theorem canonicalForget_memoryId {c c' : ForgetMemoryCommand}
    (h : (canonicalForgetCommand R c).dumps = (canonicalForgetCommand R c').dumps) :
    c.memoryId = c'.memoryId := by
  have hlist := congrArg String.toList h
  unfold canonicalForgetCommand at hlist
  rw [toList_dumps_obj, toList_dumps_obj, List.cons.injEq] at hlist
  simp only [Json.dumpsMembers, Json.dumps, joinMembers_forget, true_and, List.append_assoc]
    at hlist
  exact str_of_quote_append (List.append_cancel_left hlist)

theorem canonicalDiscard_memoryId {c c' : DiscardCandidateCommand}
    (h : (canonicalDiscardCommand R c).dumps = (canonicalDiscardCommand R c').dumps) :
    c.memoryId = c'.memoryId := by
  have hlist := congrArg String.toList h
  unfold canonicalDiscardCommand at hlist
  rw [toList_dumps_obj, toList_dumps_obj, List.cons.injEq] at hlist
  simp only [Json.dumpsMembers, Json.dumps, joinMembers_discard, true_and, List.append_assoc,
    List.cons_append] at hlist
  -- the version ends at the first comma
  have hcomma : ∀ (n : Int) (rest : List Char),
      ((toString n).toList ++ ',' :: rest).dropWhile (fun c => decide (c ≠ ',')) = ',' :: rest := by
    intro n rest
    rw [List.dropWhile_append_of_pos]
    · rfl
    · intro c hc
      refine decide_eq_true ?_
      rintro rfl
      exact comma_not_mem_toString n hc
  have hrest := congrArg (List.dropWhile fun c => decide (c ≠ ',')) (List.append_cancel_left hlist)
  rw [hcomma, hcomma] at hrest
  exact str_of_quote_append (List.append_cancel_left (List.cons.inj hrest).2)

end OpenMemory
