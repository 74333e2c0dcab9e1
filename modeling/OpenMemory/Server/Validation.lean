import OpenMemory.Mcp.Projection
import OpenMemory.Server.Packages

/-!
# The models of a package read what they dump

Validating the dump of a record gives the record, whether its nulls are written or left out
(`Writes`) and in whatever order its members stand (`Rearranges`): so it is for a payload, which
shows its nulls, for the dump of a model, which leaves them out, and for a text, in which everything
is in key order.

- `required_held`, `orDefault_held`, `orNone_held`: a field with its value, found by its name.
- `ExportMemoryRecord.modelValidate_views`: a record.
- `ExportDocument.modelValidate_json`: a document.
-/


namespace OpenMemory.Server

open Lib JsonValue
open MemoryApplicationService (isHexDigest)
open Mcp (Text Ranged UnitFloat BoundedInt LowerInt WireType WireState WireSourceType WireProvenance
  UtcText MemoryRecord literal validTimestamp enumOf orNull unitJson v0States)
open WireField

variable {R : Type} [Python R] {f : JsonValue → JsonValue} {lib : PackageReader R}

/-! ## Fields read back -/

/-- A text that has been validated is valid. -/
theorem Text.modelValidate_val {lo hi : Nat} (t : Text lo hi) :
    Text.modelValidate lo hi t.val = .ok t := by
  obtain ⟨val, trimmed, bounded⟩ := t
  unfold Text.modelValidate
  simp only [trimmed]
  rw [dif_pos bounded]

theorem Ranged.modelValidate_val {α : Type} {p : α → Bool} (x : Ranged p) :
    Ranged.modelValidate p x.val = .ok x := dif_pos x.property

/-- A float that is printed as one and read back. -/
structure PrintsFloat (lib : PackageReader R) (x : R) : Prop where
  literal : IsFloatLiteral (Python.numRepr x)
  reads : lib.floatOf (floatJson x) = some x

theorem validTimestamp_val (t : UtcText) : validTimestamp R t.val = .ok t := by
  obtain ⟨_, d, hutc, rfl⟩ := t
  have haware := ensureAware_utc hutc "captured_at"
  unfold validTimestamp
  rw [fromZ_zulu, Python.fromisoformat_isoformat d hutc]
  dsimp only
  rw [if_neg (by simp [hutc])]
  split
  · rename_i e he
    rw [haware] at he
    cases he
  · rename_i utc he
    rw [haware] at he
    cases he
    rfl

theorem length_utcText (t : UtcText) : 1 ≤ t.val.length ∧ t.val.length ≤ 80 := by
  obtain ⟨_, d, -, rfl⟩ := t
  have hpos : d.zulu.length ≠ 0 := fun h => d.zulu_ne_empty (by simpa using h)
  have hle := d.length_zulu_le
  dsimp only
  omega

theorem trimBoth_utcText (t : UtcText) : trimBoth isTrimmed t.val = t.val := by
  obtain ⟨_, d, -, rfl⟩ := t
  exact Mcp.trimBoth_zulu d

/-- A list reads back if its items do. -/
theorem items_map {α β : Type} {check : JsonValue → Except PyError β} {encode : α → JsonValue}
    {g : α → β} {xs : List α} (h : ∀ x ∈ xs, check (encode x) = .ok (g x)) :
    items check (xs.map encode) = .ok (xs.map g) := by
  induction xs with
  | nil => rfl
  | cons x xs ih =>
    obtain ⟨hfirst, hrest⟩ := List.forall_mem_cons.mp h
    rw [List.map_cons, items, hfirst, ih hrest]
    rfl

section

variable {α β : Type} {fields : List (String × Option JsonValue)}
  {members : List (String × JsonValue)}

/-- A field that the object holds is read. -/
theorem required_held (h : Views f fields members) {check : JsonValue → Except PyError α} {a : α}
    {value : JsonValue} (key : String) (hlookup : fields.lookup key = some (some value))
    (hcheck : check (f value) = .ok a) : required check (member key members) = .ok a := by
  rw [h.held hlookup]
  exact hcheck

/-- So is one that has a default. -/
theorem orDefault_held (h : Views f fields members) {check : JsonValue → Except PyError α}
    {a default : α} {value : JsonValue} (key : String)
    (hlookup : fields.lookup key = some (some value)) (hcheck : check (f value) = .ok a) :
    orDefault default check (member key members) = .ok a := by
  rw [h.held hlookup]
  exact hcheck

/-- So is one that may be null. -/
theorem orNone_held (h : Views f fields members) {check : JsonValue → Except PyError β}
    {encode : α → JsonValue} {g : α → β} {x : Option α} (key : String)
    (hlookup : fields.lookup key = some (x.map encode)) (hnull : check .null = invalid)
    (hcheck : ∀ a ∈ x, check (f (encode a)) = .ok (g a)) :
    orNone check (member key members) = .ok (x.map g) := by
  cases x with
  | none =>
    rcases h.empty hlookup with hmember | hmember
    · rw [hmember]
      rfl
    · rw [hmember]
      rfl
  | some a =>
    have hvalue := hcheck a rfl
    rw [h.held hlookup]
    -- What was written of it is not `null`, which the check refuses.
    generalize f (encode a) = value at hvalue
    cases value with
    | null =>
      rw [hnull] at hvalue
      cases hvalue
    | _ => exact congrArg (Except.map some) hvalue

/-- An object with its own fields reads back, in whatever order they come. -/
theorem object_views (h : Views f fields members) {keys : List String}
    {read : List (String × JsonValue) → Except PyError α} {a : α}
    (hkeys : fields.map Prod.fst = keys) (hread : read members = .ok a) :
    object keys read (.obj members) = .ok a := by
  have hall : (members.all fun m => decide (m.1 ∈ keys)) = true := by
    rw [List.all_eq_true]
    intro m hm
    exact decide_eq_true (hkeys ▸ h.keys m hm)
  unfold object
  dsimp only
  rw [hread, except_ok_bind, if_pos hall]
  rfl

end

/-- What a writer has written is viewed. -/
def Writes (f : JsonValue → JsonValue) (write : Writer) : Prop :=
  ∀ fields, (fields.map Prod.fst).Nodup →
    ∃ members, f (.obj (write fields)) = .obj members ∧ Views f fields members

/-- Fields without a value may be left out. -/
theorem writes_present (hf : Rearranges f) : Writes f present := fun fields hkeys => by
  have hviews := hf.views [] fields hkeys
  exact hviews

/-- Or they may be written as null. -/
theorem writes_nulled (hf : Rearranges f) : Writes f nulled := fun fields hkeys => by
  have hviews := hf.views fields [] (by rwa [List.append_nil])
  have hnil : present [] = [] := rfl
  rwa [hnil, List.append_nil, List.append_nil] at hviews

section

variable (hf : Rearranges f)
include hf

/-- A text reads back. -/
theorem text_textJson {lo hi : Nat} (t : Text lo hi) : text lo hi (f (textJson t)) = .ok t := by
  rw [textJson, hf.str]
  exact Text.modelValidate_val t

theorem trimmed_str (t : Trimmed) : trimmed (f (.str t.val)) = .ok t := by
  rw [hf.str]
  exact congrArg Except.ok (Subtype.ext t.property)

/-- A number between 0 and 1 reads back where it prints as a literal. -/
theorem number_unitJson {x : UnitFloat R} (h : PrintsFloat lib x.val) :
    number lib.floatOf Python.inUnit (f (unitJson x)) = .ok x := by
  have hreads : lib.floatOf (.float (Python.numRepr x.val)) = some x.val := h.reads
  rw [unitJson, hf.float]
  unfold number
  rw [hreads]
  exact Ranged.modelValidate_val x

omit [Python R] in
theorem number_int {p : Int → Bool} (n : Ranged p) :
    number lib.intOf p (f (.int n.val)) = .ok n := by
  rw [hf.int]
  unfold number
  rw [lib.intOf_int]
  exact Ranged.modelValidate_val n

/-- A member of an enumeration reads back. -/
theorem oneOf_str {α : Type} {ofValue : String → Option α} {s : String} {a : α}
    (h : ofValue s = some a) : oneOf ofValue (f (.str s)) = .ok a := by
  rw [hf.str]
  exact Mcp.literal_ok.mpr h

/-- A text of a pattern reads back. -/
theorem matching_str {p : String → Bool} (t : Ranged p) (h : trimBoth isTrimmed t.val = t.val) :
    matching p (f (.str t.val)) = .ok t := by
  rw [hf.str]
  unfold matching
  dsimp only
  rw [h]
  exact Ranged.modelValidate_val t

theorem list_map {α β : Type} {check : JsonValue → Except PyError β} {encode : α → JsonValue}
    {g : α → β} {xs : List α} (h : ∀ x ∈ xs, check (f (encode x)) = .ok (g x)) :
    list check (f (.arr (xs.map encode))) = .ok (xs.map g) := by
  rw [hf.arr, List.map_map]
  exact items_map h

omit hf in
/-- What is written of the fields is read member by member. -/
theorem object_written {α : Type} {write : Writer} (hw : Writes f write) {keys : List String}
    {fields : List (String × Option JsonValue)}
    {read : List (String × JsonValue) → Except PyError α} {a : α}
    (hkeys : fields.map Prod.fst = keys) (hnodup : keys.Nodup)
    (hread : ∀ members, Views f fields members → read members = .ok a) :
    object keys read (f (.obj (write fields))) = .ok a := by
  obtain ⟨members, hobj, hviews⟩ := hw fields (hkeys ▸ hnodup)
  rw [hobj]
  exact object_views hviews hkeys (hread members hviews)

end

/-! ## Models read back -/

theorem trimBoth_metric (metric : Ranged isMetric) :
    trimBoth isTrimmed metric.val = metric.val := by
  have hnames : ∀ text ∈ ["cosine", "l2", "inner_product"], trimBoth isTrimmed text = text := by
    decide
  exact hnames metric.val (of_decide_eq_true metric.property)

theorem trimBoth_hexDigest (digest : Ranged isHexDigest) :
    trimBoth isTrimmed digest.val = digest.val := by
  obtain ⟨text, h⟩ := digest
  have hdigits : "0123456789abcdef".toList = (List.range 16).map hexDigit := rfl
  have htrimmed : ∀ n < 16, isTrimmed (hexDigit n) = false := by decide
  rw [isHexDigest, Bool.and_eq_true, List.all_eq_true] at h
  refine trimBoth_eq_self_of_forall fun c hc => ?_
  have hmem := of_decide_eq_true (h.2 c hc)
  rw [hdigits] at hmem
  obtain ⟨n, hn, rfl⟩ := List.mem_map.mp hmem
  exact htrimmed n (List.mem_range.mp hn)

/-- The members of an object. -/
def membersOf : JsonValue → List (String × JsonValue)
  | .obj members => members
  | _ => []

/-- The history record with the members of its provenance in other places. -/
def HistoryRecord.rearrange (f : JsonValue → JsonValue) (record : HistoryRecord R) :
    HistoryRecord R :=
  { record with provenance := membersOf (f (.obj record.provenance)) }

def ExportMemoryRecord.rearrange (f : JsonValue → JsonValue) (record : ExportMemoryRecord R) :
    ExportMemoryRecord R :=
  { record with history := record.history.map (HistoryRecord.rearrange f) }

/-- The numbers of a record. -/
def HistoryRecord.numbers (record : HistoryRecord R) : List R :=
  [record.importance.val, record.confidence.val]

def ExportMemoryRecord.numbers (record : ExportMemoryRecord R) : List R :=
  [record.importance.val, record.confidence.val] ++
    record.history.flatMap HistoryRecord.numbers ++ record.embeddingValues.getD []

section

variable {write : Writer} (hf : Rearranges f) (hw : Writes f write)
include hf hw

omit [Python R] in
/-- A profile reads back from its fields. -/
theorem EmbeddingProfileRecord.modelValidate_fields (p : EmbeddingProfileRecord) :
    EmbeddingProfileRecord.modelValidate lib (f (.obj (write p.fields))) = .ok p := by
  refine object_written hw rfl (by decide) fun members h => ?_
  dsimp only
  rw [required_held h "profile_id" rfl (text_textJson hf p.profileId),
    required_held h "profile_version" rfl (text_textJson hf p.profileVersion),
    required_held h "dimension" rfl (number_int hf p.dimension),
    required_held h "metric" rfl (matching_str hf p.metric (trimBoth_metric p.metric))]
  rfl

/-- So does an origin. -/
theorem readProvenance_fields (p : WireProvenance) :
    readProvenance R (f (.obj (write (provenanceFields p)))) = .ok p := by
  refine object_written hw rfl (by decide) fun members h => ?_
  -- The validator prints what it has read, which is the same text.
  have hcaptured : text 1 80 (f (.str p.capturedAt.val)) =
      .ok ⟨p.capturedAt.val, trimBoth_utcText p.capturedAt, length_utcText p.capturedAt⟩ := by
    rw [hf.str]
    exact Text.modelValidate_val ⟨_, trimBoth_utcText p.capturedAt, length_utcText p.capturedAt⟩
  have hsource : WireSourceType.ofValue p.sourceType.value = some p.sourceType := by
    cases p.sourceType <;> rfl
  dsimp only
  rw [required_held h "captured_at" rfl hcaptured,
    required_held h "source_type" rfl (oneOf_str hf hsource),
    orNone_held h "source_id" rfl rfl fun t _ => text_textJson hf t,
    orNone_held h "source_model" rfl rfl fun t _ => text_textJson hf t,
    orNone_held h "evidence" rfl rfl fun t _ => text_textJson hf t]
  simp only [except_ok_bind, validTimestamp_val, Option.map_id']
  rfl

/-- So does a version, up to the order of the fields within its values. -/
theorem HistoryRecord.modelValidate_fields (record : HistoryRecord R)
    (hnumbers : ∀ x ∈ record.numbers, PrintsFloat lib x) :
    HistoryRecord.modelValidate lib (f (.obj (write record.fields))) =
      .ok (record.rearrange f) := by
  refine object_written hw rfl (by decide) fun members h => ?_
  have hprovenance : anyDict (f (.obj record.provenance)) =
      .ok (membersOf (f (.obj record.provenance))) := by
    obtain ⟨members', hobj, -⟩ := hf.obj record.provenance
    rw [hobj]
    rfl
  dsimp only
  rw [required_held h "memory_id" rfl (text_textJson hf _),
    required_held h "version" rfl (number_int hf _),
    required_held h "content" rfl (text_textJson hf _),
    required_held h "type" rfl (text_textJson hf _),
    required_held h "state" rfl (text_textJson hf _),
    required_held h "importance" rfl (number_unitJson hf (hnumbers _ (by simp [numbers]))),
    required_held h "confidence" rfl (number_unitJson hf (hnumbers _ (by simp [numbers]))),
    orNone_held h "space" rfl rfl fun t _ => text_textJson hf t,
    orNone_held h "occurred_at" rfl rfl fun t _ => text_textJson hf t,
    required_held h "provenance" rfl hprovenance,
    required_held h "changed_at" rfl (text_textJson hf _),
    required_held h "change_reason" rfl (text_textJson hf _)]
  simp only [except_ok_bind, Option.map_id']
  rfl

omit hw in
/-- So does a relation. -/
theorem RelationRecord.modelValidate_fields (hw : Writes f write) (record : RelationRecord) :
    RelationRecord.modelValidate (f (.obj (write record.fields))) = .ok record := by
  refine object_written hw rfl (by decide) fun members h => ?_
  dsimp only
  rw [required_held h "source_id" rfl (text_textJson hf _),
    required_held h "target_id" rfl (text_textJson hf _),
    required_held h "type" rfl (text_textJson hf _),
    required_held h "owner_id" rfl (text_textJson hf _),
    required_held h "created_at" rfl (text_textJson hf _)]
  rfl

end

/-- A reader of the members of a record finds the record. -/
theorem ExportMemoryRecord.modelValidate_views {write : Writer} (hf : Rearranges f)
    (hw : Writes f write) {record : ExportMemoryRecord R}
    (hnumbers : ∀ x ∈ record.numbers, PrintsFloat lib x) {members : List (String × JsonValue)}
    (h : Views f (record.fields write) members) :
    ExportMemoryRecord.modelValidate lib (.obj members) = .ok (record.rearrange f) := by
  refine object_views h rfl ?_
  have htype : WireType.ofValue record.type.value = some record.type := by
    cases record.type <;> rfl
  have hstate : WireState.ofValue record.state.value = some record.state := by
    cases record.state <;> rfl
  have hhistory : ∀ v ∈ record.history,
      HistoryRecord.modelValidate lib (f (.obj (write v.fields))) = .ok (v.rearrange f) := by
    intro v hv
    refine HistoryRecord.modelValidate_fields hf hw v fun x hx => hnumbers x ?_
    exact List.mem_append_left _ (List.mem_append_right _ (List.mem_flatMap.mpr ⟨v, hv, hx⟩))
  have hvalues : ∀ xs ∈ record.embeddingValues, list (anyFloat lib) (f (.arr (xs.map floatJson))) =
      .ok xs := by
    intro xs hxs
    have hfloats : ∀ x ∈ xs, anyFloat lib (f (floatJson x)) = .ok x := by
      intro x hx
      have hreads : lib.floatOf (.float (Python.numRepr x)) = some x :=
        (hnumbers x (List.mem_append_right _ (by rw [hxs]; exact hx))).reads
      rw [floatJson, hf.float]
      unfold anyFloat
      rw [hreads]
    rw [list_map hf hfloats, List.map_id']
  dsimp only
  rw [required_held h "provenance" rfl (readProvenance_fields hf hw _),
    required_held h "id" rfl (text_textJson hf _),
    required_held h "owner_id" rfl (text_textJson hf _),
    required_held h "content" rfl (text_textJson hf _),
    required_held h "type" rfl (oneOf_str hf htype),
    orNone_held h "space" rfl rfl fun t _ => text_textJson hf t,
    required_held h "importance" rfl (number_unitJson hf (hnumbers _ (by simp [numbers]))),
    required_held h "confidence" rfl (number_unitJson hf (hnumbers _ (by simp [numbers]))),
    required_held h "state" rfl (oneOf_str hf hstate),
    required_held h "version" rfl (number_int hf _),
    required_held h "created_at" rfl (text_textJson hf _),
    required_held h "updated_at" rfl (text_textJson hf _),
    orNone_held h "occurred_at" rfl rfl fun t _ => text_textJson hf t,
    orNone_held h "idempotency_key" rfl rfl fun t _ => text_textJson hf t,
    orDefault_held h "provenance_evidence" rfl (list_map hf fun t _ => trimmed_str hf t),
    orNone_held h "embedding_profile" rfl rfl fun p _ =>
      EmbeddingProfileRecord.modelValidate_fields hf hw p,
    orDefault_held h "history" rfl (list_map hf hhistory),
    orDefault_held h "relations" rfl
      (list_map hf fun r _ => RelationRecord.modelValidate_fields hf hw r),
    orNone_held h "embedding_values" rfl rfl hvalues,
    orNone_held h "write_fingerprint" rfl rfl fun t _ =>
      matching_str hf t (trimBoth_hexDigest t)]
  simp only [except_ok_bind, Option.map_id', List.map_id']
  rfl

/-- The dump of a record is valid, in any order of its members. -/
theorem ExportMemoryRecord.modelValidate_json (hf : Rearranges f) {record : ExportMemoryRecord R}
    (hnumbers : ∀ x ∈ record.numbers, PrintsFloat lib x) :
    ExportMemoryRecord.modelValidate lib (f record.json) = .ok (record.rearrange f) := by
  have hw := writes_present hf
  obtain ⟨members, hobj, hviews⟩ := hw (record.fields present) (by
    show ExportMemoryRecord.keys.Nodup
    decide)
  rw [json, hobj]
  exact modelValidate_views hf hw hnumbers hviews

/-! ## Documents -/

/-- Reordering fields keeps the ids of a document distinct. -/
theorem unique_rearrange (document : ExportDocument R) :
    ((document.memories.map (ExportMemoryRecord.rearrange f)).map
      fun record => record.id.val).Nodup := by
  rw [List.map_map]
  exact document.unique_ids

def ExportDocument.rearrange (f : JsonValue → JsonValue) (document : ExportDocument R) :
    ExportDocument R where
  exportedAt := document.exportedAt
  includesEmbeddings := document.includesEmbeddings
  memories := document.memories.map (ExportMemoryRecord.rearrange f)
  unique_ids := unique_rearrange document

theorem together_ok {α β : Type} (a : α) (b : β) :
    together (.ok a : Except PyError α) (.ok b : Except PyError β) = .ok (a, b) := rfl

/-- The dump of a document is valid, in any order of its members. -/
theorem ExportDocument.modelValidate_json (hf : Rearranges f) {document : ExportDocument R}
    (hnumbers : ∀ record ∈ document.memories, ∀ x ∈ record.numbers, PrintsFloat lib x) :
    ExportDocument.modelValidate lib (f document.json) = .ok (document.rearrange f) := by
  let fields : List (String × Option JsonValue) :=
    [("format", some (.str "omp.export.v0")), ("exported_at", some (.str document.exportedAt.val)),
      ("includes_embeddings", some (.bool document.includesEmbeddings)),
      ("memories", some (.arr (document.memories.map ExportMemoryRecord.json)))]
  have hexported : exportedAtField R (f (.str document.exportedAt.val)) =
      .ok document.exportedAt := by
    rw [hf.str]
    exact (if_pos (length_utcText document.exportedAt)).trans (validTimestamp_val _)
  have hformat : formatField (f (.str "omp.export.v0")) = .ok () := by
    rw [hf.str]
    rfl
  have hincludes : boolField lib (f (.bool document.includesEmbeddings)) =
      .ok document.includesEmbeddings := by
    rw [hf.bool]
    unfold boolField
    rw [lib.boolOf_bool]
  have hmemories : list (ExportMemoryRecord.modelValidate lib)
      (f (.arr (document.memories.map ExportMemoryRecord.json))) =
        .ok (document.memories.map (ExportMemoryRecord.rearrange f)) :=
    list_map hf fun record hrecord =>
      ExportMemoryRecord.modelValidate_json hf (hnumbers record hrecord)
  have hkeys : fields.map Prod.fst = keys := rfl
  refine object_written (writes_present hf) hkeys (by decide) fun members h => ?_
  dsimp only
  rw [required_held h "exported_at" rfl hexported, required_held h "memories" rfl hmemories,
    required_held h "format" rfl hformat, orDefault_held h "includes_embeddings" rfl hincludes,
    together_ok]
  simp only [except_ok_bind]
  exact dif_pos (document.rearrange f).unique_ids

end OpenMemory.Server
