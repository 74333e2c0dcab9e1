import OpenMemory.Lib.Folds
import OpenMemory.Lib.Tags
import OpenMemory.Worker.Snapshots

/-!
# What a signature of the worker says

One secret signs two kinds of messages: `signing_input` of an envelope, fields joined by `|`, and
`_snapshot_input` of an item, a JSON object with ten keys. HMAC is idealised on the messages that
occur (`IdealTag`); what is left is that the messages determine their fields.

- The ids have a fixed length, a printed expiry has no `|` in it, and the nonce comes last, so it
  may contain anything (`signingInput_inj`).
- The values of an item are arbitrary objects. The text of one that was emitted, a text or an
  integer, is the text of no other object (`valueText_inj`), so an item with the message of an
  emitted one has its values (`snapshotInput_inj`).
- A message of the first kind starts with `u`, one of the second with a brace (`disjoint_forms`), so
  a tag for the one kind is refused for the other.

`signatures_bind_fields` puts them together, for whatever `restore` accepts.
-/

namespace OpenMemory.Worker

open Lib Cloud

/-! ## The text of an object -/

/-- What `json.dumps` prints for a value, `none` for what it raises; a float has a text of its own,
and a list or a dict something that follows its opening bracket. -/
def valueText {R : Type} (floatText : R → List Char) (nested : PyObj R → Option (List Char)) :
    PyObj R → Option (List Char)
  | .none => some "null".toList
  | .bool b => some (if b then "true" else "false").toList
  | .int n => some (toString n).toList
  | .float x => some (floatText x)
  | .str s => some (JsonValue.quote s)
  | .bytes _ => none
  | .list items => (nested (.list items)).map ('[' :: ·)
  | .dict items => (nested (.dict items)).map ('\x7b' :: ·)

/-- The texts of the values of a dict whose keys are texts. -/
def memberTexts {R : Type} (floatText : R → List Char) (nested : PyObj R → Option (List Char))
    (members : List (String × PyObj R)) : Option (List (String × List Char)) :=
  members.mapM fun m => (valueText floatText nested m.2).map fun text => (m.1, text)

/-- A character of the text of a float: of a decimal literal, of `NaN` or of an infinity. -/
def isFloatChar (c : Char) : Bool := c.isAlphanum || decide (c ∈ ['+', '-', '.'])

/-- `json.dumps` prints what the grammar of JSON says. -/
class JsonLibrary (R : Type) [WorkerLibrary R] where
  floatText : R → List Char
  nested : PyObj R → Option (List Char)
  floatText_chars : ∀ x, ∀ c ∈ floatText x, isFloatChar c = true
  /-- A float has a point, an exponent or a name. -/
  floatText_mark : ∀ x, ∃ c ∈ floatText x, JsonValue.isIntChar c = false
  dumps_some : ∀ (members : List (String × PyObj R)) (text : String),
    WorkerLibrary.dumps (members.map fun m => (PyKey.str m.1, m.2)) = some text →
      ∃ texts, memberTexts floatText nested members = some texts ∧
        text = String.ofList (JsonValue.objectText texts)

variable {R : Type}

/-- What the worker emits: texts and integers. -/
inductive IsField : PyObj R → Prop
  | str (s : String) : IsField (.str s)
  | int (n : Int) : IsField (.int n)

/-- What the worker emits has a text or an integer under each key that is signed. -/
theorem isField_members (job : LocalJob) (rest : PyDict R) :
    ∀ key ∈ signedKeys, ∃ field, (job.members R ++ rest).get key = some field ∧ IsField field := by
  intro key hkey
  simp only [signedKeys, List.mem_cons, List.not_mem_nil, or_false] at hkey
  rcases hkey with rfl | rfl | rfl | rfl | rfl | rfl | rfl | rfl | rfl | rfl
  all_goals first
    | exact ⟨_, rfl, .str _⟩
    | exact ⟨_, rfl, .int _⟩

variable [WorkerLibrary R] [JsonLibrary R]

theorem isIntChar_of_isDelimiter {c : Char} (h : JsonValue.isDelimiter c = true) :
    JsonValue.isIntChar c = false := by
  rcases JsonValue.isDelimiter_cases h with rfl | rfl <;> decide

theorem isFloatChar_of_isDelimiter {c : Char} (h : JsonValue.isDelimiter c = true) :
    isFloatChar c = false := by
  rcases JsonValue.isDelimiter_cases h with rfl | rfl <;> decide

theorem isFloatChar_of_isIntChar {c : Char} (h : JsonValue.isIntChar c = true) :
    isFloatChar c = true := by
  unfold JsonValue.isIntChar at h
  rw [Bool.or_eq_true] at h
  unfold isFloatChar Char.isAlphanum
  rcases h with h | h
  · rw [h, Bool.or_true, Bool.true_or]
  · obtain rfl := of_decide_eq_true h
    decide

theorem toString_int_ne_nil (n : Int) : (toString n).toList ≠ [] := by
  cases n with
  | ofNat m =>
    show m.repr.toList ≠ []
    rw [Nat.toList_repr]
    exact Nat.toDigits_ne_nil
  | negSucc m => exact fun h => by simp [toString, Int.repr] at h

/-- Only the text of a text starts with a quotation mark. -/
theorem head_ne_quote {value : PyObj R} {t : List Char}
    (ht : valueText JsonLibrary.floatText JsonLibrary.nested value = some t)
    (hvalue : ∀ s, value ≠ .str s) : ∃ c l, t = c :: l ∧ c ≠ '"' := by
  -- only a string starts with a quote
  cases value with
  | none =>
    obtain rfl := Option.some.inj ht
    exact ⟨'n', _, rfl, by decide⟩
  | bool b =>
    obtain rfl := Option.some.inj ht
    cases b with
    | false => exact ⟨'f', _, rfl, by decide⟩
    | true => exact ⟨'t', _, rfl, by decide⟩
  | int n =>
    obtain rfl := Option.some.inj ht
    obtain ⟨c, l, hl⟩ := List.exists_cons_of_ne_nil (toString_int_ne_nil n)
    refine ⟨c, l, hl, ?_⟩
    rintro rfl
    have hchar := JsonValue.isIntChar_of_mem (n := n) (hl ▸ List.mem_cons_self)
    revert hchar
    decide
  | float x =>
    obtain rfl := Option.some.inj ht
    obtain ⟨mark, hmark, -⟩ := JsonLibrary.floatText_mark x
    obtain ⟨c, l, hl⟩ := List.exists_cons_of_ne_nil (List.ne_nil_of_mem hmark)
    refine ⟨c, l, hl, ?_⟩
    rintro rfl
    have hchar := JsonLibrary.floatText_chars x '"' (hl ▸ List.mem_cons_self)
    revert hchar
    decide
  | str s => exact absurd rfl (hvalue s)
  | bytes data => cases ht
  | list items =>
    obtain ⟨l, -, rfl⟩ := Option.map_eq_some_iff.mp ht
    exact ⟨'[', l, rfl, by decide⟩
  | dict items =>
    obtain ⟨l, -, rfl⟩ := Option.map_eq_some_iff.mp ht
    exact ⟨'\x7b', l, rfl, by decide⟩

/-- Only the text of a number starts as that of an integer does. -/
theorem head_not_intChar {value : PyObj R} {t : List Char}
    (ht : valueText JsonLibrary.floatText JsonLibrary.nested value = some t)
    (hint : ∀ n, value ≠ .int n) (hfloat : ∀ x, value ≠ .float x) :
    ∃ c l, t = c :: l ∧ JsonValue.isIntChar c = false := by
  -- only a number starts with a digit or a sign
  cases value with
  | none =>
    obtain rfl := Option.some.inj ht
    exact ⟨'n', _, rfl, by decide⟩
  | bool b =>
    obtain rfl := Option.some.inj ht
    cases b with
    | false => exact ⟨'f', _, rfl, by decide⟩
    | true => exact ⟨'t', _, rfl, by decide⟩
  | int n => exact absurd rfl (hint n)
  | float x => exact absurd rfl (hfloat x)
  | str s =>
    obtain rfl := Option.some.inj ht
    exact ⟨'"', _, rfl, by decide⟩
  | bytes data => cases ht
  | list items =>
    obtain ⟨l, -, rfl⟩ := Option.map_eq_some_iff.mp ht
    exact ⟨'[', l, rfl, by decide⟩
  | dict items =>
    obtain ⟨l, -, rfl⟩ := Option.map_eq_some_iff.mp ht
    exact ⟨'\x7b', l, rfl, by decide⟩

/-- The text of a text ends at its quotation mark. -/
theorem valueText_inj_str {value : PyObj R} {s : String} {t : List Char}
    (ht : valueText JsonLibrary.floatText JsonLibrary.nested value = some t)
    {rest rest' : List Char} (h : t ++ rest = JsonValue.quote s ++ rest') :
    value = .str s ∧ rest = rest' := by
  by_cases hvalue : ∀ s', value ≠ .str s'
  · obtain ⟨c, l, rfl, hc⟩ := head_ne_quote ht hvalue
    exact absurd (List.cons.inj h).1 hc
  · push Not at hvalue
    obtain ⟨s', rfl⟩ := hvalue
    obtain rfl := Option.some.inj ht
    obtain ⟨rfl, hrest⟩ := JsonValue.quote_append_inj h
    exact ⟨rfl, hrest⟩

/-- The text of an integer ends at the delimiter. -/
theorem valueText_inj_int {value : PyObj R} {n : Int} {t : List Char}
    (ht : valueText JsonLibrary.floatText JsonLibrary.nested value = some t)
    {d d' : Char} {rest rest' : List Char} (hd : JsonValue.isDelimiter d = true)
    (hd' : JsonValue.isDelimiter d' = true)
    (h : t ++ d :: rest = (toString n).toList ++ d' :: rest') :
    value = .int n ∧ d :: rest = d' :: rest' := by
  have hstop : ∀ {p : Char → Bool} {e : Char} {l : List Char}, p e = false →
      ∀ c ∈ (e :: l).head?, p c = false := by
    rintro p e l he c hc
    cases hc
    exact he
  have hchars : ∀ c ∈ (toString n).toList, JsonValue.isIntChar c = true :=
    fun c => JsonValue.isIntChar_of_mem
  by_cases hint : ∀ m, value ≠ .int m
  · by_cases hfloat : ∀ x, value ≠ .float x
    -- another value starts with another character
    · obtain ⟨c, l, rfl, hc⟩ := head_not_intChar ht hint hfloat
      obtain ⟨c', l', hl'⟩ := List.exists_cons_of_ne_nil (toString_int_ne_nil n)
      rw [hl'] at h hchars
      obtain rfl := (List.cons.inj h).1
      rw [hchars _ List.mem_cons_self] at hc
      cases hc
    · -- a float has a character that no integer has
      push Not at hfloat
      obtain ⟨x, rfl⟩ := hfloat
      obtain rfl := Option.some.inj ht
      have hsame := (JsonValue.append_inj_of_stops (JsonLibrary.floatText_chars x)
        (fun c hc => isFloatChar_of_isIntChar (hchars c hc))
        (hstop (isFloatChar_of_isDelimiter hd)) (hstop (isFloatChar_of_isDelimiter hd')) h).1
      obtain ⟨mark, hmark, hnot⟩ := JsonLibrary.floatText_mark x
      rw [hsame] at hmark
      rw [hchars mark hmark] at hnot
      cases hnot
  -- two integers: both end before the delimiter
  · push Not at hint
    obtain ⟨m, rfl⟩ := hint
    obtain rfl := Option.some.inj ht
    obtain ⟨hsame, hrest⟩ := JsonValue.append_inj_of_stops (fun c => JsonValue.isIntChar_of_mem)
      hchars (hstop (isIntChar_of_isDelimiter hd)) (hstop (isIntChar_of_isDelimiter hd')) h
    exact ⟨by rw [toString_injective hsame], hrest⟩

/-- The text of a field is the text of no other value, where a delimiter follows. -/
theorem valueText_inj {value field : PyObj R} (hfield : IsField field) {t t' : List Char}
    (ht : valueText JsonLibrary.floatText JsonLibrary.nested value = some t)
    (ht' : valueText JsonLibrary.floatText JsonLibrary.nested field = some t')
    {d d' : Char} {rest rest' : List Char} (hd : JsonValue.isDelimiter d = true)
    (hd' : JsonValue.isDelimiter d' = true) (h : t ++ d :: rest = t' ++ d' :: rest') :
    value = field ∧ d :: rest = d' :: rest' := by
  cases hfield with
  | str s =>
    obtain rfl := Option.some.inj ht'
    exact valueText_inj_str ht h
  | int n =>
    obtain rfl := Option.some.inj ht'
    exact valueText_inj_int ht hd hd' h

/-! ## The message of an item -/

omit [WorkerLibrary R] [JsonLibrary R] in
/-- The texts of the members, by their keys. -/
theorem memberTexts_some {floatText : R → List Char} {nested : PyObj R → Option (List Char)}
    {keys : List String} {value : String → PyObj R} {texts : List (String × List Char)}
    (h : memberTexts floatText nested (keys.map fun key => (key, value key)) = some texts) :
    ∃ printed : String → List Char,
      (∀ key ∈ keys, valueText floatText nested (value key) = some (printed key)) ∧
      texts = keys.map fun key => (key, printed key) := by
  refine ⟨fun key => (valueText floatText nested (value key)).getD [], ?_⟩
  induction keys generalizing texts with
  | nil =>
    obtain rfl := Option.some.inj h
    exact ⟨fun _ hkey => absurd hkey List.not_mem_nil, rfl⟩
  | cons key keys ih =>
    unfold memberTexts at h ih
    rw [List.map_cons, List.mapM_cons] at h
    obtain ⟨first, hfirst, h⟩ := Option.bind_eq_some_iff.mp h
    obtain ⟨rest, hrest, h⟩ := Option.bind_eq_some_iff.mp h
    obtain rfl := Option.some.inj h
    obtain ⟨text, htext, rfl⟩ := Option.map_eq_some_iff.mp hfirst
    obtain ⟨hall, rfl⟩ := ih hrest
    have hvalue : valueText floatText nested (value key) = some text := htext
    refine ⟨List.forall_mem_cons.mpr ⟨?_, hall⟩, ?_⟩
    · simp only [hvalue, Option.getD_some]
    · simp only [List.map_cons, hvalue, Option.getD_some]

/-- The message of an item, from the texts of its ten values. -/
theorem snapshotInput_ok {item : PyDict R} {message : Bytes}
    (h : snapshotInput item = .ok message) :
    ∃ (value : String → PyObj R) (text : String → List Char),
      (∀ key ∈ signedKeys, item.get key = some (value key)) ∧
      (∀ key ∈ signedKeys, valueText JsonLibrary.floatText JsonLibrary.nested (value key)
        = some (text key)) ∧
      message = encodeText (String.ofList (JsonValue.objectText
        (signedKeys.map fun key => (key, text key)))) := by
  obtain ⟨values, hvalues, h⟩ := except_bind_ok.mp h
  let value (key : String) : PyObj R := (item.get key).getD .none
  -- every signed key is there
  have hget : ∀ key ∈ signedKeys, item.get key = some (value key) := by
    intro key hkey
    obtain ⟨entry, hentry⟩ := exists_mapM_ok.mp ⟨values, hvalues⟩ key hkey
    obtain ⟨found, hfound, -⟩ := except_map_ok.mp hentry
    unfold itemAt at hfound
    cases hitem : item.get key with
    | none =>
      rw [hitem] at hfound
      cases hfound
    | some found => simp only [value, hitem, Option.getD_some]
  -- and they are read in order
  have heq : values = (signedKeys.map fun key => (key, value key)).map fun m =>
      (PyKey.str m.1, m.2) := by
    have hread : (signedKeys.mapM fun key =>
        (itemAt item key).map fun value => (PyKey.str key, value))
          = .ok (signedKeys.map fun key => (PyKey.str key, value key)) := by
      rw [mapM_ok, List.forall₂_map_right_iff, List.forall₂_same]
      intro key hkey
      unfold itemAt
      rw [hget key hkey]
      rfl
    rw [List.map_map]
    exact Except.ok.inj (hvalues.symm.trans hread)
  subst heq
  cases hdumps : WorkerLibrary.dumps ((signedKeys.map fun key => (key, value key)).map fun m =>
      (PyKey.str m.1, m.2)) with
  | none =>
    rw [hdumps] at h
    cases h
  | some text =>
    rw [hdumps] at h
    obtain ⟨texts, htexts, rfl⟩ := JsonLibrary.dumps_some _ _ hdumps
    obtain ⟨printed, hprinted, rfl⟩ := memberTexts_some htexts
    exact ⟨value, printed, hget, hprinted, (Except.ok.inj h).symm⟩

/-- An item with the message of one whose values are fields has the same values. -/
theorem snapshotInput_inj {item emitted : PyDict R} {message : Bytes}
    (h : snapshotInput item = .ok message) (h' : snapshotInput emitted = .ok message)
    (hfields : ∀ key ∈ signedKeys, ∃ field, emitted.get key = some field ∧ IsField field) :
    ∀ key ∈ signedKeys, item.get key = emitted.get key := by
  obtain ⟨value, text, hget, htext, hmessage⟩ := snapshotInput_ok h
  obtain ⟨value', text', hget', htext', hmessage'⟩ := snapshotInput_ok h'
  have hfield : ∀ key ∈ signedKeys, IsField (value' key) := by
    intro key hkey
    obtain ⟨field, hfound, hfield⟩ := hfields key hkey
    rw [hget' key hkey] at hfound
    rwa [Option.some.inj hfound]
  -- the same bytes are the same object text
  have hobject : JsonValue.objectText (signedKeys.map fun key => (key, text key))
      = JsonValue.objectText (signedKeys.map fun key => (key, text' key)) :=
    String.ofList_inj.mp (encodeText_injective (hmessage.symm.trans hmessage'))
  -- so the texts of the members are the same
  have hsame : ∀ key ∈ signedKeys, text key = text' key := by
    refine JsonValue.objectText_inj (fun key hkey d d' rest rest' hd hd' hjoin => ?_) hobject
    obtain ⟨hvalue, hrest⟩ := valueText_inj (hfield key hkey) (htext key hkey) (htext' key hkey)
      hd hd' hjoin
    have htexts := htext key hkey
    rw [hvalue, htext' key hkey] at htexts
    exact ⟨(Option.some.inj htexts).symm, hrest⟩
  intro key hkey
  have hdelimiter : JsonValue.isDelimiter ',' = true := rfl
  have hvalue := (valueText_inj (hfield key hkey) (htext key hkey) (htext' key hkey) hdelimiter
    hdelimiter (by rw [hsame key hkey] : text key ++ ',' :: [] = text' key ++ ',' :: [])).1
  rw [hget key hkey, hget' key hkey, hvalue]

/-! ## The message of an envelope -/

/-- The text that an envelope signs, after its name. -/
def WorkerEnvelope.fieldChars (e : WorkerEnvelope) : List Char :=
  '|' :: (e.jobId.str.toList ++ '|' :: (e.tenantId.str.toList ++ '|' :: (e.principalId.str.toList ++
    '|' :: (e.expiresAt.isoformat.toList ++ '|' :: e.nonce.toList))))

theorem signingInput_eq (e : WorkerEnvelope) :
    e.signingInput = encodeText (String.ofList ("umcp.job.v1".toList ++ e.fieldChars)) := by
  have hbar : "|".toList = ['|'] := rfl
  refine congrArg encodeText (String.toList_injective ?_)
  rw [String.toList_ofList]
  simp only [String.intercalate_cons_cons, String.intercalate_singleton, String.toList_append,
    List.append_assoc, hbar, List.singleton_append]
  rw [WorkerEnvelope.fieldChars]

/-- Two envelopes with the same fields under the signature, the expiry as it is printed. -/
structure WorkerEnvelope.SameFields (e e' : WorkerEnvelope) : Prop where
  jobId : e.jobId = e'.jobId
  tenantId : e.tenantId = e'.tenantId
  principalId : e.principalId = e'.principalId
  expiresAt : e.expiresAt.isoformat = e'.expiresAt.isoformat
  nonce : e.nonce = e'.nonce

theorem notBar_of_mem_isoformat {d : DateTime} (c : Char) (h : c ∈ d.isoformat.toList) :
    decide (c ≠ '|') = true := by
  rw [DateTime.isoformat, String.toList_ofList] at h
  refine decide_eq_true ?_
  rintro rfl
  have hchar := DateTime.isIsoChar_of_mem_isoChars h
  revert hchar
  decide

/-- The ids have a fixed length, the expiry has no separator in it, and the nonce comes last. -/
theorem fieldChars_inj {e e' : WorkerEnvelope} (h : e.fieldChars = e'.fieldChars) :
    e.SameFields e' := by
  unfold WorkerEnvelope.fieldChars at h
  rw [List.cons.injEq] at h
  obtain ⟨hjob, h⟩ := str_append_inj h.2
  rw [List.cons.injEq] at h
  obtain ⟨htenant, h⟩ := str_append_inj h.2
  rw [List.cons.injEq] at h
  obtain ⟨hprincipal, h⟩ := str_append_inj h.2
  rw [List.cons.injEq] at h
  have hstop : ∀ nonce : List Char, ∀ c ∈ ('|' :: nonce).head?, decide (c ≠ '|') = false := by
    rintro nonce c hc
    cases hc
    rfl
  obtain ⟨hexpires, hnonce⟩ := JsonValue.append_inj_of_stops (notBar_of_mem_isoformat)
    (notBar_of_mem_isoformat) (hstop _) (hstop _) h.2
  exact ⟨hjob, htenant, hprincipal, String.toList_injective hexpires,
    String.toList_injective (List.cons.inj hnonce).2⟩

/-- The message of an envelope determines its fields. -/
theorem signingInput_inj {e e' : WorkerEnvelope} :
    e.signingInput = e'.signingInput ↔ e.SameFields e' := by
  rw [signingInput_eq, signingInput_eq, encodeText_injective.eq_iff, String.ofList_inj,
    List.append_cancel_left_eq]
  refine ⟨fieldChars_inj, ?_⟩
  rintro ⟨hjob, htenant, hprincipal, hexpires, hnonce⟩
  unfold WorkerEnvelope.fieldChars
  rw [hjob, htenant, hprincipal, hexpires, hnonce]

/-! ## The two kinds of messages -/

/-- The messages of envelopes. -/
def envelopeForm : Set Bytes := Set.range WorkerEnvelope.signingInput

/-- The messages of items. -/
def itemForm (R : Type) [WorkerLibrary R] : Set Bytes :=
  {message | ∃ item : PyDict R, snapshotInput item = .ok message}

/-- The one starts with a letter and the other with a brace. -/
theorem disjoint_forms : Disjoint envelopeForm (itemForm R) := by
  rw [Set.disjoint_left]
  rintro _ ⟨e, rfl⟩ ⟨item, hitem⟩
  obtain ⟨-, text, -, -, hmessage⟩ := snapshotInput_ok hitem
  rw [signingInput_eq, encodeText_injective.eq_iff, String.ofList_inj] at hmessage
  have hhead : some 'u' = some '\x7b' := congrArg List.head? hmessage
  exact absurd (Option.some.inj hhead) (by decide)

/-- The messages that `sign` tagged. -/
def signedMessages (signed : Set WorkerEnvelope) : Set Bytes :=
  WorkerEnvelope.signingInput '' signed

/-- The messages that `snapshot` tagged, in workers with the secret. -/
def snapshotMessages (R : Type) [WorkerLibrary R] (secret : Bytes)
    (workers : Set LocalTenantWorker) : Set Bytes :=
  {message | ∃ w ∈ workers, w.secret = secret ∧
    ∃ job ∈ w.jobs.values, snapshotInput (job.members R) = .ok message}

/-! ## Items that are accepted -/

/-- A snapshot of one of the workers, under the secret, emitted an item with the signed values of
this one. -/
def Emitted (secret : Bytes) (workers : Set LocalTenantWorker) (item : PyDict R) : Prop :=
  ∃ w ∈ workers, w.secret = secret ∧ ∃ items, w.snapshot R = .ok items ∧
    ∃ emitted ∈ items, ∀ key ∈ signedKeys, item.get key = emitted.get key

/-- An item with a message that was tagged for an item has the values of one that was emitted. -/
theorem emitted_of_mem_snapshotMessages {secret : Bytes} {workers : Set LocalTenantWorker}
    {item : PyDict R} {message : Bytes} (hinput : snapshotInput item = .ok message)
    (hmessage : message ∈ snapshotMessages R secret workers) : Emitted secret workers item := by
  obtain ⟨w, hw, hsecret, job, hjob, hmembers⟩ := hmessage
  obtain ⟨items, hitems, hpairs⟩ := w.exists_snapshot (R := R)
  obtain ⟨emitted, hemitted, hitem⟩ := exists_of_forall₂_right hpairs.flip hjob
  obtain ⟨message', hmembers', hinput', rfl⟩ := LocalJob.item_ok hitem
  cases hmembers.symm.trans hmembers'
  exact ⟨w, hw, hsecret, items, hitems, _, hemitted,
    snapshotInput_inj hinput hinput' (isField_members job _)⟩

/-! ## What the tags bind -/

/-- The message of an item is one that occurs, and its signature one that is presented. -/
structure ItemOccurs (messages : Set Bytes) (presented : Set String) (item : PyDict R) : Prop where
  message : ∀ message, snapshotInput item = .ok message → message ∈ messages
  signature : ∀ tag, itemText item "snapshot_signature" = .ok tag → tag ∈ presented

/-- What the signatures under one secret say, about the messages that occur and the tags that are
presented. -/
structure SignaturesBind (R : Type) [WorkerLibrary R] (secret : Bytes) (messages : Set Bytes)
    (presented : Set String) (workers : Set LocalTenantWorker) : Prop where
  /-- Two signed envelopes have one signature exactly if they have the same fields. -/
  envelopes : ∀ e e' : WorkerEnvelope, e.signingInput ∈ messages → e'.signingInput ∈ messages →
    ((WorkerEnvelope.sign secret e).signature = (WorkerEnvelope.sign secret e').signature ↔
      (WorkerEnvelope.sign secret e).SameFields (WorkerEnvelope.sign secret e'))
  /-- What `restore` accepts has the signed values of an item that a `snapshot` emitted. -/
  items : ∀ (w w' : LocalTenantWorker) (now : Nat → DateTime) (snapshot : List (PyDict R))
      (n : Nat), w.secret = secret → (∀ item ∈ snapshot, ItemOccurs messages presented item) →
        w.restore now snapshot = (.ok n, w') → ∀ item ∈ snapshot, Emitted secret workers item
  /-- The signature of an envelope is refused on every item. -/
  envelope_not_item : ∀ (e : WorkerEnvelope) (item : PyDict R), e.signingInput ∈ messages →
    ItemOccurs messages presented item →
      itemText item "snapshot_signature" = .ok (WorkerEnvelope.sign secret e).signature →
        checkItem secret item ≠ .ok ()
  /-- The signature of an item is refused on every envelope. -/
  item_not_envelope : ∀ (item : PyDict R) (message : Bytes) (e : WorkerEnvelope) (now : DateTime),
    snapshotInput item = .ok message → message ∈ messages → e.signingInput ∈ messages →
      e.signature = hmacHexdigest secret message → e.verify secret now ≠ .ok ()

section Binding

variable {secret : Bytes} {messages : Set Bytes} {presented : Set String}
  {signed : Set WorkerEnvelope} {workers : Set LocalTenantWorker}

/-- An item that is accepted has a message that was tagged for an item. -/
theorem emitted_of_checkItem (hmac : IdealTag (hmacHexdigest secret) messages presented
      (signedMessages signed ∪ snapshotMessages R secret workers))
    {item : PyDict R} (hoccurs : ItemOccurs messages presented item)
    (hcheck : checkItem secret item = .ok ()) : Emitted secret workers item := by
  obtain ⟨message, hinput, hsignature⟩ := checkItem_ok.mp hcheck
  have htagged := hmac.tagged_of_form disjoint_forms (Set.image_subset_range _ signed)
    (hoccurs.message message hinput) (hoccurs.signature _ hsignature) ⟨item, hinput⟩
  exact emitted_of_mem_snapshotMessages hinput htagged

/-- Let HMAC be ideal under a secret, on the messages that occur and for the tags that are
presented, where `sign` has tagged `signed` and `workers` have taken snapshots. Then every signature
binds the fields it covers, and the two kinds of signatures are not mixed up. -/
theorem signatures_bind_fields (hmac : IdealTag (hmacHexdigest secret) messages presented
      (signedMessages signed ∪ snapshotMessages R secret workers)) :
    SignaturesBind R secret messages presented workers where
  -- two envelopes have one tag when they have one message
  envelopes e e' he he' := by
    show hmacHexdigest secret e.signingInput = hmacHexdigest secret e'.signingInput ↔ _
    rw [hmac.tag_eq_iff he he', signingInput_inj]
    exact ⟨fun h => ⟨h.jobId, h.tenantId, h.principalId, h.expiresAt, h.nonce⟩,
      fun h => ⟨h.jobId, h.tenantId, h.principalId, h.expiresAt, h.nonce⟩⟩
  -- a restored item was emitted, or its tag could not be presented
  items w w' now snapshot n hsecret hoccurs hrestore item hitem := by
    subst hsecret
    rcases w.restore_cases now snapshot with ⟨e, hrun⟩ | ⟨r, hloop, hrun⟩
    · rw [hrun] at hrestore
      cases hrestore
    · exact emitted_of_checkItem hmac (hoccurs item hitem)
        (checkItem_of_restoreItems hloop item hitem)
  -- the forms of the two messages are apart
  envelope_not_item e item he hoccurs hsignature hcheck := by
    obtain ⟨message, hinput, hsame⟩ := checkItem_ok.mp hcheck
    exact hmac.ne_of_forms disjoint_forms he (hoccurs.message message hinput) ⟨e, rfl⟩
      ⟨item, hinput⟩ (Except.ok.inj (hsignature.symm.trans hsame))
  item_not_envelope item message e now hinput hmessage he hsignature hverify := by
    have hsealed := (WorkerEnvelope.verify_ok_iff.mp hverify).1
    exact hmac.ne_of_forms disjoint_forms he hmessage ⟨e, rfl⟩ ⟨item, hinput⟩
      (hsealed.signed.symm.trans hsignature)

end Binding

/-! ## The library on rational numbers -/

theorem fixedDecimal_chars (digits : Nat) (x : ℚ) :
    ∀ c ∈ (fixedDecimal digits x).toList, isFloatChar c = true := by
  have hdigit : ∀ c : Char, c.isDigit = true → isFloatChar c = true := by
    intro c hc
    unfold isFloatChar Char.isAlphanum
    rw [hc, Bool.or_true, Bool.true_or]
  intro c hc
  unfold fixedDecimal at hc
  rw [String.toList_ofList, List.mem_append, List.mem_append, List.mem_cons] at hc
  rcases hc with hsign | hwhole | rfl | hfraction
  · split at hsign
    · rw [List.mem_singleton.mp hsign]
      decide
    · cases hsign
  · exact hdigit c (isDigit_of_mem_padded hwhole)
  · decide
  · exact hdigit c (isDigit_of_mem_padded hfraction)

theorem fixedDecimal_mark (digits : Nat) (x : ℚ) :
    ∃ c ∈ (fixedDecimal digits x).toList, JsonValue.isIntChar c = false := by
  refine ⟨'.', ?_, by decide⟩
  unfold fixedDecimal
  rw [String.toList_ofList]
  exact List.mem_append_right _ (List.mem_append_right _ List.mem_cons_self)

/-- The text of a plain member is that of its value. -/
theorem valueText_plainMember {key : String} {value : PyObj ℚ} {member : String × JsonValue}
    (h : plainMember (.str key, value) = some member) :
    ((valueText (fun x => (fixedDecimal 6 x).toList) (fun _ => none) value).map
      fun text => (key, text)) = some (member.1, JsonValue.print [','] [':'] member.2) := by
  cases value with
  | str s =>
    obtain rfl := Option.some.inj h
    rw [JsonValue.print]
    rfl
  | int n =>
    obtain rfl := Option.some.inj h
    rw [JsonValue.print]
    rfl
  | _ => cases h

theorem dumpsPlain_some (members : List (String × PyObj ℚ)) (text : String)
    (h : dumpsPlain (members.map fun m => (PyKey.str m.1, m.2)) = some text) :
    ∃ texts, memberTexts (fun x => (fixedDecimal 6 x).toList) (fun _ => none) members = some texts ∧
      text = String.ofList (JsonValue.objectText texts) := by
  obtain ⟨plain, hplain, rfl⟩ := Option.map_eq_some_iff.mp h
  refine ⟨_, ?_, JsonValue.dumpsCompact_insertionSort plain⟩
  clear h
  unfold memberTexts
  induction members generalizing plain with
  | nil =>
    obtain rfl := Option.some.inj hplain
    rfl
  | cons m members ih =>
    rw [List.map_cons, List.mapM_cons] at hplain
    obtain ⟨first, hfirst, hplain⟩ := Option.bind_eq_some_iff.mp hplain
    obtain ⟨rest, hrest, hplain⟩ := Option.bind_eq_some_iff.mp hplain
    obtain rfl := Option.some.inj hplain
    rw [List.mapM_cons, valueText_plainMember hfirst, ih rest hrest]
    rfl

instance : JsonLibrary ℚ where
  floatText x := (fixedDecimal 6 x).toList
  nested _ := none
  floatText_chars := fixedDecimal_chars 6
  floatText_mark := fixedDecimal_mark 6
  dumps_some := dumpsPlain_some

/-! ## The desk -/

/-- Two envelopes with different job ids have different tags. The item that the busy worker emits is
accepted with the values it was emitted with. -/
theorem signatures_bind_fields_desk :
    (WorkerEnvelope.sign [7] (deskEnvelope 1)).signature
        ≠ (WorkerEnvelope.sign [7] lateEnvelope).signature ∧
      ∃ items w', busyWorker.snapshot ℚ = .ok items ∧
        deskWorker.restore (fun _ => day2026 2) items = (.ok 1, w') ∧
        ∀ item ∈ items, Emitted (R := ℚ) [7] {busyWorker} item := by
  constructor
  · intro hsame
    have hideal : IdealTag (hmacHexdigest [7])
        {(deskEnvelope 1).signingInput, lateEnvelope.signingInput} ∅
        (signedMessages {deskEnvelope 1, lateEnvelope} ∪ snapshotMessages ℚ [7] ∅) := by
      refine ⟨?_, fun _ _ h => h.elim⟩
      have hne : hmacHexdigest [7] (deskEnvelope 1).signingInput
          ≠ hmacHexdigest [7] lateEnvelope.signingInput := by decide +kernel
      rw [Set.injOn_pair]
      exact fun h => absurd h hne
    have hfields := ((signatures_bind_fields hideal).envelopes _ _ (.inl rfl) (.inr rfl)).mp hsame
    exact absurd hfields.jobId (by decide)
  · have hbusy : busyWorker.Registered := by
      rw [← step_deskEnqueue]
      exact deskWorker.registered_fresh.step (deskEnqueue 1)
    have hjobs : busyWorker.jobs.values = [deskJob] := rfl
    have htime : Unexpired (fun _ => day2026 2) 0 busyWorker.jobs.values := by
      rw [hjobs]
      exact unexpired_cons.mpr ⟨by decide, fun n job hn => by cases hn⟩
    obtain ⟨items, hitems, hpairs⟩ := busyWorker.exists_snapshot (R := ℚ)
    have hsecret : deskWorker.secret = busyWorker.secret := rfl
    have hrestore := hbusy.restore_of_unexpired hsecret hitems htime
    refine ⟨items, _, hitems, hrestore, ?_⟩
    rw [hjobs] at hpairs
    obtain ⟨item, rest, hitem, hrest, rfl⟩ := List.forall₂_cons_left_iff.mp hpairs
    obtain rfl := List.forall₂_nil_left_iff.mp hrest
    obtain ⟨message, hmembers, hinput, heq⟩ := LocalJob.item_ok hitem
    -- the only message is that of the item, and the worker has tagged it
    have hideal : IdealTag (hmacHexdigest [7]) {message} {hmacHexdigest [7] message}
        (signedMessages ∅ ∪ snapshotMessages ℚ [7] {busyWorker}) := by
      refine ⟨Set.injOn_singleton _ _, ?_⟩
      rintro _ rfl -
      exact .inr ⟨busyWorker, rfl, rfl, deskJob, hjobs ▸ List.mem_singleton_self _, hmembers⟩
    refine (signatures_bind_fields hideal).items deskWorker _ _ _ _ rfl ?_ hrestore
    intro item' hmem
    obtain rfl := List.mem_singleton.mp hmem
    refine ⟨fun message' h => Except.ok.inj (h.symm.trans hinput), fun tag htag => ?_⟩
    subst heq
    exact Except.ok.inj (htag.symm.trans (itemText_str rfl))

end OpenMemory.Worker
