import OpenMemory.Application.Canonical
import OpenMemory.Store.Reimport
import OpenMemory.Worker.Library

/-!
# When two commands have one fingerprint

The service takes two commands for the same operation when their fingerprints are equal. Python
compares them by value: numbers as numbers, datetimes as instants (`Agrees`). The canonical text
keeps every field but the tenant of a write, yet it keeps numbers and datetimes as they are spelled
(`SpelledAlike`): `occurred_at` and `granted_at` are printed in the offset they came in.

- `fingerprintUpdateCommand_iff`, `fingerprintWriteCommand_iff`, `fingerprintCaptureCommand_iff`:
  fingerprints are equal if and only if the commands agree (on everything but the tenant, for a
  write) and are spelled alike. One half is `dumpsMembers_inj`.
- `fingerprints_decide_iff` says for which commands this is agreement.
-/

namespace OpenMemory

open Lib
open Memory.pyEq (optEq)

variable {R : Type} [Python R]

/-! ## Agreement -/

/-- The updates agree on everything but the key. -/
structure UpdateMemoryCommand.Agrees (c c' : UpdateMemoryCommand R) : Prop where
  ownerId : c.ownerId = c'.ownerId
  memoryId : c.memoryId = c'.memoryId
  expectedVersion : c.expectedVersion = c'.expectedVersion
  content : c.content = c'.content
  memoryType : c.memoryType = c'.memoryType
  importance : optEq Python.numEq c.importance c'.importance = true
  confidence : optEq Python.numEq c.confidence c'.confidence = true
  state : c.state = c'.state
  occurredAt : optEq DateTime.pyEq c.occurredAt c'.occurredAt = true
  space : c.space = c'.space
  provenance : optEq Provenance.pyEq c.provenance c'.provenance = true
  supersedesMemoryId : c.supersedesMemoryId = c'.supersedesMemoryId
  contradictsMemoryId : c.contradictsMemoryId = c'.contradictsMemoryId
  changeReason : c.changeReason = c'.changeReason

/-- Their numbers have the same text, their datetimes the same offset. -/
structure UpdateMemoryCommand.SpelledAlike (c c' : UpdateMemoryCommand R) : Prop where
  importance : c.importance.map Python.numRepr = c'.importance.map Python.numRepr
  confidence : c.confidence.map Python.numRepr = c'.confidence.map Python.numRepr
  occurredAt : c.occurredAt.map DateTime.offset = c'.occurredAt.map DateTime.offset

/-- The writes agree on everything but the key and the tenant. -/
structure WriteMemoryCommand.AgreesUpToTenant (c c' : WriteMemoryCommand R) : Prop where
  ownerId : c.ownerId = c'.ownerId
  content : c.content = c'.content
  memoryType : c.memoryType = c'.memoryType
  provenance : c.provenance.pyEq c'.provenance = true
  importance : Python.numEq c.importance c'.importance = true
  confidence : Python.numEq c.confidence c'.confidence = true
  space : c.space = c'.space
  occurredAt : optEq DateTime.pyEq c.occurredAt c'.occurredAt = true

/-- The writes agree on everything but the key. -/
structure WriteMemoryCommand.Agrees (c c' : WriteMemoryCommand R) : Prop
    extends c.AgreesUpToTenant c' where
  tenantId : c.tenantId = c'.tenantId

structure WriteMemoryCommand.SpelledAlike (c c' : WriteMemoryCommand R) : Prop where
  importance : Python.numRepr c.importance = Python.numRepr c'.importance
  confidence : Python.numRepr c.confidence = Python.numRepr c'.confidence
  occurredAt : c.occurredAt.map DateTime.offset = c'.occurredAt.map DateTime.offset

/-- The captures agree on everything but the key, and the policy, revocation and scopes of the
connection. -/
structure CaptureMemoryCommand.Agrees (c c' : CaptureMemoryCommand R) : Prop where
  tenantId : c.tenantId = c'.tenantId
  ownerId : c.ownerId = c'.ownerId
  connectionId : c.connectionId = c'.connectionId
  content : c.content = c'.content
  memoryType : c.memoryType = c'.memoryType
  space : c.space = c'.space
  provenance : c.provenance.pyEq c'.provenance = true
  consent : c.consent.pyEq c'.consent = true
  importance : Python.numEq c.importance c'.importance = true
  confidence : Python.numEq c.confidence c'.confidence = true

structure CaptureMemoryCommand.SpelledAlike (c c' : CaptureMemoryCommand R) : Prop where
  importance : Python.numRepr c.importance = Python.numRepr c'.importance
  confidence : Python.numRepr c.confidence = Python.numRepr c'.confidence
  grantedAt : c.consent.grantedAt.offset = c'.consent.grantedAt.offset

/-! ## Texts of the parts -/

theorem MemoryType.value_injective : Function.Injective MemoryType.value := by
  have hread : ∀ t : MemoryType, ofValue t.value = some t := by
    intro t
    cases t <;> rfl
  exact fun t t' h => Option.some.inj ((hread t).symm.trans ((congrArg ofValue h).trans (hread t')))

theorem MemoryState.value_injective : Function.Injective MemoryState.value := by
  have hread : ∀ s : MemoryState, ofValue s.value = some s := by
    intro s
    cases s <;> rfl
  exact fun s s' h => Option.some.inj ((hread s).symm.trans ((congrArg ofValue h).trans (hread s')))

theorem SourceType.value_injective : Function.Injective SourceType.value := by
  have hread : ∀ t : SourceType, ofValue t.value = some t := by
    intro t
    cases t <;> rfl
  exact fun t t' h => Option.some.inj ((hread t).symm.trans ((congrArg ofValue h).trans (hread t')))

theorem ConsentMode.value_injective : Function.Injective ConsentMode.value := by
  intro m m' h
  cases m <;> cases m' <;> first | rfl | exact absurd h (by decide)

theorem ConsentReason.value_injective : Function.Injective ConsentReason.value := by
  intro r r' h
  cases r <;> cases r' <;> first | rfl | exact absurd h (by decide)

/-- Two times with one text are one time, offset included. -/
theorem DateTime.isoformat_injective : Function.Injective DateTime.isoformat := by
  intro d d' h
  have hread := congrArg Worker.readIsoformat h
  rw [Worker.readIsoformat_isoformat, Worker.readIsoformat_isoformat] at hread
  exact Option.some.inj hread

/-- Equal times in one offset are one time. -/
theorem DateTime.eq_of_pyEq {d d' : DateTime} (h : d.pyEq d' = true) (hoff : d.offset = d'.offset) :
    d = d' := by
  obtain ⟨wall, offset, _, _, _⟩ := d
  obtain ⟨wall', offset', _, _, _⟩ := d'
  obtain rfl : offset = offset' := hoff
  cases offset with
  | none =>
    obtain rfl : wall = wall' := of_decide_eq_true h
    rfl
  | some off =>
    have hwall : wall - off = wall' - off := of_decide_eq_true h
    obtain rfl : wall = wall' := by omega
    rfl

/-- Nullable datetimes are equal when they are the same instant in the same offset. -/
theorem occurredAt_eq_iff {a a' : Option DateTime} : a = a' ↔
    optEq DateTime.pyEq a a' = true ∧ a.map DateTime.offset = a'.map DateTime.offset := by
  constructor
  · rintro rfl
    exact ⟨Memory.optEq_self DateTime.pyEq_self a, rfl⟩
  · rintro ⟨heq, hoff⟩
    cases a with
    | none =>
      cases a' with
      | none => rfl
      | some d' => cases heq
    | some d =>
      cases a' with
      | none => cases heq
      | some d' => exact congrArg some (DateTime.eq_of_pyEq heq (Option.some.inj hoff))

/-- Optional numbers with one text are equal. -/
theorem NumberTexts.optEq (hnum : NumberTexts R) {x y : Option R}
    (h : x.map Python.numRepr = y.map Python.numRepr) : Memory.pyEq.optEq Python.numEq x y = true := by
  cases x with
  | none =>
    cases y with
    | none => rfl
    | some y => cases h
  | some x =>
    cases y with
    | none => cases h
    | some y => exact hnum.faithful x y (Option.some.inj h)

/-- Equal origins are one: they hold nothing that is equal without being the same. -/
theorem Provenance.eq_of_pyEq {p p' : Provenance} (h : p.pyEq p' = true) : p = p' := by
  have hfields : p.toProvenanceFields = p'.toProvenanceFields := of_decide_eq_true h
  cases p
  cases p'
  cases hfields
  rfl

/-- The text of an origin determines it. -/
theorem canonicalProvenance_inj (hnum : NumberTexts R) {p p' : Provenance}
    (h : (canonicalProvenance (R := R) p).dumps = (canonicalProvenance (R := R) p').dumps) :
    p = p' := by
  unfold canonicalProvenance at h
  have hmembers := dumpsMembers_inj hnum h (by simp only [List.map]) (by simp)
  simp only [Json.dumpsMembers, List.cons.injEq, Prod.mk.injEq, true_and, and_true] at hmembers
  obtain ⟨hsource, hid, hmodel, hclient, hconnection, hconversation, hmessage, hcaptured,
    hevidence⟩ := hmembers
  have htext : ∀ {a a' : Option String}, (Json.ofOption (R := R) Json.str a).dumps
      = (Json.ofOption (R := R) Json.str a').dumps → a = a' :=
    fun h => dumps_text_inj Function.injective_id h
  refine Provenance.eq_of_pyEq (decide_eq_true ?_)
  have hdate := DateTime.isoformat_injective (dumps_str_inj hcaptured)
  have hsource := SourceType.value_injective (dumps_str_inj hsource)
  have hevidence := dumps_strs_inj hevidence
  cases hp : p.toProvenanceFields
  cases hp' : p'.toProvenanceFields
  simp only [hp, hp'] at *
  simp only [ProvenanceFields.mk.injEq]
  exact ⟨hsource, hdate, htext hid, htext hmodel, hevidence, htext hclient, htext hconnection,
    htext hconversation, htext hmessage⟩

/-- The text of a consent determines it, up to the instant and with the offset. -/
theorem canonicalConsent_inj (hnum : NumberTexts R) {g g' : CaptureConsent}
    (h : (canonicalConsent (R := R) g).dumps = (canonicalConsent (R := R) g').dumps) :
    g.pyEq g' = true ∧ g.grantedAt.offset = g'.grantedAt.offset := by
  unfold canonicalConsent at h
  have hmembers := dumpsMembers_inj hnum h (by simp only [List.map]) (by simp)
  simp only [Json.dumpsMembers, List.cons.injEq, Prod.mk.injEq, true_and, and_true] at hmembers
  obtain ⟨hmode, hid, hreason, hpolicy, hgranted⟩ := hmembers
  have hdate := DateTime.isoformat_injective (dumps_str_inj hgranted)
  refine ⟨?_, congrArg DateTime.offset hdate⟩
  simp [CaptureConsent.pyEq, ConsentMode.value_injective (dumps_str_inj hmode), dumps_str_inj hid,
    ConsentReason.value_injective (dumps_str_inj hreason), dumps_str_inj hpolicy, hdate]

/-- Consents are equal when their fields are; the time is compared as an instant. -/
theorem CaptureConsent.pyEq_iff {g g' : CaptureConsent} : g.pyEq g' = true ↔
    g.mode = g'.mode ∧ g.consentId = g'.consentId ∧ g.reasonCode = g'.reasonCode ∧
      g.policyVersion = g'.policyVersion ∧ g.grantedAt.pyEq g'.grantedAt = true := by
  simp [CaptureConsent.pyEq, and_assoc]

/-- Consents have one text exactly if they are equal and their times are in one offset. -/
theorem canonicalConsent_iff (hnum : NumberTexts R) {g g' : CaptureConsent} :
    (canonicalConsent (R := R) g).dumps = (canonicalConsent (R := R) g').dumps ↔
      g.pyEq g' = true ∧ g.grantedAt.offset = g'.grantedAt.offset := by
  refine ⟨canonicalConsent_inj hnum, ?_⟩
  rintro ⟨heq, hoff⟩
  obtain ⟨hmode, hid, hreason, hpolicy, hgranted⟩ := CaptureConsent.pyEq_iff.mp heq
  unfold canonicalConsent
  rw [hmode, hid, hreason, hpolicy, DateTime.eq_of_pyEq hgranted hoff]

theorem optEq_provenance_iff {p p' : Option Provenance} :
    optEq Provenance.pyEq p p' = true ↔ p = p' := by
  cases p with
  | none => cases p' <;> simp [optEq]
  | some p =>
    cases p' with
    | none => simp [optEq]
    | some p' =>
      refine ⟨fun h => congrArg some (Provenance.eq_of_pyEq h), ?_⟩
      rintro ⟨⟩
      exact decide_eq_true rfl

/-- An origin that may be missing is determined by its text too. -/
theorem dumps_provenance_inj (hnum : NumberTexts R) {p p' : Option Provenance}
    (h : (Json.ofOption (R := R) canonicalProvenance p).dumps
      = (Json.ofOption (R := R) canonicalProvenance p').dumps) : p = p' := by
  have hnull : ∀ p, (canonicalProvenance (R := R) p).dumps ≠ "null" := by
    intro p hp
    have hlist := congrArg String.toList hp
    unfold canonicalProvenance at hlist
    rw [toList_dumps_obj] at hlist
    exact absurd (List.cons.inj hlist).1 (by decide)
  exact Option.map_injective (fun p p' h => canonicalProvenance_inj hnum h)
    (dumps_ofOption_inj hnull h)

/-! ## Equal fingerprints -/

/-- Updates have one fingerprint exactly if they agree and are spelled alike. -/
theorem fingerprintUpdateCommand_iff (hsha : Function.Injective (Python.sha256Hexdigest R))
    (hnum : NumberTexts R) {c c' : UpdateMemoryCommand R} :
    fingerprintUpdateCommand c = fingerprintUpdateCommand c' ↔ c.Agrees c' ∧ c.SpelledAlike c' := by
  unfold fingerprintUpdateCommand digest
  rw [hsha.eq_iff, dumps_obj_iff hnum (by simp only [List.map]) (by simp)]
  simp only [Json.dumpsMembers, List.cons.injEq, Prod.mk.injEq, true_and, and_true]
  -- member by member, the texts are the same
  constructor
  · rintro ⟨howner, hid, hversion, hcontent, htype, himportance, hconfidence, hstate, hoccurred,
      hspace, hprovenance, hsupersedes, hcontradicts, hreason⟩
    have himportance := dumps_ofOption_inj hnum.not_null himportance
    have hconfidence := dumps_ofOption_inj hnum.not_null hconfidence
    obtain ⟨hsame, hoff⟩ :=
      occurredAt_eq_iff.mp (dumps_text_inj DateTime.isoformat_injective hoccurred)
    refine ⟨?_, himportance, hconfidence, hoff⟩
    exact
      { ownerId := dumps_str_inj howner
        memoryId := UUID.str_injective (dumps_str_inj hid)
        expectedVersion := dumps_int_inj hversion
        content := dumps_text_inj Function.injective_id hcontent
        memoryType := dumps_text_inj MemoryType.value_injective htype
        importance := hnum.optEq himportance
        confidence := hnum.optEq hconfidence
        state := dumps_text_inj MemoryState.value_injective hstate
        occurredAt := hsame
        space := dumps_text_inj Function.injective_id hspace
        provenance := optEq_provenance_iff.mpr (dumps_provenance_inj hnum hprovenance)
        supersedesMemoryId := dumps_text_inj UUID.str_injective hsupersedes
        contradictsMemoryId := dumps_text_inj UUID.str_injective hcontradicts
        changeReason := dumps_str_inj hreason }
  -- equal commands of the same spelling give equal texts
  · rintro ⟨hagree, halike⟩
    rw [hagree.ownerId, hagree.memoryId, hagree.expectedVersion, hagree.content, hagree.memoryType,
      hagree.state, hagree.space, hagree.supersedesMemoryId, hagree.contradictsMemoryId,
      hagree.changeReason, optEq_provenance_iff.mp hagree.provenance,
      occurredAt_eq_iff.mpr ⟨hagree.occurredAt, halike.occurredAt⟩,
      dumps_ofOption_congr (f := Json.num) halike.importance,
      dumps_ofOption_congr (f := Json.num) halike.confidence]
    simp only [and_self]

/-- Writes do, but for the tenant, which the fingerprint leaves out. -/
theorem fingerprintWriteCommand_iff (hsha : Function.Injective (Python.sha256Hexdigest R))
    (hnum : NumberTexts R) {c c' : WriteMemoryCommand R} (howner : c.ownerId = c'.ownerId) :
    fingerprintWriteCommand c = fingerprintWriteCommand c' ↔
      c.AgreesUpToTenant c' ∧ c.SpelledAlike c' := by
  unfold fingerprintWriteCommand digest canonicalWriteCommand
  rw [hsha.eq_iff, dumps_obj_iff hnum (by simp only [List.map]) (by simp)]
  simp only [Json.dumpsMembers, List.cons.injEq, Prod.mk.injEq, true_and, and_true]
  constructor
  · rintro ⟨hcontent, htype, himportance, hconfidence, hspace, hoccurred, hprovenance⟩
    obtain ⟨hsame, hoff⟩ :=
      occurredAt_eq_iff.mp (dumps_text_inj DateTime.isoformat_injective hoccurred)
    refine ⟨?_, himportance, hconfidence, hoff⟩
    exact
      { ownerId := howner
        content := dumps_str_inj hcontent
        memoryType := MemoryType.value_injective (dumps_str_inj htype)
        provenance := decide_eq_true (by rw [canonicalProvenance_inj hnum hprovenance])
        importance := hnum.faithful _ _ himportance
        confidence := hnum.faithful _ _ hconfidence
        space := dumps_text_inj Function.injective_id hspace
        occurredAt := hsame }
  · rintro ⟨hagree, halike⟩
    have himportance : (Json.num c.importance).dumps = (Json.num c'.importance).dumps :=
      halike.importance
    have hconfidence : (Json.num c.confidence).dumps = (Json.num c'.confidence).dumps :=
      halike.confidence
    rw [hagree.content, hagree.memoryType, hagree.space, Provenance.eq_of_pyEq hagree.provenance,
      occurredAt_eq_iff.mpr ⟨hagree.occurredAt, halike.occurredAt⟩, himportance, hconfidence]
    simp only [and_self]

/-- Captures do, the tenant included. -/
theorem fingerprintCaptureCommand_iff (hsha : Function.Injective (Python.sha256Hexdigest R))
    (hnum : NumberTexts R) {c c' : CaptureMemoryCommand R} (howner : c.ownerId = c'.ownerId) :
    fingerprintCaptureCommand c = fingerprintCaptureCommand c' ↔
      c.Agrees c' ∧ c.SpelledAlike c' := by
  unfold fingerprintCaptureCommand digest
  rw [hsha.eq_iff, dumps_obj_iff hnum (by simp only [List.map]) (by simp)]
  simp only [Json.dumpsMembers, List.cons.injEq, Prod.mk.injEq, true_and, and_true]
  constructor
  · rintro ⟨htenant, hconnection, hcontent, htype, hspace, himportance, hconfidence, hprovenance,
      hconsent⟩
    obtain ⟨hsame, hoff⟩ := canonicalConsent_inj hnum hconsent
    refine ⟨?_, himportance, hconfidence, hoff⟩
    exact
      { tenantId := dumps_str_inj htenant
        ownerId := howner
        connectionId := dumps_str_inj hconnection
        content := dumps_str_inj hcontent
        memoryType := MemoryType.value_injective (dumps_str_inj htype)
        space := dumps_text_inj Function.injective_id hspace
        provenance := decide_eq_true (by rw [canonicalProvenance_inj hnum hprovenance])
        consent := hsame
        importance := hnum.faithful _ _ himportance
        confidence := hnum.faithful _ _ hconfidence }
  · rintro ⟨hagree, halike⟩
    have himportance : (Json.num c.importance).dumps = (Json.num c'.importance).dumps :=
      halike.importance
    have hconfidence : (Json.num c.confidence).dumps = (Json.num c'.confidence).dumps :=
      halike.confidence
    rw [hagree.tenantId, hagree.connectionId, hagree.content, hagree.memoryType, hagree.space,
      Provenance.eq_of_pyEq hagree.provenance, himportance, hconfidence,
      (canonicalConsent_iff hnum).mpr ⟨hagree.consent, halike.grantedAt⟩]
    simp only [and_self]

/-- Fingerprints decide agreement of updates and captures that are spelled alike, and of writes that
differ in the tenant exactly when they are spelled differently. -/
theorem fingerprints_decide_iff (hsha : Function.Injective (Python.sha256Hexdigest R))
    (hnum : NumberTexts R) :
    (∀ c c' : UpdateMemoryCommand R, c.ownerId = c'.ownerId →
      ((fingerprintUpdateCommand c = fingerprintUpdateCommand c' ↔ c.Agrees c') ↔
        (c.Agrees c' → c.SpelledAlike c'))) ∧
    (∀ c c' : WriteMemoryCommand R, c.ownerId = c'.ownerId →
      ((fingerprintWriteCommand c = fingerprintWriteCommand c' ↔ c.Agrees c') ↔
        (c.AgreesUpToTenant c' → (c.SpelledAlike c' ↔ c.tenantId = c'.tenantId)))) ∧
    ∀ c c' : CaptureMemoryCommand R, c.ownerId = c'.ownerId →
      ((fingerprintCaptureCommand c = fingerprintCaptureCommand c' ↔ c.Agrees c') ↔
        (c.Agrees c' → c.SpelledAlike c')) := by
  refine ⟨fun c c' _ => ?_, fun c c' howner => ?_, fun c c' howner => ?_⟩
  · rw [fingerprintUpdateCommand_iff hsha hnum]
    exact and_iff_left_iff_imp
  · rw [fingerprintWriteCommand_iff hsha hnum howner]
    have hagrees : c.Agrees c' ↔ c.AgreesUpToTenant c' ∧ c.tenantId = c'.tenantId :=
      ⟨fun h => ⟨h.toAgreesUpToTenant, h.tenantId⟩, fun h => ⟨h.1, h.2⟩⟩
    rw [hagrees, and_congr_right_iff]
  · rw [fingerprintCaptureCommand_iff hsha hnum howner]
    exact and_iff_left_iff_imp

/-! ## Exact texts -/

/-- Rational numbers with an exact text. -/
def Exact : Type := ℚ

/-- Two naturals around a separator, with a sign. -/
def signedText (sep : Char) (negative : Bool) (a b : Nat) : List Char :=
  (if negative then ['-'] else []) ++ (padded 1 a ++ sep :: padded 1 b)

/-- One decimal where that is exact, otherwise numerator and denominator. -/
def exactText (x : ℚ) : List Char :=
  let tenths := roundHalfEven (x * 10)
  if (tenths : ℚ) = x * 10 then
    signedText '.' (decide (tenths < 0)) (tenths.natAbs / 10) (tenths.natAbs % 10)
  else signedText 'e' (decide (x.num < 0)) x.num.natAbs x.den

/-- The digits of the text of a quotient give its numbers back. -/
theorem numbersOf_signedText {sep : Char} (hsep : sep.isDigit = false) (negative : Bool)
    (a b : Nat) : numbersOf (signedText sep negative a b)
      = (if negative then [0] else []) ++ [a, b] := by
  have hpair : numbersOf (padded 1 a ++ sep :: padded 1 b) = [a, b] := by
    rw [numbersOf_append (fun _ => isDigit_of_mem_padded) hsep,
      numbersOf_digits (fun _ => isDigit_of_mem_padded), ofDigitChars_padded, ofDigitChars_padded]
  cases negative with
  | false => exact hpair
  | true =>
    have hsign : numbersOf ([] ++ '-' :: (padded 1 a ++ sep :: padded 1 b)) = 0 :: _ :=
      numbersOf_append (fun _ h => absurd h List.not_mem_nil) rfl
    exact hsign.trans (congrArg (0 :: ·) hpair)

/-- A signed text determines its parts. -/
theorem signedText_inj {sep sep' : Char} (hsep : sep.isDigit = false) (hsep' : sep'.isDigit = false)
    {negative negative' : Bool} {a a' b b' : Nat}
    (h : signedText sep negative a b = signedText sep' negative' a' b') :
    sep = sep' ∧ negative = negative' ∧ a = a' ∧ b = b' := by
  have hnumbers := congrArg numbersOf h
  rw [numbersOf_signedText hsep, numbersOf_signedText hsep'] at hnumbers
  have hparts : negative = negative' ∧ a = a' ∧ b = b' := by
    cases negative <;> cases negative' <;> simp at hnumbers <;> simp [hnumbers]
  obtain ⟨rfl, rfl, rfl⟩ := hparts
  have hrest := List.append_cancel_left (List.append_cancel_left h)
  exact ⟨(List.cons.inj hrest).1, rfl, rfl, rfl⟩

theorem sep_mem_signedText (sep : Char) (negative : Bool) (a b : Nat) :
    sep ∈ signedText sep negative a b :=
  List.mem_append_right _ (List.mem_append_right _ List.mem_cons_self)

theorem mem_signedText {sep c : Char} {negative : Bool} {a b : Nat}
    (h : c ∈ signedText sep negative a b) : c.isDigit = true ∨ c = '-' ∨ c = sep := by
  unfold signedText at h
  rcases List.mem_append.mp h with h | h
  · cases negative with
    | false => cases h
    | true => exact .inr (.inl (List.mem_singleton.mp h))
  · rcases List.mem_append.mp h with h | h
    · exact .inl (isDigit_of_mem_padded h)
    · rcases List.mem_cons.mp h with rfl | h
      · exact .inr (.inr rfl)
      · exact .inl (isDigit_of_mem_padded h)

/-- Every text is a signed one. -/
theorem exists_signedText (x : ℚ) : ∃ sep ∈ ['.', 'e'], ∃ negative a b,
    exactText x = signedText sep negative a b := by
  unfold exactText
  dsimp only
  split
  · exact ⟨'.', by decide, _, _, _, rfl⟩
  · exact ⟨'e', by decide, _, _, _, rfl⟩

theorem int_eq_of_parts {m n : Int} (hsign : decide (m < 0) = decide (n < 0))
    (habs : m.natAbs = n.natAbs) : m = n := by
  rw [decide_eq_decide] at hsign
  omega

/-- Exact numbers have texts of their own. -/
theorem exactText_injective : Function.Injective exactText := by
  intro x y h
  have hdot : ('.').isDigit = false := rfl
  have he : ('e').isDigit = false := rfl
  unfold exactText at h
  dsimp only at h
  split at h <;> split at h
  · rename_i hx hy
    obtain ⟨-, hsign, htens, hunits⟩ := signedText_inj hdot hdot h
    have htenths := int_eq_of_parts hsign (by omega)
    have hscaled : x * 10 = y * 10 := by rw [← hx, ← hy, htenths]
    linarith
  · exact absurd (signedText_inj hdot he h).1 (by decide)
  · exact absurd (signedText_inj he hdot h).1 (by decide)
  · obtain ⟨-, hsign, hnum, hden⟩ := signedText_inj he he h
    exact Rat.ext (int_eq_of_parts hsign hnum) hden

instance : Python Exact :=
  show Python ℚ from
    { (inferInstance : Python ℚ) with numRepr := fun x => String.ofList (exactText x) }

/-- So exact numbers meet what is asked of the texts of numbers. -/
theorem numberTexts_exact : NumberTexts Exact := by
  have htext : ∀ x : Exact, (Python.numRepr x).toList = exactText x :=
    fun x => String.toList_ofList
  have hsep : ∀ (x : Exact) (word : String), '.' ∉ word.toList → 'e' ∉ word.toList →
      Python.numRepr x ≠ word := by
    rintro x word hdot he rfl
    rw [htext] at hdot he
    obtain ⟨sep, hsep, negative, a, b, heq⟩ := exists_signedText x
    have hmem := sep_mem_signedText sep negative a b
    rw [← heq] at hmem
    simp only [List.mem_cons, List.not_mem_nil, or_false] at hsep
    rcases hsep with rfl | rfl
    · exact hdot hmem
    · exact he hmem
  refine ⟨fun x => hsep x _ (by decide) (by decide), fun x => hsep x _ (by decide) (by decide),
    fun x c hc => ?_, fun x y h => ?_⟩
  · rw [htext] at hc
    obtain ⟨sep, hsep, negative, a, b, heq⟩ := exists_signedText x
    rw [heq] at hc
    simp only [List.mem_cons, List.not_mem_nil, or_false] at hsep
    rcases mem_signedText hc with hdigit | rfl | rfl
    · exact .inl (by simp [Char.isAlphanum, hdigit])
    · exact .inr (by decide)
    · rcases hsep with rfl | rfl
      · exact .inr (by decide)
      · exact .inl rfl
  · have hexact : exactText x = exactText y := by
      rw [← htext, ← htext, h]
    rw [exactText_injective hexact]
    exact Python.numEq_self y

theorem noon_nonneg : (0 : Int) ≤ 63902865600000000 := by decide

theorem noon_lt : (63902865600000000 : Int) < maxWall := by decide

/-- Noon UTC of the first day of 2026. -/
def noon : DateTime where
  wall := 63902865600000000
  offset := some 0
  wall_nonneg := noon_nonneg
  wall_lt := noon_lt
  offset_lt := utc_offset_lt

/-- The same noon on a clock that is three hours ahead. -/
def noonAhead : DateTime := { wall := 63902876400000000, offset := some 10800000000 }

theorem noon_pyEq : noon.pyEq noonAhead = true := by decide

/-- An update of a note: when it happened. -/
def happenedAt (at_ : DateTime) (key : String) : UpdateMemoryCommand Exact where
  ownerId := "alice"
  memoryId := ⟨7⟩
  expectedVersion := 1
  occurredAt := some at_
  idempotencyKey := some key

/-- Two updates at one instant agree, whatever offsets they are given in. -/
theorem happenedAt_agrees {at_ at_' : DateTime} (h : at_.pyEq at_' = true) (key key' : String) :
    (happenedAt at_ key).Agrees (happenedAt at_' key') where
  ownerId := rfl
  memoryId := rfl
  expectedVersion := rfl
  content := rfl
  memoryType := rfl
  importance := rfl
  confidence := rfl
  state := rfl
  occurredAt := h
  space := rfl
  provenance := rfl
  supersedesMemoryId := rfl
  contradictsMemoryId := rfl
  changeReason := rfl

/-- Two updates at noon, under two keys: they agree, and have one fingerprint. -/
theorem fingerprints_decide_iff_noon :
    fingerprintUpdateCommand (happenedAt noon "u1") = fingerprintUpdateCommand (happenedAt noon "u2")
      ↔ (happenedAt noon "u1").Agrees (happenedAt noon "u2") :=
  ((fingerprints_decide_iff (R := Exact) Function.injective_id numberTexts_exact).1
    (happenedAt noon "u1") (happenedAt noon "u2") rfl).mpr fun _ => ⟨rfl, rfl, rfl⟩

/-- The same noon in two offsets: the updates agree, their fingerprints do not. -/
theorem noon_in_two_offsets :
    Function.Injective (Python.sha256Hexdigest Exact) ∧ NumberTexts Exact ∧
    (happenedAt noon "u1").ownerId = (happenedAt noonAhead "u1").ownerId ∧
    (happenedAt noon "u1").Agrees (happenedAt noonAhead "u1") ∧
    fingerprintUpdateCommand (happenedAt noon "u1")
      ≠ fingerprintUpdateCommand (happenedAt noonAhead "u1") := by
  refine ⟨Function.injective_id, numberTexts_exact, rfl, happenedAt_agrees noon_pyEq "u1" "u1", ?_⟩
  intro h
  obtain ⟨-, halike⟩ := (fingerprintUpdateCommand_iff (R := Exact) Function.injective_id
    numberTexts_exact).mp h
  exact absurd (Option.some.inj halike.occurredAt) (by decide)

end OpenMemory
