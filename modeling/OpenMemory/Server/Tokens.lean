import OpenMemory.Admin.Model
import OpenMemory.Lib.Layouts
import OpenMemory.Lib.Nesting
import OpenMemory.Lib.Tags
import OpenMemory.Worker.Library

/-!
# Access tokens (`cloud/security.py`)

`LocalDevelopmentTokenVerifier` issues compact tokens, `v1.`, the claims and a tag over the claims,
and reads them back. It keeps no list of what it has issued: what it accepts is what its tag fits.
It does keep the hashes of the tokens that were revoked. `principal_from_access_token` makes a
principal of the claims. What the claims of a presented token say is a text of code points, with
halves of surrogate pairs where it escapes them.

In the order of the proof:

- `unb64_b64`: the base64 text without its padding reads back.
- `eq_of_partsOf`: a token is put together from its three parts, so no second text is the same
  token.
- `loadPayload_encodedOf`: what `issue` prints, `verify_token` reads.
- `readClaims_signed`, `readClaims_unsigned`: the `try` block on a token with the right tag and on
  one without.
- `authenticated_iff_issued`: after any run, what is accepted is what has been issued for the
  verifier, has not expired and has not been revoked.
- `verifyToken_error_iff`: which texts raise.
-/

namespace OpenMemory.Server

open Lib
open Admin (Scope Principal AccessToken sortedScopes sha256Hexdigest epochMicros)
open Cloud (Bytes encodeText)
open Worker (compareDigest)

/-! ## What the interpreter does -/

/-- The exceptions that reading a token can end in. -/
inductive Raised
  | keyError | typeError | valueError | attributeError | overflowError | osError | recursionError
  | unicodeEncodeError | validationError
  /-- `PermissionError("invalid principal claims")`. -/
  | invalidPrincipalClaims
  deriving DecidableEq

/-- `except (KeyError, TypeError, ValueError)`: a `JSONDecodeError` is a `ValueError`, and so are a
`UnicodeEncodeError` and the `ValidationError` of pydantic. -/
def Raised.isCaught : Raised → Bool
  | .keyError | .typeError | .valueError | .unicodeEncodeError | .validationError => true
  | _ => false

/-- The conversions of the interpreter. -/
structure Interpreter where
  /-- `UUID(text)` of characters, `none` for `ValueError`. -/
  parseUuid : String → Option UUID
  /-- `int(text)` of characters, `none` for `ValueError`. -/
  intOfText : String → Option Int
  /-- `int(number)` of a number with this literal. -/
  intOfFloat : String → Except Raised Int
  /-- `str(value)` of what is no text. -/
  strOf : ScannedJson → String
  /-- The text that `json.loads` finds in bytes, `none` for `UnicodeDecodeError`. Bytes that spell a
  surrogate are decoded to it. -/
  decodeJson : Bytes → Option CodePoints
  /-- How deep `json.loads` gets, and how long its integers are. -/
  limits : ReadLimits
  /-- The local time zone: the offset, in microseconds, of a time of its wall clock. -/
  localOffset : Int → Int
  /-- `int(micros / 10**6)`, where the quotient is a float. -/
  secondsOf : Int → Int
  /-- What `datetime.fromtimestamp` raises outside of the calendar. -/
  outOfRange : Int → Raised
  /-- `UUID` reads what `str` prints. -/
  parseUuid_str : ∀ u : UUID, parseUuid u.str = some u
  /-- ASCII without control characters is UTF-8. -/
  decodeJson_printable : ∀ s : String, (∀ c ∈ s.toList, JsonValue.IsPrintable c) →
    decodeJson (encodeText s) = some (.ofString s)
  nesting_le : 2 ≤ limits.nesting
  digits_le : 640 ≤ limits.digits
  localOffset_lt : ∀ wall, (localOffset wall).natAbs < dayMicros
  /-- A quotient between two integers is rounded to a float between them. -/
  secondsOf_mem : ∀ micros : Int, micros.natAbs < 10 ^ 18 →
    micros / 1000000 ≤ secondsOf micros ∧ secondsOf micros ≤ micros / 1000000 + 1

variable (lib : Interpreter)

/-- `int(value)`; a half of a surrogate pair is no digit. -/
def intOf : ScannedJson → Except Raised Int
  | .int n => .ok n
  | .bool b => .ok (if b then 1 else 0)
  | .str s => match s.toString?.bind lib.intOfText with
    | none => .error .valueError
    | some n => .ok n
  | .float literal => lib.intOfFloat literal
  | _ => .error .typeError

/-- `str(value)`. -/
def strOf : ScannedJson → CodePoints
  | .str s => s
  | value => .ofString (lib.strOf value)

/-- A text field of a pydantic model, which takes no half of a surrogate pair. -/
def modelText (s : CodePoints) : Except Raised String :=
  match s.toString? with
  | none => .error .validationError
  | some s => .ok s

/-- `UUID(value)`. -/
def uuidOf : ScannedJson → Except Raised UUID
  | .str s => match s.toString?.bind lib.parseUuid with
    | none => .error .valueError
    | some u => .ok u
  | .null => .error .typeError
  | _ => .error .attributeError

/-- `payload[key]`. -/
def getItem (key : String) : ScannedJson → Except Raised ScannedJson
  | .obj members => match JsonTree.member (.ofString key) members with
    | none => .error .keyError
    | some value => .ok value
  | _ => .error .typeError

/-- `for item in value`; a dict has its keys in the order of their first members. -/
def itemsOf : ScannedJson → Except Raised (List ScannedJson)
  | .arr items => .ok items
  | .str s => .ok (s.map fun c => .str [c])
  | .obj members => .ok ((members.map Prod.fst).eraseDups.map .str)
  | _ => .error .typeError

/-- `Scope(item).value`. -/
def scopeValueOf : ScannedJson → Except Raised String
  | .str s => match s.toString?.bind Scope.ofValue with
    | none => .error .valueError
    | some scope => .ok scope.value
  | _ => .error .valueError

/-- Is the value this text? -/
def isText (value : ScannedJson) (text : String) : Bool :=
  match value with
  | .str s => decide (s = .ofString text)
  | _ => false

/-! ## Base64 without padding -/

/-- `_b64`. -/
def b64 (value : Bytes) : String :=
  String.ofList ((Base64.encode value).rdropWhile fun c => c = '=')

/-- `_unb64`, `none` for `ValueError`. -/
def unb64 (value : String) : Option Bytes :=
  Base64.decode (value.toList ++ List.replicate ((4 - value.length % 4) % 4) '=')

/-! ## The verifier -/

/-- What a token says. -/
structure Claims where
  subject : UUID
  tenantId : UUID
  membershipId : UUID
  credentialId : UUID
  scopes : Finset Scope
  expiresAt : DateTime
  clientId : String := "local-development"
  deriving DecidableEq

structure LocalDevelopmentTokenVerifier where
  secret : Bytes
  issuer : String
  audience : String
  revoked : Finset String := ∅

/-- The microseconds from the epoch to a datetime. -/
def microsOf (value : DateTime) : Int :=
  value.wall - value.offset.getD (lib.localOffset value.wall) - epochMicros

/-- `int(value.timestamp())`. -/
def timestamp (value : DateTime) : Int := lib.secondsOf (microsOf lib value)

/-- `datetime.fromtimestamp(seconds, UTC)`. -/
def fromTimestamp (seconds : Int) : Except Raised DateTime :=
  if h : 0 ≤ epochMicros + seconds * 1000000 ∧ epochMicros + seconds * 1000000 < maxWall then
    .ok
      { wall := epochMicros + seconds * 1000000, offset := some 0, wall_nonneg := h.1
        wall_lt := h.2, offset_lt := utc_offset_lt }
  else .error (lib.outOfRange seconds)

namespace LocalDevelopmentTokenVerifier

variable (v : LocalDevelopmentTokenVerifier)

/-- The members of `payload` in `issue`. -/
def claimsDict (claims : Claims) : List (String × JsonValue) :=
  [("aud", .str v.audience), ("cid", .str claims.clientId),
    ("credential_id", .str claims.credentialId.str), ("exp", .int (timestamp lib claims.expiresAt)),
    ("iss", .str v.issuer), ("membership_id", .str claims.membershipId.str),
    ("scope", .arr ((sortedScopes claims.scopes).map .str)), ("sub", .str claims.subject.str),
    ("tenant_id", .str claims.tenantId.str)]

/-- `payload` of `issue`. -/
def payload (claims : Claims) : JsonValue := .obj (v.claimsDict lib claims)

/-- `encoded` of `issue`. -/
def encodedOf (claims : Claims) : String :=
  b64 (encodeText (JsonValue.dumpsCompact (v.payload lib claims)))

/-- The tag over the encoded claims. -/
def signatureOf (encoded : String) : String :=
  b64 ((Sha256.digest (Sha256.hmacInput (v.secret.map UInt8.toNat)
    ((encodeText encoded).map UInt8.toNat))).map UInt8.ofNat)

/-- `issue`. -/
def issue (claims : Claims) : String :=
  "v1." ++ v.encodedOf lib claims ++ "." ++ v.signatureOf (v.encodedOf lib claims)

/-- `revoke`. -/
def revoke (token : String) : LocalDevelopmentTokenVerifier :=
  { v with revoked := insert (sha256Hexdigest token) v.revoked }

/-- `token.split(".")`. -/
def partsOf (token : String) : List String := (token.toList.splitOn '.').map String.ofList

/-- What the claims of an accepted token are read as. -/
structure Accepted where
  payload : ScannedJson
  sub : CodePoints
  scopes : List String
  exp : Int

/-- `json.loads(_unb64(encoded))`. -/
def loadPayload (encoded : String) : Except Raised ScannedJson :=
  match (unb64 encoded).bind lib.decodeJson with
  | none => .error .valueError
  | some text => match ScannedJson.loadsWithin lib.limits text with
    | .ok payload => .ok payload
    | .error .valueError => .error .valueError
    | .error .recursionError => .error .recursionError

/-- The conditions of the `try` block, `none` where one of them fails. -/
def readClaims (now : DateTime) (token : String) : Except Raised (Option Accepted) :=
  match partsOf token with
  | [version, encoded, signature] => do
    let payload ← loadPayload lib encoded
    if version ≠ "v1" then pure none
    else match compareDigest signature (v.signatureOf encoded) with
      | none => throw .typeError
      | some false => pure none
      | some true => do
        let iss ← getItem "iss" payload
        if isText iss v.issuer = false then pure none
        else do
          let aud ← getItem "aud" payload
          if isText aud v.audience = false then pure none
          else do
            let exp ← getItem "exp" payload >>= intOf lib
            if exp ≤ timestamp lib now then pure none
            else do
              let sub ← getItem "sub" payload
              let _ ← uuidOf lib sub
              let _ ← getItem "tenant_id" payload >>= uuidOf lib
              let _ ← getItem "membership_id" payload >>= uuidOf lib
              let _ ← getItem "credential_id" payload >>= uuidOf lib
              let scopes ← (← getItem "scope" payload >>= itemsOf).mapM scopeValueOf
              pure (some { payload := payload, sub := strOf lib sub, scopes := scopes, exp := exp })
  | _ => throw .valueError

/-- `verify_token` on a text of characters: the answer, or the exception that gets out of it. -/
def verifyToken (now : DateTime) (token : String) : Except Raised (Option AccessToken) :=
  if sha256Hexdigest token ∈ v.revoked then .ok none
  else match v.readClaims lib now token with
    | .error e => if e.isCaught then .ok none else .error e
    | .ok none => .ok none
    | .ok (some accepted) => do
      let cid ← getItem "cid" accepted.payload
      let tenantId ← getItem "tenant_id" accepted.payload
      let membershipId ← getItem "membership_id" accepted.payload
      let credentialId ← getItem "credential_id" accepted.payload
      let clientId ← modelText (strOf lib cid)
      let subject ← modelText accepted.sub
      -- The ids have been read as UUIDs, so they are texts of characters.
      let tenantId ← modelText (strOf lib tenantId)
      let membershipId ← modelText (strOf lib membershipId)
      let credentialId ← modelText (strOf lib credentialId)
      pure (some
        { token := token, clientId := clientId, scopes := accepted.scopes
          expiresAt := accepted.exp, resource := v.audience, subject := subject
          iss := v.issuer, tenantId := tenantId, membershipId := membershipId
          credentialId := credentialId })

/-- `verify_token` on any text: its hash is taken before the `try` block, and a text with half a
surrogate pair does not encode. -/
def verifyText (now : DateTime) (text : CodePoints) : Except Raised (Option AccessToken) :=
  match text.toString? with
  | none => .error .unicodeEncodeError
  | some token => v.verifyToken lib now token

end LocalDevelopmentTokenVerifier

/-- The `try` block of `principal_from_access_token`. -/
def readPrincipal (token : AccessToken) : Except Raised Principal := do
  let subjectId ← uuidOf lib (.str (.ofString token.subject))
  let tenantId ← uuidOf lib (.str (.ofString token.tenantId))
  let membershipId ← uuidOf lib (.str (.ofString token.membershipId))
  let credentialId ← uuidOf lib (.str (.ofString token.credentialId))
  let scopes ← token.scopes.mapM fun item =>
    match Scope.ofValue item with
    | none => .error .valueError
    | some scope => .ok scope
  let expiresAt ← fromTimestamp lib token.expiresAt
  pure
    { subjectId := subjectId, tenantId := tenantId, membershipId := membershipId
      credentialId := credentialId, scopes := scopes.toFinset, authMethod := "local-development"
      expiresAt := expiresAt }

/-- `principal_from_access_token`. -/
def principalFromAccessToken (token : AccessToken) : Except Raised Principal :=
  match readPrincipal lib token with
  | .error e => .error (if e.isCaught then .invalidPrincipalClaims else e)
  | .ok p => .ok p

/-! ## The text of a token -/

/-- No symbol of base64 is the pad. -/
theorem symbol_ne_pad (n : Nat) : Base64.symbol n ≠ '=' := by
  by_cases h : n < 64
  · exact (Base64.value_symbol h).1
  · have hlast : Base64.symbol n = '_' := by
      unfold Base64.symbol
      rw [if_neg (by omega), if_neg (by omega), if_neg (by omega), if_neg (by omega)]
    rw [hlast]
    decide

/-- The encoded text is a body and the pads that complete the last group. -/
theorem encode_eq_body_pads (bytes : Bytes) :
    ∃ body, Base64.encode bytes = body ++ List.replicate ((4 - body.length % 4) % 4) '=' ∧
      '=' ∉ body := by
  induction bytes using Base64.encode.induct with
  | case1 => exact ⟨[], rfl, List.not_mem_nil⟩
  | case2 a =>
    exact ⟨[_, _], rfl, by simp [(symbol_ne_pad _).symm]⟩
  | case3 a b =>
    exact ⟨[_, _, _], rfl, by simp [(symbol_ne_pad _).symm]⟩
  | case4 a b c rest ih =>
    obtain ⟨body, htext, hbody⟩ := ih
    refine ⟨Base64.symbol (a.toNat / 4) :: Base64.symbol (a.toNat % 4 * 16 + b.toNat / 16) ::
      Base64.symbol (b.toNat % 16 * 4 + c.toNat / 64) :: Base64.symbol (c.toNat % 64) :: body,
      ?_, ?_⟩
    · rw [Base64.encode, htext]
      simp only [List.cons_append, List.length_cons]
      rw [show (body.length + 1 + 1 + 1 + 1) % 4 = body.length % 4 by omega]
    · simp [(symbol_ne_pad _).symm, hbody]

/-- What `rstrip("=")` leaves. -/
theorem rdropWhile_pads {body : List Char} (h : '=' ∉ body) (k : Nat) :
    (body ++ List.replicate k '=').rdropWhile (fun c => c = '=') = body := by
  unfold List.rdropWhile
  rw [List.reverse_append, List.reverse_replicate,
    List.dropWhile_append_of_pos fun c hc => by simp [List.eq_of_mem_replicate hc]]
  have hhead : body.reverse.dropWhile (fun c => decide (c = '=')) = body.reverse := by
    cases hrev : body.reverse with
    | nil => rfl
    | cons c cs =>
      have hc : c ≠ '=' := by
        rintro rfl
        exact h (List.mem_reverse.mp (hrev ▸ List.mem_cons_self))
      exact List.dropWhile_cons_of_neg (by simpa using hc)
  rw [hhead, List.reverse_reverse]

/-- The pads that `_unb64` puts back are those that were stripped. -/
theorem toList_b64 (bytes : Bytes) :
    ∃ k, Base64.encode bytes = (b64 bytes).toList ++ List.replicate k '=' ∧
      k = (4 - (b64 bytes).toList.length % 4) % 4 := by
  obtain ⟨body, htext, hbody⟩ := encode_eq_body_pads bytes
  have hstrip : (b64 bytes).toList = body := by
    unfold b64
    rw [String.toList_ofList, htext, rdropWhile_pads hbody]
  exact ⟨_, by rw [hstrip]; exact htext, by rw [hstrip]⟩

/-- `_unb64` inverts `_b64`. -/
theorem unb64_b64 (bytes : Bytes) : unb64 (b64 bytes) = some bytes := by
  obtain ⟨k, htext, hk⟩ := toList_b64 bytes
  unfold unb64
  rw [← String.length_toList, ← hk, ← htext, Base64.decode_encode]

theorem mem_encode_of_mem_b64 {bytes : Bytes} {c : Char} (h : c ∈ (b64 bytes).toList) :
    c ∈ Base64.encode bytes := by
  obtain ⟨k, htext, -⟩ := toList_b64 bytes
  rw [htext]
  exact List.mem_append_left _ h

/-- No part of a token has a dot. -/
theorem dot_not_mem_b64 (bytes : Bytes) : '.' ∉ (b64 bytes).toList := by
  intro h
  have hall : ∀ n < 64, Base64.symbol n ≠ '.' := by decide
  rcases Base64.mem_encode (mem_encode_of_mem_b64 h) with h | ⟨n, hn, h⟩
  · exact absurd h (by decide)
  · exact hall n hn h.symm

/-- So a signature can be compared with another text. -/
theorem isAscii_b64 (bytes : Bytes) : Worker.isAscii (b64 bytes) = true :=
  List.all_eq_true.mpr fun c hc =>
    decide_eq_true (Base64.encode_ascii bytes c (mem_encode_of_mem_b64 hc))

namespace LocalDevelopmentTokenVerifier

variable {v : LocalDevelopmentTokenVerifier}

theorem dot_not_mem_encodedOf (claims : Claims) : '.' ∉ (v.encodedOf lib claims).toList := by
  unfold encodedOf
  exact dot_not_mem_b64 _

theorem dot_not_mem_signatureOf (encoded : String) : '.' ∉ (v.signatureOf encoded).toList := by
  unfold signatureOf
  exact dot_not_mem_b64 _

/-- A token that was issued splits into its three parts. -/
theorem partsOf_issue (claims : Claims) :
    partsOf (v.issue lib claims)
      = ["v1", v.encodedOf lib claims, v.signatureOf (v.encodedOf lib claims)] := by
  have hencoded := v.dot_not_mem_encodedOf lib claims
  have hsignature := v.dot_not_mem_signatureOf (v.encodedOf lib claims)
  unfold issue partsOf
  generalize v.signatureOf (v.encodedOf lib claims) = signature at hsignature ⊢
  generalize v.encodedOf lib claims = encoded at hencoded ⊢
  have hshape : ("v1." ++ encoded ++ "." ++ signature).toList = ['.'].intercalate
      [['v', '1'], encoded.toList, signature.toList] := by
    simp [String.toList_append, List.intercalate]
  rw [hshape, List.splitOn_intercalate '.' _ (by simp)]
  · simp only [List.map_cons, List.map_nil, String.ofList_toList]
  · intro part hpart
    simp only [List.mem_cons, List.not_mem_nil, or_false] at hpart
    rcases hpart with rfl | rfl | rfl
    · decide
    · exact hencoded
    · exact hsignature

/-- A text with three parts is put together from them. -/
theorem eq_of_partsOf {token version encoded signature : String}
    (h : partsOf token = [version, encoded, signature]) :
    token = version ++ "." ++ encoded ++ "." ++ signature := by
  have hparts : token.toList.splitOn '.'
      = [version.toList, encoded.toList, signature.toList] := by
    have hmap := congrArg (List.map String.toList) h
    simpa [partsOf, List.map_map, Function.comp_def, String.toList_ofList] using hmap
  have hjoin : ['.'].intercalate (token.toList.splitOn '.') = token.toList :=
    List.intercalate_splitOn '.'
  rw [hparts] at hjoin
  apply String.toList_injective
  rw [← hjoin]
  simp [String.toList_append, List.intercalate]

/-- Only the tag itself passes the comparison. -/
theorem compareDigest_signature (encoded signature : String) :
    compareDigest signature (v.signatureOf encoded) = some true ↔
      signature = v.signatureOf encoded := by
  have hascii : Worker.isAscii (v.signatureOf encoded) = true := isAscii_b64 _
  unfold compareDigest
  constructor
  · intro h
    split_ifs at h
    exact of_decide_eq_true (Option.some.inj h)
  · rintro rfl
    rw [hascii]
    simp

/-! ## Reading what was issued -/

theorem hasLiterals_payload (claims : Claims) : JsonValue.HasLiterals (v.payload lib claims) := by
  simp [payload, claimsDict, JsonValue.HasLiterals, JsonValue.MembersHaveLiterals,
    JsonValue.itemsHaveLiterals_str]

/-- The claims are printed in ASCII. -/
theorem isPrintable_payload (claims : Claims) :
    ∀ c ∈ (JsonValue.dumpsCompact (v.payload lib claims)).toList, JsonValue.IsPrintable c := by
  rw [← JsonValue.compactAscii_dumps]
  unfold JsonValue.Layout.dumps
  rw [String.toList_ofList]
  exact JsonValue.Layout.compactAscii_prints.print 0 _ (hasLiterals_payload lib claims)

/-- Their text reads back. -/
theorem loads_payload (claims : Claims) :
    JsonValue.loads (JsonValue.dumpsCompact (v.payload lib claims))
      = some (v.payload lib claims) := by
  have hsorted : JsonValue.sorted (v.payload lib claims) = v.payload lib claims := by
    simp only [payload, claimsDict, JsonValue.sorted, JsonValue.sortedMembers,
      JsonValue.sortedAll_str]
    refine congrArg JsonValue.obj (List.Pairwise.insertionSort_eq ?_)
    simp only [List.pairwise_cons, List.mem_cons, List.not_mem_nil, or_false, forall_eq_or_imp,
      forall_eq, false_imp_iff, implies_true, List.Pairwise.nil, and_true]
    decide
  rw [← JsonValue.compactAscii_dumps,
    JsonValue.compactAscii.loads_dumps (hasLiterals_payload lib claims), hsorted]

/-- An instant of the calendar has at most eighteen digits of microseconds. -/
theorem natAbs_microsOf_lt (d : DateTime) : (microsOf lib d).natAbs < 10 ^ 18 := by
  have hoffset : (d.offset.getD (lib.localOffset d.wall)).natAbs < dayMicros := by
    have hlt := d.offset_lt
    cases hoff : d.offset with
    | none => exact lib.localOffset_lt d.wall
    | some off => simpa [hoff] using hlt
  have hlow := d.wall_nonneg
  have hhigh := d.wall_lt
  unfold microsOf
  unfold dayMicros at hoffset
  unfold maxWall at hhigh
  unfold epochMicros
  omega

/-- A second of the calendar has at most thirteen digits. -/
theorem natAbs_timestamp_lt (d : DateTime) : (timestamp lib d).natAbs < 10 ^ 13 := by
  have hmicros := natAbs_microsOf_lt lib d
  have hseconds := lib.secondsOf_mem _ hmicros
  unfold timestamp
  omega

/-- The claims nest twice, and their one integer is short. -/
theorem fits_payload (claims : Claims) :
    JsonValue.fits lib.limits lib.limits.nesting (v.payload lib claims) = true := by
  have hnesting := lib.nesting_le
  have hdigits : (toString (timestamp lib claims.expiresAt).natAbs).length ≤ lib.limits.digits := by
    have hlen := (Nat.length_toDigits_le_iff (b := 10) (k := 13) (by decide) (by decide)).mpr
      (natAbs_timestamp_lt lib claims.expiresAt)
    rw [← String.length_toList]
    show (Nat.repr _).toList.length ≤ _
    rw [Nat.toList_repr]
    exact hlen.trans (le_trans (by decide) lib.digits_le)
  have hint : lib.limits.shortEnough (timestamp lib claims.expiresAt) = true :=
    decide_eq_true hdigits
  have hlast : 0 < lib.limits.nesting - 1 := by omega
  have hfirst : 0 < lib.limits.nesting := by omega
  simp only [payload, claimsDict, JsonValue.fits, JsonValue.membersFit, JsonValue.itemsFit_str,
    hint, hlast, hfirst, decide_true, Bool.and_true]

/-- What `issue` encodes, `verify_token` reads. -/
theorem loadPayload_encodedOf (claims : Claims) :
    loadPayload lib (v.encodedOf lib claims) = .ok (.ofValue (v.payload lib claims)) := by
  unfold loadPayload encodedOf
  rw [unb64_b64, Option.bind_some, lib.decodeJson_printable _ (isPrintable_payload lib claims)]
  dsimp only
  rw [ScannedJson.loadsWithin_of_loads (loads_payload lib claims) (fits_payload lib claims)]

/-- An id reads back from its text. -/
theorem uuidOf_str (u : UUID) : uuidOf lib (.str (.ofString u.str)) = .ok u := by
  dsimp only [uuidOf]
  rw [CodePoints.toString?_ofString, Option.bind_some, lib.parseUuid_str]

/-- A text of characters is compared with another one. -/
theorem isText_ofString (s text : String) :
    isText (.str (.ofString s)) text = decide (s = text) := by
  simp only [isText, CodePoints.ofString_inj]

/-- A text of characters is taken as it is. -/
theorem modelText_ofString (s : String) : modelText (.ofString s) = .ok s := by
  unfold modelText
  rw [CodePoints.toString?_ofString]

theorem ofValue_value (scope : Scope) : Scope.ofValue scope.value = some scope := by
  cases scope <;> decide

/-- The scopes of a token are the texts of a list of the scopes. -/
theorem sortedScopes_eq (scopes : Finset Scope) :
    ∃ list : List Scope, sortedScopes scopes = list.map Scope.value ∧ list.toFinset = scopes := by
  refine ⟨(Scope.all.filter (· ∈ scopes)).insertionSort fun a b => a.value ≤ b.value, ?_, ?_⟩
  · exact (List.map_insertionSort _ (fun a b : String => a ≤ b) Scope.value _
      fun a _ b _ => Iff.rfl).symm
  · ext scope
    have hall : scope ∈ Scope.all := by cases scope <;> decide
    simp [List.mem_insertionSort, hall]

/-- The scopes of the claims read back. -/
theorem scopeValueOf_sortedScopes (scopes : Finset Scope) :
    (ScannedJson.ofItems ((sortedScopes scopes).map .str)).mapM scopeValueOf
      = .ok (sortedScopes scopes) := by
  obtain ⟨list, htexts, -⟩ := sortedScopes_eq scopes
  rw [htexts, ScannedJson.ofItems_str]
  clear htexts
  induction list with
  | nil => rfl
  | cons scope list ih =>
    rw [List.map_cons, List.map_cons, List.mapM_cons, scopeValueOf, CodePoints.toString?_ofString,
      Option.bind_some, ofValue_value, ih]
    rfl

/-- Who holds the secret may issue for another audience. -/
def issuing (v : LocalDevelopmentTokenVerifier) (issuer audience : String) :
    LocalDevelopmentTokenVerifier := { v with issuer := issuer, audience := audience }

/-- A claim is found under its key. -/
theorem getItem_payload {claims : Claims} {key : String} {value : JsonValue}
    (h : JsonValue.member key (v.claimsDict lib claims) = some value) :
    getItem key (.ofValue (v.payload lib claims)) = .ok (.ofValue value) := by
  rw [payload, ScannedJson.ofValue]
  dsimp only [getItem]
  rw [ScannedJson.member_ofMembers, h, Option.map_some]

/-- What the `try` block makes of claims that were signed with the secret. -/
theorem readClaims_signed {issuer audience : String} {claims : Claims} {token : String}
    {now : DateTime} {encoded : String}
    (hparts : partsOf token = ["v1", encoded, v.signatureOf encoded])
    (hencoded : encoded = (v.issuing issuer audience).encodedOf lib claims) :
    v.readClaims lib now token = .ok
      (if issuer = v.issuer ∧ audience = v.audience ∧
          timestamp lib now < timestamp lib claims.expiresAt then
        some
          { payload := .ofValue ((v.issuing issuer audience).payload lib claims)
            sub := .ofString claims.subject.str
            scopes := sortedScopes claims.scopes, exp := timestamp lib claims.expiresAt }
      else none) := by
  have hpayload :
      loadPayload lib encoded
        = .ok (.ofValue ((v.issuing issuer audience).payload lib claims)) := by
    rw [hencoded]
    exact loadPayload_encodedOf lib claims
  have hitem : ∀ key value,
      JsonValue.member key ((v.issuing issuer audience).claimsDict lib claims) = some value →
        getItem key (.ofValue ((v.issuing issuer audience).payload lib claims))
          = .ok (.ofValue value) := fun _ _ h => getItem_payload lib h
  unfold readClaims
  rw [hparts]
  dsimp only
  rw [hpayload, (compareDigest_signature encoded _).mpr rfl]
  dsimp only [except_ok_bind]
  rw [if_neg (not_not.mpr rfl), hitem "iss" (.str issuer) rfl]
  dsimp only [except_ok_bind]
  by_cases hissuer : issuer = v.issuer
  · rw [ScannedJson.ofValue, isText_ofString, if_neg (by simp [hissuer]),
      hitem "aud" (.str audience) rfl]
    dsimp only [except_ok_bind]
    by_cases haudience : audience = v.audience
    · rw [ScannedJson.ofValue, isText_ofString, if_neg (by simp [haudience]),
        hitem "exp" (.int (timestamp lib claims.expiresAt)) rfl]
      dsimp only [except_ok_bind, ScannedJson.ofValue, intOf]
      by_cases hexp : timestamp lib claims.expiresAt ≤ timestamp lib now
      · rw [if_pos hexp, if_neg fun h => absurd h.2.2 (not_lt.mpr hexp)]
        rfl
      · rw [if_neg hexp, if_pos ⟨hissuer, haudience, not_le.mp hexp⟩,
          hitem "sub" (.str claims.subject.str) rfl,
          hitem "tenant_id" (.str claims.tenantId.str) rfl,
          hitem "membership_id" (.str claims.membershipId.str) rfl,
          hitem "credential_id" (.str claims.credentialId.str) rfl,
          hitem "scope" (.arr ((sortedScopes claims.scopes).map .str)) rfl]
        dsimp only [except_ok_bind, ScannedJson.ofValue, itemsOf]
        rw [uuidOf_str, uuidOf_str, uuidOf_str, uuidOf_str, scopeValueOf_sortedScopes]
        rfl
    · rw [ScannedJson.ofValue, isText_ofString, if_pos (by simp [haudience]),
        if_neg fun h => haudience h.2.1]
      rfl
  · rw [ScannedJson.ofValue, isText_ofString, if_pos (by simp [hissuer]),
      if_neg fun h => hissuer h.1]
    rfl

/-! ## Reading what was not issued -/

/-- The token carries the tag of the text in its middle. -/
def IsSigned (v : LocalDevelopmentTokenVerifier) (token encoded : String) : Prop :=
  partsOf token = ["v1", encoded, v.signatureOf encoded]

/-- The text in the middle of the token nests deeper than the interpreter reads. -/
def TooDeep (token : String) : Prop :=
  ∃ version encoded signature, partsOf token = [version, encoded, signature] ∧
    loadPayload lib encoded = .error .recursionError

/-- What the `try` block makes of a token without the right tag. -/
theorem readClaims_unsigned {now : DateTime} {token : String}
    (h : ∀ encoded, ¬v.IsSigned token encoded) :
    (TooDeep lib token ∧ v.readClaims lib now token = .error .recursionError) ∨
      ¬TooDeep lib token ∧ (v.readClaims lib now token = .ok none ∨
        ∃ e, e.isCaught = true ∧ v.readClaims lib now token = .error e) := by
  unfold readClaims
  split
  next version encoded signature hparts =>
    have hdeep : TooDeep lib token ↔ loadPayload lib encoded = .error .recursionError := by
      constructor
      · rintro ⟨version', encoded', signature', hparts', hload⟩
        rw [hparts] at hparts'
        simp only [List.cons.injEq] at hparts'
        rwa [hparts'.2.1]
      · exact fun hload => ⟨version, encoded, signature, hparts, hload⟩
    have hload : ∀ e, loadPayload lib encoded = .error e →
        e = .valueError ∨ e = .recursionError := by
      intro e he
      unfold loadPayload at he
      split at he
      · exact .inl (Except.error.inj he).symm
      · split at he
        · cases he
        · exact .inl (Except.error.inj he).symm
        · exact .inr (Except.error.inj he).symm
    rw [hdeep]
    cases hpayload : loadPayload lib encoded with
    | error e =>
      rcases hload e hpayload with rfl | rfl
      · exact .inr ⟨by simp, .inr ⟨.valueError, rfl, rfl⟩⟩
      · exact .inl ⟨rfl, rfl⟩
    | ok payload =>
      refine .inr ⟨by simp, ?_⟩
      rw [except_ok_bind]
      by_cases hversion : version = "v1"
      · rw [if_neg (not_not.mpr hversion)]
        cases hdigest : compareDigest signature (v.signatureOf encoded) with
        | none => exact .inr ⟨.typeError, rfl, rfl⟩
        | some same =>
          cases same with
          | false => exact .inl rfl
          | true =>
            -- Then the tag is right after all.
            refine absurd ?_ (h encoded)
            unfold IsSigned
            rw [hparts, hversion, (compareDigest_signature encoded signature).mp hdigest]
      · rw [if_pos hversion]
        exact .inl rfl
  next hparts =>
    refine .inr ⟨?_, .inr ⟨.valueError, rfl, rfl⟩⟩
    rintro ⟨version, encoded, signature, hparts', -⟩
    exact hparts version encoded signature hparts'

/-! ## What an issued token is accepted as -/

/-- The access token that comes of claims. -/
def accessTokenOf (v : LocalDevelopmentTokenVerifier) (token : String) (claims : Claims) :
    AccessToken where
  token := token
  clientId := claims.clientId
  scopes := sortedScopes claims.scopes
  expiresAt := timestamp lib claims.expiresAt
  resource := v.audience
  subject := claims.subject.str
  iss := v.issuer
  tenantId := claims.tenantId.str
  membershipId := claims.membershipId.str
  credentialId := claims.credentialId.str

/-- A token on the list is answered with `None` before anything is read. -/
theorem verifyToken_of_revoked {now : DateTime} {token : String}
    (h : sha256Hexdigest token ∈ v.revoked) : v.verifyToken lib now token = .ok none := by
  unfold verifyToken
  rw [if_pos h]

/-- A token with the right tag is accepted if issuer, audience and time fit. -/
theorem verifyToken_signed {issuer audience : String} {claims : Claims} {token : String}
    {now : DateTime} (h : sha256Hexdigest token ∉ v.revoked)
    (hsigned : v.IsSigned token ((v.issuing issuer audience).encodedOf lib claims)) :
    v.verifyToken lib now token = .ok
      (if issuer = v.issuer ∧ audience = v.audience ∧
          timestamp lib now < timestamp lib claims.expiresAt then
        some (v.accessTokenOf lib token claims)
      else none) := by
  unfold verifyToken
  rw [if_neg h, readClaims_signed lib hsigned rfl]
  split_ifs
  · dsimp only
    have hitem : ∀ key value,
        JsonValue.member key ((v.issuing issuer audience).claimsDict lib claims) = some value →
          getItem key (.ofValue ((v.issuing issuer audience).payload lib claims))
            = .ok (.ofValue value) := fun _ _ h => getItem_payload lib h
    rw [hitem "cid" (.str claims.clientId) rfl, hitem "tenant_id" (.str claims.tenantId.str) rfl,
      hitem "membership_id" (.str claims.membershipId.str) rfl,
      hitem "credential_id" (.str claims.credentialId.str) rfl]
    dsimp only [except_ok_bind, ScannedJson.ofValue, strOf]
    rw [modelText_ofString, modelText_ofString, modelText_ofString, modelText_ofString,
      modelText_ofString]
    rfl
  · rfl

/-- One without is not accepted, and raises if its text nests too deep. -/
theorem verifyToken_unsigned {now : DateTime} {token : String}
    (h : sha256Hexdigest token ∉ v.revoked) (hunsigned : ∀ encoded, ¬v.IsSigned token encoded) :
    (TooDeep lib token ∧ v.verifyToken lib now token = .error .recursionError) ∨
      ¬TooDeep lib token ∧ v.verifyToken lib now token = .ok none := by
  unfold verifyToken
  rw [if_neg h]
  rcases v.readClaims_unsigned lib hunsigned with ⟨hdeep, hread⟩ | ⟨hdeep, hread | ⟨e, he, hread⟩⟩
  · refine .inl ⟨hdeep, ?_⟩
    rw [hread]
    rfl
  · refine .inr ⟨hdeep, ?_⟩
    rw [hread]
  · refine .inr ⟨hdeep, ?_⟩
    rw [hread]
    exact if_pos he

/-- The principal that comes of claims. -/
def principalOf (claims : Claims) (expiresAt : DateTime) : Principal where
  subjectId := claims.subject
  tenantId := claims.tenantId
  membershipId := claims.membershipId
  scopes := claims.scopes
  credentialId := claims.credentialId
  authMethod := "local-development"
  expiresAt := expiresAt

/-- What was made of the claims makes the principal of the claims. -/
theorem readPrincipal_accessTokenOf (token : String) (claims : Claims) :
    readPrincipal lib (v.accessTokenOf lib token claims) =
      (fromTimestamp lib (timestamp lib claims.expiresAt)).map (principalOf claims) := by
  obtain ⟨list, htexts, hlist⟩ := sortedScopes_eq claims.scopes
  have hscopes : (sortedScopes claims.scopes).mapM (fun item : String =>
      match Scope.ofValue item with
      | none => Except.error Raised.valueError
      | some scope => .ok scope) = .ok list := by
    rw [htexts]
    clear htexts hlist
    induction list with
    | nil => rfl
    | cons scope list ih =>
      rw [List.map_cons, List.mapM_cons, ofValue_value, ih]
      rfl
  unfold readPrincipal accessTokenOf
  dsimp only
  rw [uuidOf_str, uuidOf_str, uuidOf_str, uuidOf_str, hscopes]
  dsimp only [except_ok_bind]
  cases fromTimestamp lib (timestamp lib claims.expiresAt) with
  | error e => rfl
  | ok expires =>
    rw [hlist]
    rfl

/-- So it does with the exceptions translated, as long as the expiry is in the calendar. -/
theorem principalFromAccessToken_accessTokenOf {token : String} {claims : Claims} {p : Principal} :
    principalFromAccessToken lib (v.accessTokenOf lib token claims) = .ok p ↔
      ∃ expires, fromTimestamp lib (timestamp lib claims.expiresAt) = .ok expires ∧
        p = principalOf claims expires := by
  unfold principalFromAccessToken
  rw [readPrincipal_accessTokenOf]
  cases fromTimestamp lib (timestamp lib claims.expiresAt) with
  | error e => simp [Except.map]
  | ok expires => simp [Except.map, eq_comm]

/-- A token that is accepted makes no principal that has expired by then. -/
theorem isExpired_eq_false {now expires : DateTime} {claims : Claims}
    (hnow : now.offset = some 0)
    (hlt : timestamp lib now < timestamp lib claims.expiresAt)
    (hexpires : fromTimestamp lib (timestamp lib claims.expiresAt) = .ok expires) :
    (principalOf claims expires).isExpired now = false := by
  have hseconds := lib.secondsOf_mem _ (natAbs_microsOf_lt lib now)
  have hmicros : microsOf lib now = now.instant - epochMicros := by
    unfold microsOf DateTime.instant
    rw [hnow]
    rfl
  have hinstant : expires.instant = epochMicros + timestamp lib claims.expiresAt * 1000000 := by
    unfold fromTimestamp at hexpires
    split_ifs at hexpires
    obtain rfl := Except.ok.inj hexpires
    exact Int.sub_zero _
  unfold timestamp at hlt hinstant
  refine decide_eq_false fun hle => ?_
  change expires.instant ≤ now.instant at hle
  omega

/-! ## Runs -/

/-- What happens: somebody who holds the secret issues a token, or a token is revoked. -/
inductive TokenEvent
  | issue (issuer audience : String) (claims : Claims)
  | revoke (token : String)

/-- The verifier after an event. -/
def step (v : LocalDevelopmentTokenVerifier) : TokenEvent → LocalDevelopmentTokenVerifier
  | .issue _ _ _ => v
  | .revoke token => v.revoke token

/-- The verifier after a run. -/
def run (v : LocalDevelopmentTokenVerifier) (events : List TokenEvent) :
    LocalDevelopmentTokenVerifier := events.foldl step v

/-- The texts that have been signed in a run. -/
def signedIn (v : LocalDevelopmentTokenVerifier) (events : List TokenEvent) : Set String :=
  { encoded | ∃ issuer audience claims, .issue issuer audience claims ∈ events ∧
    encoded = (v.issuing issuer audience).encodedOf lib claims }

/-- The text that a token shows a tag of. -/
def messagesOf (token : String) : Set String :=
  { encoded | ∃ version signature, partsOf token = [version, encoded, signature] }

/-- The tag that a token shows. -/
def presentedIn (token : String) : Set String :=
  { signature | ∃ version encoded, partsOf token = [version, encoded, signature] }

/-- A run changes the list and nothing else. -/
theorem run_eq (events : List TokenEvent) :
    v.run events = { v with revoked := (v.run events).revoked } := by
  induction events generalizing v with
  | nil => rfl
  | cons event events ih =>
    cases event with
    | issue issuer audience claims => exact ih
    | revoke token => exact ih

/-- One revocation adds one hash to the list. -/
theorem mem_revoked_step {event : TokenEvent} {hash : String} :
    hash ∈ (v.step event).revoked ↔
      hash ∈ v.revoked ∨ ∃ t, event = .revoke t ∧ sha256Hexdigest t = hash := by
  cases event with
  | issue issuer audience claims => simp [step]
  | revoke token =>
    simp only [step, revoke, Finset.mem_insert, TokenEvent.revoke.injEq, exists_eq_left']
    rw [or_comm, eq_comm]

/-- Nothing is taken off the list. -/
theorem mem_revoked_run {events : List TokenEvent} {hash : String} :
    hash ∈ (v.run events).revoked ↔
      hash ∈ v.revoked ∨ ∃ t, .revoke t ∈ events ∧ sha256Hexdigest t = hash := by
  induction events generalizing v with
  | nil => simp [run]
  | cons event events ih =>
    show hash ∈ ((v.step event).run events).revoked ↔ _
    rw [ih, mem_revoked_step]
    constructor
    · rintro ((hv | ⟨t, rfl, ht⟩) | ⟨t, hin, ht⟩)
      · exact .inl hv
      · exact .inr ⟨t, List.mem_cons_self, ht⟩
      · exact .inr ⟨t, List.mem_cons_of_mem _ hin, ht⟩
    · rintro (hv | ⟨t, hin, ht⟩)
      · exact .inl (.inl hv)
      · rcases List.mem_cons.mp hin with hevent | hin
        · exact .inl (.inr ⟨t, hevent.symm, ht⟩)
        · exact .inr ⟨t, hin, ht⟩

section

variable {events : List TokenEvent} {now : DateTime} {token : String}

/-- A token with the right tag was signed in the run. -/
theorem exists_issue_of_isSigned {encoded : String}
    (htag : IdealTag v.signatureOf (messagesOf token) (presentedIn token) (v.signedIn lib events))
    (hsigned : v.IsSigned token encoded) :
    ∃ issuer audience claims, .issue issuer audience claims ∈ events ∧
      v.IsSigned token ((v.issuing issuer audience).encodedOf lib claims) := by
  obtain ⟨issuer, audience, claims, hin, hencoded⟩ := htag.unforgeable encoded
    ⟨_, _, hsigned⟩ ⟨_, _, hsigned⟩
  exact ⟨issuer, audience, claims, hin, hencoded ▸ hsigned⟩

/-- A token signed over the claims of this verifier is the token that `issue` returned. -/
theorem isSigned_iff_eq_issue {claims : Claims} :
    v.IsSigned token (v.encodedOf lib claims) ↔ token = v.issue lib claims := by
  constructor
  · intro h
    rw [eq_of_partsOf h]
    rfl
  · rintro rfl
    exact partsOf_issue lib claims

/-- What becomes of a token that is on no list: only one that was issued is accepted, and only one
whose text nests too deep raises. -/
theorem verifyToken_of_live {w : LocalDevelopmentTokenVerifier}
    (hrun : w = { v with revoked := w.revoked }) (hlive : sha256Hexdigest token ∉ w.revoked)
    (htag : IdealTag v.signatureOf (messagesOf token) (presentedIn token) (v.signedIn lib events)) :
    (TooDeep lib token ∧ w.verifyToken lib now token = .error .recursionError) ∨
      ¬TooDeep lib token ∧ (w.verifyToken lib now token = .ok none ∨
        ∃ claims, .issue v.issuer v.audience claims ∈ events ∧ token = v.issue lib claims ∧
          timestamp lib now < timestamp lib claims.expiresAt ∧
          w.verifyToken lib now token = .ok (some (w.accessTokenOf lib token claims))) := by
  by_cases hsigned : ∃ encoded, w.IsSigned token encoded
  · obtain ⟨encoded, hsigned⟩ := hsigned
    have hsigned' : v.IsSigned token encoded := by
      rw [hrun] at hsigned
      exact hsigned
    obtain ⟨issuer, audience, claims, hin, hissue⟩ := exists_issue_of_isSigned lib htag hsigned'
    have hverified : w.verifyToken lib now token = _ := verifyToken_signed lib hlive (by
      rw [hrun]
      exact hissue)
    refine .inr ⟨?_, ?_⟩
    · -- What was issued reads back, so it does not nest too deep.
      rintro ⟨version, text, signature, hparts, hload⟩
      have hsame := hissue.symm.trans hparts
      simp only [List.cons.injEq] at hsame
      rw [← hsame.2.1, loadPayload_encodedOf] at hload
      cases hload
    · split_ifs at hverified with hconditions
      · obtain ⟨hissuer, haudience, hlt⟩ := hconditions
        rw [hrun] at hissuer haudience
        subst hissuer haudience
        exact .inr ⟨claims, hin, (isSigned_iff_eq_issue lib).mp hissue, hlt, hverified⟩
      · exact .inl hverified
  · rw [not_exists] at hsigned
    exact (w.verifyToken_unsigned lib hlive hsigned).imp id fun h => ⟨h.1, .inl h.2⟩

/-- A verifier that is new has listed after a run what was revoked in it. -/
theorem notMem_revoked_run (hnew : v.revoked = ∅) :
    sha256Hexdigest token ∉ (v.run events).revoked ↔
      ∀ t, .revoke t ∈ events → sha256Hexdigest t ≠ sha256Hexdigest token := by
  rw [mem_revoked_run, hnew]
  simp

/-- What is accepted after a run of a new verifier was issued in it, is on no list and has not
expired. -/
theorem issued_of_verifyToken (hnew : v.revoked = ∅)
    (htag : IdealTag v.signatureOf (messagesOf token) (presentedIn token) (v.signedIn lib events))
    {a : AccessToken} (h : (v.run events).verifyToken lib now token = .ok (some a)) :
    ∃ claims, .issue v.issuer v.audience claims ∈ events ∧ token = v.issue lib claims ∧
      (∀ t, .revoke t ∈ events → sha256Hexdigest t ≠ sha256Hexdigest token) ∧
      timestamp lib now < timestamp lib claims.expiresAt ∧
      a = (v.run events).accessTokenOf lib token claims := by
  have hrun := run_eq (v := v) events
  rw [← notMem_revoked_run hnew]
  generalize v.run events = w at hrun h ⊢
  have hlive : sha256Hexdigest token ∉ w.revoked := by
    intro hin
    rw [verifyToken_of_revoked lib hin] at h
    cases h
  rcases verifyToken_of_live lib hrun hlive htag with
    ⟨-, hraised⟩ | ⟨-, hnone | ⟨claims, hin, htoken, hlt, hsome⟩⟩
  · rw [hraised] at h
    cases h
  · rw [hnone] at h
    cases h
  · rw [hsome] at h
    exact ⟨claims, hin, htoken, hlive, hlt, (Option.some.inj (Except.ok.inj h)).symm⟩

/-- For a text that encodes, only its depth counts: it is read before the tag is compared. -/
theorem error_iff_of_encodes (hnew : v.revoked = ∅)
    (htag : IdealTag v.signatureOf (messagesOf token) (presentedIn token) (v.signedIn lib events))
    (e : Raised) :
    (v.run events).verifyToken lib now token = .error e ↔
      e = .recursionError ∧ TooDeep lib token ∧
        ∀ t, .revoke t ∈ events → sha256Hexdigest t ≠ sha256Hexdigest token := by
  have hrun := run_eq (v := v) events
  rw [← notMem_revoked_run hnew]
  generalize v.run events = w at hrun ⊢
  by_cases hlive : sha256Hexdigest token ∈ w.revoked
  · rw [verifyToken_of_revoked lib hlive]
    exact iff_of_false nofun fun h => h.2.2 hlive
  · rcases verifyToken_of_live lib hrun hlive htag with
      ⟨hdeep, h⟩ | ⟨hdeep, h | ⟨claims, -, -, -, h⟩⟩
    · rw [h]
      constructor
      · intro heq
        exact ⟨(Except.error.inj heq).symm, hdeep, hlive⟩
      · rintro ⟨rfl, -⟩
        rfl
    · rw [h]
      exact iff_of_false nofun fun hraised => hdeep hraised.2.1
    · rw [h]
      exact iff_of_false nofun fun hraised => hdeep hraised.2.1

/-- The signer is the only source of the tag of what it has issued. -/
theorem idealTag_issue {claims : Claims} (hin : .issue v.issuer v.audience claims ∈ events) :
    IdealTag v.signatureOf (messagesOf (v.issue lib claims)) (presentedIn (v.issue lib claims))
      (v.signedIn lib events) := by
  have honly : ∀ m ∈ messagesOf (v.issue lib claims), m = v.encodedOf lib claims := by
    rintro m ⟨version, signature, hparts⟩
    rw [partsOf_issue] at hparts
    simp only [List.cons.injEq] at hparts
    exact hparts.2.1.symm
  constructor
  · intro m hm m' hm' _
    rw [honly m hm, honly m' hm']
  · intro m hm _
    exact ⟨v.issuer, v.audience, claims, hin, honly m hm⟩

/-! ### One token -/

/-- An interpreter in UTC. -/
def utcInterpreter : Interpreter where
  parseUuid := readUuid
  intOfText := String.toInt?
  intOfFloat _ := .error .overflowError
  strOf
    | .null => "None"
    | .bool b => if b then "True" else "False"
    | .int n => toString n
    | .float literal => literal
    | _ => ""
  decodeJson bytes := (Cloud.decodeText bytes).map .ofString
  limits := { nesting := 1000, digits := 4300 }
  localOffset _ := 0
  secondsOf micros := if 0 ≤ micros then micros / 1000000 else -(-micros / 1000000)
  outOfRange _ := .valueError
  parseUuid_str := Worker.readUuid_str
  decodeJson_printable s _ := by rw [Cloud.decodeText_encodeText, Option.map_some]
  nesting_le := by decide
  digits_le := by decide
  localOffset_lt _ := by decide
  secondsOf_mem micros _ := by
    split_ifs <;> omega

/-- A verifier that is new. -/
def newVerifier : LocalDevelopmentTokenVerifier where
  secret := [7]
  issuer := "https://issuer.test"
  audience := "memory"

/-- A reader, until two o'clock. -/
def readerClaims : Claims where
  subject := ⟨1⟩
  tenantId := ⟨2⟩
  membershipId := ⟨3⟩
  credentialId := ⟨4⟩
  scopes := {.memoryRead}
  expiresAt := Admin.atHour 2

/-- After any run, a token is accepted, and made a principal of, exactly if it is a token that was
issued for the issuer and the audience of the verifier, its hash is the hash of no revoked token and
its time is not over. The principal is then the one of the claims, and has not expired. -/
theorem authenticated_iff_issued (hnew : v.revoked = ∅) (hnow : now.offset = some 0)
    (htag : IdealTag v.signatureOf (messagesOf token) (presentedIn token) (v.signedIn lib events))
    (p : Principal) :
    (∃ a, (v.run events).verifyToken lib now token = .ok (some a) ∧
        principalFromAccessToken lib a = .ok p) ↔
      ∃ claims expires, .issue v.issuer v.audience claims ∈ events ∧ token = v.issue lib claims ∧
        (∀ t, .revoke t ∈ events → sha256Hexdigest t ≠ sha256Hexdigest token) ∧
        timestamp lib now < timestamp lib claims.expiresAt ∧
        fromTimestamp lib (timestamp lib claims.expiresAt) = .ok expires ∧
        p = principalOf claims expires ∧ p.isExpired now = false := by
  constructor
  · rintro ⟨a, hverify, hprincipal⟩
    obtain ⟨claims, hin, htoken, hlive, hlt, rfl⟩ := issued_of_verifyToken lib hnew htag hverify
    obtain ⟨expires, hexpires, rfl⟩ := (principalFromAccessToken_accessTokenOf lib).mp hprincipal
    exact ⟨claims, expires, hin, htoken, hlive, hlt, hexpires, rfl,
      isExpired_eq_false lib hnow hlt hexpires⟩
  · rintro ⟨claims, expires, -, htoken, hlive, hlt, hexpires, hp, -⟩
    have hrun := run_eq (v := v) events
    rw [← notMem_revoked_run hnew] at hlive
    generalize v.run events = w at hrun hlive ⊢
    refine ⟨w.accessTokenOf lib token claims, ?_,
      (principalFromAccessToken_accessTokenOf lib).mpr ⟨expires, hexpires, hp⟩⟩
    have hsigned : w.IsSigned token ((w.issuing v.issuer v.audience).encodedOf lib claims) := by
      rw [hrun]
      exact (isSigned_iff_eq_issue lib).mpr htoken
    rw [verifyToken_signed lib hlive hsigned, if_pos]
    rw [hrun]
    exact ⟨rfl, rfl, hlt⟩

/-- The token of a reader is accepted an hour before it expires. -/
theorem reader_authenticated :
    ∃ a, (newVerifier.run [.issue "https://issuer.test" "memory" readerClaims]).verifyToken
        utcInterpreter (Admin.atHour 1) (newVerifier.issue utcInterpreter readerClaims) =
          .ok (some a) ∧
      principalFromAccessToken utcInterpreter a = .ok (principalOf readerClaims (Admin.atHour 2)) :=
  (authenticated_iff_issued utcInterpreter rfl rfl
    (idealTag_issue utcInterpreter List.mem_cons_self) _).mpr
    ⟨readerClaims, Admin.atHour 2, List.mem_cons_self, rfl, by simp, by decide, rfl, rfl, by decide⟩

/-- After any run, an exception gets out of `verify_token` exactly for a text that does not encode,
and for a token that is on no list and whose text nests deeper than the interpreter reads: the text
is hashed before the `try` block, and it is read before the tag is compared. -/
theorem verifyToken_error_iff (hnew : v.revoked = ∅) (text : CodePoints)
    (htag : ∀ token, text.toString? = some token →
      IdealTag v.signatureOf (messagesOf token) (presentedIn token) (v.signedIn lib events))
    (e : Raised) :
    (v.run events).verifyText lib now text = .error e ↔
      (e = .unicodeEncodeError ∧ text.toString? = none) ∨
        e = .recursionError ∧ ∃ token, text.toString? = some token ∧ TooDeep lib token ∧
          ∀ t, .revoke t ∈ events → sha256Hexdigest t ≠ sha256Hexdigest token := by
  unfold verifyText
  cases htext : text.toString? with
  | none => simp [eq_comm]
  | some token =>
    simp only [reduceCtorEq, and_false, false_or, Option.some.injEq, exists_eq_left']
    exact error_iff_of_encodes lib hnew (htag token htext) e

/-- Once revoked, it raises nothing. -/
theorem revoked_reader_raises_nothing :
    (newVerifier.run [.issue "https://issuer.test" "memory" readerClaims,
        .revoke (newVerifier.issue utcInterpreter readerClaims)]).verifyText utcInterpreter
      (Admin.atHour 1) (.ofString (newVerifier.issue utcInterpreter readerClaims)) ≠
        .error .recursionError := by
  intro hraised
  have htag : ∀ token, (CodePoints.ofString
      (newVerifier.issue utcInterpreter readerClaims)).toString? = some token →
        IdealTag newVerifier.signatureOf (messagesOf token) (presentedIn token)
          (newVerifier.signedIn utcInterpreter
            [.issue "https://issuer.test" "memory" readerClaims,
              .revoke (newVerifier.issue utcInterpreter readerClaims)]) := by
    intro token htoken
    rw [CodePoints.toString?_ofString] at htoken
    obtain rfl := Option.some.inj htoken
    exact idealTag_issue utcInterpreter List.mem_cons_self
  rcases (verifyToken_error_iff utcInterpreter rfl _ htag _).mp hraised with
    ⟨hencode, -⟩ | ⟨-, token, htoken, -, hlive⟩
  · cases hencode
  · rw [CodePoints.toString?_ofString] at htoken
    obtain rfl := Option.some.inj htoken
    exact hlive _ (List.mem_cons_of_mem _ List.mem_cons_self) rfl

end

end LocalDevelopmentTokenVerifier

end OpenMemory.Server
