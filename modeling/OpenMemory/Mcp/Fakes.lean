import OpenMemory.Cloud.EncryptedMemory
import OpenMemory.Lib.Text
import OpenMemory.Mcp.Schemas

/-!
# The local service fake (`adapters/mcp/fakes.py`)

`InMemoryMemoryService` is the harness behind the SDK's local transport. Its records are plain dicts:
`write` builds them, `update` assigns to their keys, and `import_records` takes over any list of
dicts that have ids. So a store is any dict of dicts, and a search may meet a record that lacks a key
or holds another type there. Of the state only the records are embedded; a search reads nothing else.

`InMemoryMemoryService.search_ok` says what a search returns, over every store.
-/

namespace OpenMemory.Mcp

open Lib
open Cloud (PyObj PyDict)

variable {R : Type} [Python R]

/-- What the service raises on a record. -/
inductive FakeError
  | keyError (key : String)
  | typeError
  | attributeError
  deriving DecidableEq

/-- `InMemoryMemoryService`. -/
structure InMemoryMemoryService (R : Type) where
  records : Dict String (PyDict R) := ∅

/-! ## Tokens -/

/-- `_tokens`. -/
def tokens (unicode : UnicodeDatabase) (value : String) : Finset String :=
  (findall (fun c => decide ('a' ≤ c ∧ c ≤ 'z') || decide ('0' ≤ c ∧ c ≤ '9') ||
    decide ('À' ≤ c ∧ c ≤ 'ÿ')) (unicode.casefold value)).toFinset

/-- `aliases.get(token, set())`. -/
def aliases (token : String) : Finset String :=
  if token = "gtm" then
    {"go", "to", "market", "strategy", "acquisition", "geographic", "density", "region"}
  else if token = "marketplace" then {"marketplace", "network", "density", "geographic", "region"}
  else if token = "city" then {"geographic", "region", "density"}
  else ∅

/-- `expanded`: the tokens and their aliases. -/
def expanded (queryTokens : Finset String) : Finset String :=
  queryTokens ∪ queryTokens.biUnion aliases

/-! ## Search -/

/-- `record[key]`, where only a text counts. -/
def itemText (record : PyDict R) (key : String) : Except FakeError (Option String) :=
  if (record.get key).isNone then .error (.keyError key) else .ok (record.getText key)

/-- An object as a factor of a float. -/
def factor : PyObj R → Except FakeError R
  | .int n => .ok (Python.ofInt n)
  | .bool b => .ok (Python.ofInt (if b then 1 else 0))
  | .float x => .ok x
  | _ => .error .typeError

/-- `payload.get("type") is not None and record["type"] != payload["type"]`. -/
def hasOtherType (request : SearchRequest R) (record : PyDict R) : Except FakeError Bool :=
  match request.type with
  | none => .ok false
  | some type => (itemText record "type").map fun text => decide (text ≠ some type.value)

/-- The score of a record, `none` where it is no match or not relevant enough. -/
def relevance (unicode : UnicodeDatabase) (request : SearchRequest R) (record : PyDict R) :
    Except FakeError (Option R) :=
  match record.get "content" with
  | none => .error (.keyError "content")
  | some (.str content) =>
    let queryTokens := tokens unicode request.query.val
    let contentTokens := tokens unicode content
    let direct := (queryTokens ∩ contentTokens).card
    let conceptual := ((expanded queryTokens \ queryTokens) ∩ contentTokens).card
    if direct = 0 ∧ conceptual = 0 then .ok none
    else
      match record.get "importance" with
      | none => .error (.keyError "importance")
      | some importance => do
        let importance ← factor importance
        let score := Python.min (Python.ofInt 1)
          (Python.add
            (Python.add
              (Python.add (Python.decimal 65 2) (Python.mul (Python.ofInt direct) (Python.decimal 1 1)))
              (Python.mul (Python.ofInt conceptual) (Python.decimal 8 2)))
            (Python.mul importance (Python.decimal 1 1)))
        if Python.lt score request.minRelevance.val then pure none else pure (some score)
  | some _ => .error .attributeError

/-- An element of the result. -/
structure FakeHit (R : Type) where
  memory : PyDict R
  score : R

/-- The body of the loop over the records. -/
def hitOf (unicode : UnicodeDatabase) (request : SearchRequest R) (record : PyDict R) :
    Except FakeError (Option (FakeHit R)) := do
  let owner ← itemText record "owner_id"
  if owner ≠ some request.ownerId.val then pure none
  else
    let state ← itemText record "state"
    if state ≠ some request.wantedState then pure none
    else if someAnd
        (fun space : Text 1 128 => decide (record.getText "space" ≠ some space.val)) request.space then
      pure none
    else
      let other ← hasOtherType request record
      if other then pure none
      else
        let score ← relevance unicode request record
        pure (score.map fun score => { memory := record, score := Python.round6 score })

/-- The loop over the records. -/
def hitsOf (unicode : UnicodeDatabase) (request : SearchRequest R) :
    List (PyDict R) → Except FakeError (List (FakeHit R))
  | [] => pure []
  | record :: rest => do
    let here ← hitOf unicode request record
    let more ← hitsOf unicode request rest
    pure (here.toList ++ more)

/-- `a < b` for two values of `created_at` whose scores are equal: texts by code points, numbers by
size, two `None` are equal; anything else does not compare. -/
def createdBefore : PyObj R → PyObj R → Except FakeError Bool
  | .str a, .str b => .ok (decide (a < b))
  | .none, .none => .ok false
  | a, b => do
    let x ← factor a
    let y ← factor b
    pure (Python.lt x y)

/-- `<` on the sort keys `(-item["score"], item["memory"]["created_at"])`. -/
def keyLt (a b : FakeHit R × PyObj R) : Except FakeError Bool :=
  if Python.numEq a.1.score b.1.score then createdBefore a.2 b.2
  else .ok (Python.lt b.1.score a.1.score)

/-- Insert before the first element that is not smaller: equal keys keep their order. -/
def insertHit (hit : FakeHit R × PyObj R) :
    List (FakeHit R × PyObj R) → Except FakeError (List (FakeHit R × PyObj R))
  | [] => pure [hit]
  | first :: rest => do
    let before ← keyLt first hit
    if before then
      let rest ← insertHit hit rest
      pure (first :: rest)
    else pure (hit :: first :: rest)

def sortKeyed : List (FakeHit R × PyObj R) → Except FakeError (List (FakeHit R × PyObj R))
  | [] => pure []
  | hit :: rest => do
    let rest ← sortKeyed rest
    insertHit hit rest

/-- The hit with its sort key. -/
def keyed (hit : FakeHit R) : Except FakeError (FakeHit R × PyObj R) :=
  match hit.memory.get "created_at" with
  | none => .error (.keyError "created_at")
  | some created => .ok (hit, created)

/-- `results.sort(key=…)`: every key is computed, then the results are put in order. -/
def sortHits (hits : List (FakeHit R)) : Except FakeError (List (FakeHit R)) := do
  let hits ← hits.mapM keyed
  let sorted ← sortKeyed hits
  pure (sorted.map Prod.fst)

namespace InMemoryMemoryService

/-- `search`. -/
def search (unicode : UnicodeDatabase) (request : SearchRequest R) (s : InMemoryMemoryService R) :
    Except FakeError (List (FakeHit R)) := do
  let hits ← hitsOf unicode request s.records.values
  let results ← sortHits hits
  pure (results.take request.limit.val.toNat)

end InMemoryMemoryService

/-! ## What a search returns -/

/-- The filters of a request, on a record. -/
structure Selects (request : SearchRequest R) (record : PyDict R) : Prop where
  owner : record.getText "owner_id" = some request.ownerId.val
  state : record.getText "state" = some request.wantedState
  space : ∀ space, request.space = some space → record.getText "space" = some space.val
  type : ∀ type, request.type = some type → record.getText "type" = some type.value

omit [Python R] in
theorem itemText_ok {record : PyDict R} {key : String} {text : Option String}
    (h : itemText record key = .ok text) : record.getText key = text := by
  unfold itemText at h
  split at h
  · cases h
  · exact Except.ok.inj h

theorem hasOtherType_ok {request : SearchRequest R} {record : PyDict R}
    (h : hasOtherType request record = .ok false) {type : WireType} (htype : request.type = some type) :
    record.getText "type" = some type.value := by
  unfold hasOtherType at h
  rw [htype] at h
  dsimp only at h
  cases hitem : itemText record "type" with
  | error e =>
    rw [hitem] at h
    cases h
  | ok text =>
    rw [hitem] at h
    have hsame : decide (text ≠ some type.value) = false := Except.ok.inj h
    rw [itemText_ok hitem]
    simpa using hsame

/-- A record that becomes a hit passes the filters. -/
theorem hitOf_ok {unicode : UnicodeDatabase} {request : SearchRequest R} {record : PyDict R}
    {hit : FakeHit R} (h : hitOf unicode request record = .ok (some hit)) :
    hit.memory = record ∧ Selects request record := by
  unfold hitOf at h
  obtain ⟨owner, howner, h₁⟩ := except_bind_ok.mp h
  split at h₁
  · cases h₁
  rename_i hsameOwner
  obtain ⟨state, hstate, h₂⟩ := except_bind_ok.mp h₁
  split at h₂
  · cases h₂
  rename_i hsameState
  split at h₂
  · cases h₂
  rename_i hspace
  obtain ⟨other, hother, h₃⟩ := except_bind_ok.mp h₂
  split at h₃
  · cases h₃
  rename_i htype
  obtain ⟨score, -, h₄⟩ := except_bind_ok.mp h₃
  have hscored : score.map (fun score => ({ memory := record, score := Python.round6 score } :
      FakeHit R)) = some hit := Except.ok.inj h₄
  obtain ⟨x, -, rfl⟩ := Option.map_eq_some_iff.mp hscored
  refine ⟨rfl, ⟨?_, ?_, ?_, ?_⟩⟩
  · rw [itemText_ok howner]
    exact not_not.mp hsameOwner
  · rw [itemText_ok hstate]
    exact not_not.mp hsameState
  · intro space hgiven
    rw [hgiven] at hspace
    simpa [someAnd] using hspace
  · intro type hgiven
    obtain rfl : other = false := by simpa using htype
    exact hasOtherType_ok hother hgiven

theorem hitsOf_ok {unicode : UnicodeDatabase} {request : SearchRequest R} {records : List (PyDict R)}
    {hits : List (FakeHit R)} (h : hitsOf unicode request records = .ok hits) {hit : FakeHit R}
    (hhit : hit ∈ hits) : hit.memory ∈ records ∧ Selects request hit.memory := by
  induction records generalizing hits with
  | nil =>
    cases h
    cases hhit
  | cons record rest ih =>
    simp only [hitsOf, except_bind_ok, except_pure_ok] at h
    obtain ⟨here, hhere, more, hmore, rfl⟩ := h
    rcases List.mem_append.mp hhit with hhit | hhit
    · obtain rfl : here = some hit := by simpa using hhit
      obtain ⟨rfl, hselects⟩ := hitOf_ok hhere
      exact ⟨List.mem_cons_self, hselects⟩
    · obtain ⟨hmem, hselects⟩ := ih hmore hhit
      exact ⟨List.mem_cons_of_mem _ hmem, hselects⟩

/-- Sorting adds nothing, whatever the comparisons say. -/
theorem mem_of_insertHit {hit : FakeHit R × PyObj R} {hits sorted : List (FakeHit R × PyObj R)}
    (h : insertHit hit hits = .ok sorted) {x : FakeHit R × PyObj R} (hx : x ∈ sorted) :
    x ∈ hit :: hits := by
  induction hits generalizing sorted with
  | nil =>
    cases h
    exact hx
  | cons first rest ih =>
    simp only [insertHit, except_bind_ok] at h
    obtain ⟨before, -, h₁⟩ := h
    split at h₁
    · simp only [except_bind_ok, except_pure_ok] at h₁
      obtain ⟨rest', hrest, rfl⟩ := h₁
      rcases List.mem_cons.mp hx with rfl | hx
      · exact List.mem_cons_of_mem _ List.mem_cons_self
      · rcases List.mem_cons.mp (ih hrest hx) with rfl | hx
        · exact List.mem_cons_self
        · exact List.mem_cons_of_mem _ (List.mem_cons_of_mem _ hx)
    · cases h₁
      exact hx

theorem mem_of_sortKeyed {hits sorted : List (FakeHit R × PyObj R)} (h : sortKeyed hits = .ok sorted)
    {x : FakeHit R × PyObj R} (hx : x ∈ sorted) : x ∈ hits := by
  induction hits generalizing sorted with
  | nil =>
    cases h
    exact hx
  | cons hit rest ih =>
    simp only [sortKeyed, except_bind_ok] at h
    obtain ⟨rest', hrest, hinsert⟩ := h
    rcases List.mem_cons.mp (mem_of_insertHit hinsert hx) with rfl | hx
    · exact List.mem_cons_self
    · exact List.mem_cons_of_mem _ (ih hrest hx)

omit [Python R] in
theorem keyed_ok {hit : FakeHit R} {p : FakeHit R × PyObj R} (h : keyed hit = .ok p) :
    p.1 = hit := by
  unfold keyed at h
  split at h
  · cases h
  · cases h
    rfl

theorem mem_of_sortHits {hits sorted : List (FakeHit R)} (h : sortHits hits = .ok sorted)
    {hit : FakeHit R} (hhit : hit ∈ sorted) : hit ∈ hits := by
  simp only [sortHits, except_bind_ok, except_pure_ok] at h
  obtain ⟨pairs, hpairs, sortedPairs, hsorted, rfl⟩ := h
  obtain ⟨p, hp, rfl⟩ := List.mem_map.mp hhit
  obtain ⟨hit, hmem, hkey⟩ := mem_of_mapM_ok hpairs (mem_of_sortKeyed hsorted hp)
  rw [keyed_ok hkey]
  exact hmem

/-- A search that returns: every hit is a stored record that passes the filters, and there are at
most as many as were asked for. -/
theorem InMemoryMemoryService.search_ok {unicode : UnicodeDatabase} {request : SearchRequest R}
    {s : InMemoryMemoryService R} {hits : List (FakeHit R)}
    (h : s.search unicode request = .ok hits) :
    (hits.length : Int) ≤ request.limit.val ∧
      ∀ hit ∈ hits, hit.memory ∈ s.records.values ∧ Selects request hit.memory := by
  simp only [search, except_bind_ok, except_pure_ok] at h
  obtain ⟨found, hfound, results, hresults, rfl⟩ := h
  refine ⟨request.length_take_le_limit results, fun hit hhit => ?_⟩
  exact hitsOf_ok hfound (mem_of_sortHits hresults (List.mem_of_mem_take hhit))

end OpenMemory.Mcp
