import OpenMemory.Cloud.Reembedding
import OpenMemory.Domain.Clock
import OpenMemory.Worker.Library

/-!
# The local worker (`cloud/worker.py`, and `WorkerEnvelope` of `cloud/security.py`)

A `LocalTenantWorker` keeps jobs under their ids and two indexes: the job of a tenant's dedupe key
and the job of a tenant's nonce. `enqueue` verifies an envelope and registers its job, `run_one`
verifies it again and awaits a handler, `snapshot` and `restore` carry the jobs over a restart.

- `run_one` is cut at its await: `LocalJob.start` is what happens before the handler runs,
  `LocalJob.settle` what happens with its outcome. A handler returns a state or raises.
- A snapshot is a list of dicts of arbitrary objects. `restore` reads the clock once for each item:
  `now k` is the reading for the item at position `k`.
- What an operation has not assigned when it raises stays as it was; only `run_one` assigns before
  something can raise, and it catches everything.
-/

namespace OpenMemory.Cloud

/-- The text of a state. -/
def JobState.value : JobState → String
  | pending => "pending"
  | ready => "ready"
  | stale => "stale"
  | failed => "failed"
  | deadLetter => "dead_letter"

/-- `JobState(text)`. -/
def JobState.ofValue (text : String) : Option JobState :=
  [pending, ready, stale, failed, deadLetter].find? fun s => s.value = text

theorem JobState.ofValue_value (s : JobState) : ofValue s.value = some s := by
  cases s <;> decide

/-- `state in {READY, STALE, DEAD_LETTER}`. -/
def JobState.isTerminal : JobState → Bool
  | ready => true
  | stale => true
  | deadLetter => true
  | _ => false

end OpenMemory.Cloud

namespace OpenMemory.Worker

open Lib Cloud

variable {R : Type} [WorkerLibrary R]

/-! ## Envelopes -/

structure WorkerEnvelope where
  jobId : UUID
  tenantId : UUID
  principalId : UUID
  expiresAt : DateTime
  nonce : String
  signature : String
  deriving DecidableEq

namespace WorkerEnvelope

/-- `signing_input`. -/
def signingInput (e : WorkerEnvelope) : Bytes :=
  encodeText ("|".intercalate ["umcp.job.v1", e.jobId.str, e.tenantId.str, e.principalId.str,
    e.expiresAt.isoformat, e.nonce])

/-- `sign`, of an envelope without a signature. -/
def sign (secret : Bytes) (unsigned : WorkerEnvelope) : WorkerEnvelope :=
  { unsigned with signature := hmacHexdigest secret unsigned.signingInput }

/-- `verify`. -/
def verify (secret : Bytes) (now : DateTime) (e : WorkerEnvelope) : Except CloudError Unit :=
  if e.expiresAt.offset = none ∨ e.nonce = "" ∨ 256 < e.nonce.length ∨
      e.expiresAt.instant ≤ now.instant then
    .error (.permissionError "worker envelope rejected")
  else
    match compareDigest (hmacHexdigest secret e.signingInput) e.signature with
    | none => .error .typeError
    | some same =>
      if same then .ok () else .error (.permissionError "worker envelope rejected")

end WorkerEnvelope

/-! ## Jobs -/

structure LocalJob where
  envelope : WorkerEnvelope
  dedupeKey : String
  payloadRef : String
  state : JobState := .pending
  attempts : Nat := 0
  error : Option String := none
  deriving DecidableEq

namespace LocalJob

/-- The tenant and the dedupe key. -/
def key (job : LocalJob) : UUID × String := (job.envelope.tenantId, job.dedupeKey)

/-- The tenant and the nonce. -/
def nonceKey (job : LocalJob) : UUID × String := (job.envelope.tenantId, job.envelope.nonce)

end LocalJob

/-- What a handler does: it returns a state, or raises. -/
inductive HandlerOutcome
  | returned (state : JobState)
  | raised
  deriving DecidableEq

/-- How far `run_one` gets before its await. -/
inductive Started
  | returned
  | failed (job : LocalJob)
  | awaits (job : LocalJob)

namespace LocalJob

/-- The `except` clause of `run_one`. -/
def fail (maxAttempts : Nat) (job : LocalJob) : LocalJob :=
  { job with
    state := if maxAttempts ≤ job.attempts then .deadLetter else .failed
    error := some "worker execution failed" }

/-- `run_one` up to its await. -/
def start (secret : Bytes) (maxAttempts : Nat) (now : DateTime) (job : LocalJob) : Started :=
  if job.state.isTerminal then .returned
  else
    match job.envelope.verify secret now with
    | .error _ => .failed (job.fail maxAttempts)
    | .ok () => .awaits { job with attempts := job.attempts + 1 }

/-- `run_one` after its await. -/
def settle (maxAttempts : Nat) (outcome : HandlerOutcome) (job : LocalJob) : LocalJob :=
  match outcome with
  | .raised => job.fail maxAttempts
  | .returned result =>
    if result = .ready ∨ result = .stale then { job with state := result, error := none }
    else job.fail maxAttempts

/-- `run_one` on its job, when nothing else runs at the await. -/
def runOne (secret : Bytes) (maxAttempts : Nat) (now : DateTime) (outcome : HandlerOutcome)
    (job : LocalJob) : LocalJob :=
  match job.start secret maxAttempts now with
  | .returned => job
  | .failed job' => job'
  | .awaits job' => job'.settle maxAttempts outcome

end LocalJob

/-! ## The worker -/

/-- The maps of a worker: `_jobs`, `_dedupe` and `_nonces`. -/
structure Registry where
  jobs : Dict UUID LocalJob := ∅
  dedupe : Dict (UUID × String) UUID := ∅
  nonces : Dict (UUID × String) UUID := ∅

/-- The maps with one more job in each of them. -/
def Registry.register (job : LocalJob) (r : Registry) : Registry where
  jobs := r.jobs.set job.envelope.jobId job
  dedupe := r.dedupe.set job.key job.envelope.jobId
  nonces := r.nonces.set job.nonceKey job.envelope.jobId

structure LocalTenantWorker extends Registry where
  secret : Bytes
  maxAttempts : Nat
  secret_ne_nil : secret ≠ []
  one_le_maxAttempts : 1 ≤ maxAttempts

/-- A character of an opaque reference. -/
def isRefChar (c : Char) : Bool :=
  c.isAlphanum || decide (c ∈ ['_', '.', ':', '/', '-'])

/-- `_safe_ref`. -/
def safeRef (value label : String) : Except CloudError String :=
  if value = "" ∨ 256 < value.length ∨ value.toList.all isRefChar = false then
    .error (.permissionError ("worker " ++ label ++ " is not an opaque reference"))
  else .ok value

namespace LocalTenantWorker

/-- The checks of `enqueue` on its arguments. -/
def vet (now : DateTime) (envelope : WorkerEnvelope) (dedupeKey payloadRef : String)
    (w : LocalTenantWorker) : Except CloudError LocalJob := do
  envelope.verify w.secret now
  let dedupeKey ← safeRef dedupeKey "dedupe key"
  let payloadRef ← safeRef payloadRef "payload reference"
  pure { envelope := envelope, dedupeKey := dedupeKey, payloadRef := payloadRef }

/-- The worker with other maps. -/
def install (r : Registry) (w : LocalTenantWorker) : LocalTenantWorker := { w with toRegistry := r }

/-- `enqueue`. -/
def enqueue (now : DateTime) (envelope : WorkerEnvelope) (dedupeKey payloadRef : String)
    (w : LocalTenantWorker) : Except CloudError LocalJob × LocalTenantWorker :=
  match w.vet now envelope dedupeKey payloadRef with
  | .error e => (.error e, w)
  | .ok job =>
    match w.dedupe.get? job.key with
    | some existing =>
      match w.jobs.get? existing with
      | none => (.error (.keyError existing.str), w)
      | some found => (.ok found, w)
    | none =>
      if w.nonces.contains job.nonceKey then
        (.error (.permissionError "worker nonce replay rejected"), w)
      else (.ok job, w.install (w.toRegistry.register job))

/-- The worker with another job under an id. -/
def putJob (jobId : UUID) (job : LocalJob) (w : LocalTenantWorker) : LocalTenantWorker :=
  { w with jobs := w.jobs.set jobId job }

/-- `run_one`, when nothing else runs at its await. -/
def runOne (now : DateTime) (jobId : UUID) (outcome : HandlerOutcome) (w : LocalTenantWorker) :
    Except CloudError LocalJob × LocalTenantWorker :=
  match w.jobs.get? jobId with
  | none => (.error (.keyError jobId.str), w)
  | some job =>
    let job := job.runOne w.secret w.maxAttempts now outcome
    (.ok job, w.putJob jobId job)

/-- `retryable`. -/
def retryable (w : LocalTenantWorker) : List LocalJob :=
  w.jobs.values.filter fun job => decide (job.state = .failed)

end LocalTenantWorker

/-! ## Snapshots -/

/-- The fields that the signature of an item covers. -/
def signedKeys : List String :=
  ["job_id", "tenant_id", "principal_id", "expires_at", "nonce", "signature", "dedupe_key",
    "payload_ref", "state", "attempts"]

/-- `item[key]`. -/
def itemAt (item : PyDict R) (key : String) : Except CloudError (PyObj R) :=
  match item.get key with
  | none => .error (.keyError key)
  | some value => .ok value

/-- `str(item[key])`. -/
def itemText (item : PyDict R) (key : String) : Except CloudError String :=
  (itemAt item key).map WorkerLibrary.str

/-- `_snapshot_input`. -/
def snapshotInput (item : PyDict R) : Except CloudError Bytes := do
  let values ← signedKeys.mapM fun key => (itemAt item key).map fun value => (PyKey.str key, value)
  match WorkerLibrary.dumps values with
  | none => .error .typeError
  | some text => .ok (encodeText text)

/-- The fields of an item. -/
def LocalJob.members (R : Type) (job : LocalJob) : PyDict R :=
  [(.str "job_id", .str job.envelope.jobId.str), (.str "tenant_id", .str job.envelope.tenantId.str),
    (.str "principal_id", .str job.envelope.principalId.str),
    (.str "expires_at", .str job.envelope.expiresAt.isoformat),
    (.str "nonce", .str job.envelope.nonce), (.str "signature", .str job.envelope.signature),
    (.str "dedupe_key", .str job.dedupeKey), (.str "payload_ref", .str job.payloadRef),
    (.str "state", .str job.state.value), (.str "attempts", .int job.attempts)]

/-- The item of a job. -/
def LocalJob.item (R : Type) [WorkerLibrary R] (secret : Bytes) (job : LocalJob) :
    Except CloudError (PyDict R) := do
  let message ← snapshotInput (job.members R)
  pure (job.members R ++ [(.str "snapshot_signature", .str (hmacHexdigest secret message))])

/-- `snapshot`. -/
def LocalTenantWorker.snapshot (R : Type) [WorkerLibrary R] (w : LocalTenantWorker) :
    Except CloudError (List (PyDict R)) :=
  w.jobs.values.mapM fun job => job.item R w.secret

/-! ## Restoring -/

/-- `UUID(str(item[key]))`. -/
def itemUuid (item : PyDict R) (key : String) : Except CloudError UUID := do
  let text ← itemText item key
  match WorkerLibrary.parseUuid R text with
  | none => .error (.valueError "badly formed hexadecimal UUID string")
  | some id => .ok id

/-- `datetime.fromisoformat(str(item[key]))`. -/
def itemDatetime (item : PyDict R) (key : String) : Except CloudError DateTime := do
  let text ← itemText item key
  match WorkerLibrary.fromisoformat R text with
  | none => .error (.valueError "Invalid isoformat string")
  | some value => .ok value

/-- `JobState(str(item[key]))`. -/
def itemState (item : PyDict R) (key : String) : Except CloudError JobState := do
  let text ← itemText item key
  match JobState.ofValue text with
  | none => .error (.valueError "not a valid JobState")
  | some state => .ok state

/-- `int(str(item[key]))`. -/
def itemInt (item : PyDict R) (key : String) : Except CloudError Int := do
  let text ← itemText item key
  match WorkerLibrary.int R text with
  | none => .error (.valueError "invalid literal for int() with base 10")
  | some n => .ok n

/-- The integrity check on an item. -/
def checkItem (secret : Bytes) (item : PyDict R) : Except CloudError Unit := do
  let signature ← itemText item "snapshot_signature"
  let message ← snapshotInput item
  match compareDigest signature (hmacHexdigest secret message) with
  | none => .error .typeError
  | some same =>
    if same then .ok () else .error (.permissionError "worker snapshot integrity check failed")

/-- The envelope of an item. -/
def itemEnvelope (item : PyDict R) : Except CloudError WorkerEnvelope := do
  let jobId ← itemUuid item "job_id"
  let tenantId ← itemUuid item "tenant_id"
  let principalId ← itemUuid item "principal_id"
  let expiresAt ← itemDatetime item "expires_at"
  let nonce ← itemText item "nonce"
  let signature ← itemText item "signature"
  pure ⟨jobId, tenantId, principalId, expiresAt, nonce, signature⟩

/-- The job of an item, `none` for one that is not restored. -/
def itemJob (secret : Bytes) (now : DateTime) (item : PyDict R) :
    Except CloudError (Option LocalJob) := do
  checkItem secret item
  let envelope ← itemEnvelope item
  envelope.verify secret now
  let state ← itemState item "state"
  let attempts ← itemInt item "attempts"
  let dedupeKey ← itemText item "dedupe_key"
  let dedupeKey ← safeRef dedupeKey "dedupe key"
  let payloadRef ← itemText item "payload_ref"
  let payloadRef ← safeRef payloadRef "payload reference"
  if attempts < 0 ∨ (state ≠ .pending ∧ state ≠ .failed) then pure none
  else
    pure (some
      { envelope := envelope, dedupeKey := dedupeKey, payloadRef := payloadRef, state := state
        attempts := attempts.toNat
        error := if state = .failed then some "worker execution failed" else none })

/-- One more restored job. -/
def Registry.add (job : LocalJob) (r : Registry) : Except CloudError Registry :=
  if r.jobs.contains job.envelope.jobId || r.dedupe.contains job.key ||
      r.nonces.contains job.nonceKey then
    .error (.valueError "duplicate worker snapshot entry")
  else .ok (r.register job)

/-- One item of the loop. -/
def restoreItem (secret : Bytes) (now : DateTime) (item : PyDict R) (r : Registry) :
    Except CloudError Registry := do
  let job ← itemJob secret now item
  match job with
  | none => pure r
  | some job => r.add job

/-- The loop, from the item at position `k` on. -/
def restoreItems (secret : Bytes) (now : Nat → DateTime) :
    Nat → List (PyDict R) → Registry → Except CloudError Registry
  | _, [], r => .ok r
  | k, item :: items, r => do
    let r ← restoreItem secret (now k) item r
    restoreItems secret now (k + 1) items r

/-- `restore`. -/
def LocalTenantWorker.restore (now : Nat → DateTime) (snapshot : List (PyDict R))
    (w : LocalTenantWorker) : Except CloudError Nat × LocalTenantWorker :=
  match restoreItems w.secret now 0 snapshot {} with
  | .error _ => (.error (.permissionError "worker snapshot rejected"), w)
  | .ok r => (.ok r.jobs.items.length, w.install r)

end OpenMemory.Worker
