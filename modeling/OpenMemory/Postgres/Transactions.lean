import OpenMemory.Postgres.Repository
import OpenMemory.Store.Requests

/-!
# Units of work on PostgreSQL

What one transaction against the database does: a call of the service, one batch of the
re-embedding job (`application/reembedding.py`), its cutover or a key rotation. Like the
repositories, a body is a program over a `Session`, so that it can run alone (`Session.sequential`)
or statement by statement among others.

`EmbeddingReembeddingJob.run` makes its checks, then loops over batches, each in a unit of
work of its own, then opens one more for the cutover; `batch` makes the checks itself, so that
each of its transactions stands alone. The run as a whole is in `Postgres.Report`.
-/

namespace OpenMemory.Postgres

open Lib
open MonadExcept (ofExcept)
open PostgresMemoryRepository

variable {R : Type} [Python R]

namespace EmbeddingReembeddingJob

/-- The counter that a memory of the batch adds to. -/
inductive Counter
  | completed | stale | failed
  deriving DecidableEq, Repr

variable {m : Type → Type} [Monad m] [MonadExceptOf PyError m]

/-- The body of the loop over the candidates; `except Exception` counts a failure. -/
def reembed (provider : EmbeddingProvider R) (session : Session m R) (memory : Memory R) :
    m Counter :=
  tryCatchThe PyError
    (do
      let vector ← ofExcept (provider.embed memory.content false)
      raiseIf (decide ((vector.length : Int) ≠ provider.profile.dimension))
        (.valueError "provider returned an unexpected dimension")
      let done ← upsertEmbeddingProfile session memory.id memory.version provider.profile vector
      pure (if done then .completed else .stale))
    fun _ => pure .failed

/-- The loop over the candidates. -/
def reembedAll (provider : EmbeddingProvider R) (session : Session m R) :
    List (Memory R) → m (List Counter)
  | [] => pure []
  | memory :: rest => do
    let counter ← reembed provider session memory
    let more ← reembedAll provider session rest
    pure (counter :: more)

/-- One turn of the outer loop. -/
def batch (provider : EmbeddingProvider R) (session : Session m R) (ownerId : String)
    (cursor : Option UUID) (batchSize : Int) (dryRun : Bool) : m (List Counter) := do
  let _ ← ofExcept (validateOwnerId ownerId)
  raiseIf (!decide (1 ≤ batchSize ∧ batchSize ≤ 1000))
    (.valueError "batch_size must be between 1 and 1000")
  raiseIf (decide (provider.profile.dimension ≠ 384))
    (.valueError "the re-embedding job requires a 384-dimensional provider")
  let candidates ← listForReembedding session ownerId cursor batchSize
  if dryRun then pure [] else reembedAll provider session candidates

end EmbeddingReembeddingJob

/-- What a unit of work is opened for. -/
inductive Work (R : Type) [Python R]
  | request (request : Request R)
  | batch (ownerId : String) (cursor : Option UUID) (batchSize : Int) (dryRun : Bool)
  | cutover (ownerId : String)
  | rotation (keyVersion : Int)

/-- A write, an update, an import, a batch of the re-embedding job or its cutover. -/
def Work.writesIndex : Work R → Bool
  | .request (.write _) => true
  | .request (.update _) => true
  | .request (.importMemories _ _) => true
  | .request _ => false
  | .batch _ _ _ _ => true
  | .cutover _ => true
  | .rotation _ => false

/-- What its body returns. -/
inductive Outcome (R : Type) [Python R]
  | answered (response : Response R)
  | reembedded (counters : List EmbeddingReembeddingJob.Counter)
  | activated (count : Nat)
  | rewrapped (count : Nat)

/-- A unit of work, with the service that opens it and the tenant of its session. -/
structure Transaction (R : Type) [Python R] where
  service : MemoryApplicationService R
  tenant : Option UUID := none
  work : Work R

namespace Transaction

/-- The profile that the service is configured with. -/
def profile (t : Transaction R) : EmbeddingProfile := t.service.embeddingProvider.profile

/-- The body of the unit of work. -/
def body {m : Type → Type} [Monad m] [MonadExceptOf PyError m] (t : Transaction R)
    (session : Session m R) : m (Outcome R) :=
  match t.work with
  | .request request =>
    .answered <$> request.execOn t.service (postgresUnitOfWork session)
  | .batch ownerId cursor batchSize dryRun =>
    .reembedded <$> EmbeddingReembeddingJob.batch t.service.embeddingProvider session ownerId
      cursor batchSize dryRun
  | .cutover ownerId => .activated <$> cutoverEmbeddingProfile session ownerId t.profile
  | .rotation keyVersion => .rewrapped <$> rewrapEnvelopes session keyVersion

/-- The transaction alone on the database, in a deployment with the given encryptor. -/
def attempt (encryptor : Option TenantEnvelopeEncryptor) (t : Transaction R) (db : Database R) :
    Except PyError (Outcome R) × Database R :=
  (t.body (Session.sequential R t.tenant encryptor)).attempt db

end Transaction

/-- The database after some transactions, one after another from empty tables. -/
def afterAll (encryptor : Option TenantEnvelopeEncryptor) (ts : List (Transaction R)) :
    Database R :=
  ts.foldl (fun db t => (t.attempt encryptor db).2) {}

end OpenMemory.Postgres
