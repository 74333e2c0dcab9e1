import OpenMemory.Lib.Keyset
import OpenMemory.Lib.Link
import OpenMemory.Postgres.Locks

/-!
# The report of the re-embedding job

`EmbeddingReembeddingJob.run` opens a unit of work for each batch and catches what goes wrong
for one memory inside the loop, so the counters know nothing of the transaction around it. Here
the whole of `run` meets a database that aborts a transaction at its first failed statement.

The provider answers each request of a run as it likes, so two memories of one content may be
embedded and refused; `number` says which request is for the memory of a row.

`counters` says what a batch counts, given which statements fail, and `Handled` what it does to
the connection; `reembedAll_handled` proves both of the loop over the candidates.
-/

namespace OpenMemory.Postgres

open Lib
open MonadExcept (ofExcept)
open PostgresMemoryRepository

variable {R : Type} [Python R]

/-- Programs that talk to PostgreSQL over a connection. -/
abbrev DbLinked (R : Type) : Type → Type := Linked (Statement R) (Database R) PyError

/-- `ReembeddingReport`. -/
structure ReembeddingReport where
  ownerId : String
  profileId : String
  profileVersion : String
  dryRun : Bool
  cutover : Bool
  eligible : Nat
  completed : Nat
  stale : Nat
  failed : Nat
  lastMemoryId : Option UUID
  activated : Nat
  deriving DecidableEq, Repr

namespace EmbeddingReembeddingJob

/-- The variables of `run`. -/
structure Progress where
  eligible : Nat := 0
  completed : Nat := 0
  stale : Nat := 0
  failed : Nat := 0
  cursor : Option UUID
  deriving DecidableEq, Repr

/-- The variables after a batch. -/
def Progress.add (p : Progress) (candidates : List (Memory R)) (counters : List Counter)
    (last : Memory R) : Progress where
  eligible := p.eligible + candidates.length
  completed := p.completed + counters.count .completed
  stale := p.stale + counters.count .stale
  failed := p.failed + counters.count .failed
  cursor := some last.id

/-- The provider and the units of work as the job uses them. -/
structure Ports (m : Type → Type) (R : Type) [Python R] where
  profile : EmbeddingProfile
  embed : String → m (List R)
  unitOfWork {α : Type} : m α → m α
  listForReembedding : String → Option UUID → Int → m (List (Memory R))
  upsertEmbeddingProfile : UUID → Int → EmbeddingProfile → List R → m Bool
  cutoverEmbeddingProfile : String → EmbeddingProfile → m Nat
  semanticCoverage : String → EmbeddingProfile → m (Nat × Nat)

namespace Ports

variable {m : Type → Type} [Monad m] [MonadExceptOf PyError m]

/-- The body of the loop over the candidates. -/
def reembed (ports : Ports m R) (memory : Memory R) : m Counter :=
  tryCatchThe PyError
    (do
      let vector ← ports.embed memory.content
      raiseIf (decide ((vector.length : Int) ≠ ports.profile.dimension))
        (.valueError "provider returned an unexpected dimension")
      let done ← ports.upsertEmbeddingProfile memory.id memory.version ports.profile vector
      pure (if done then .completed else .stale))
    fun _ => pure .failed

/-- The loop over the candidates. -/
def reembedAll (ports : Ports m R) : List (Memory R) → m (List Counter)
  | [] => pure []
  | memory :: rest => do
    let counter ← ports.reembed memory
    let more ← ports.reembedAll rest
    pure (counter :: more)

/-- The block of one unit of work. -/
def turn (ports : Ports m R) (ownerId : String) (batchSize : Int) (dryRun : Bool)
    (cursor : Option UUID) : m (List (Memory R) × List Counter) := do
  let candidates ← ports.listForReembedding ownerId cursor batchSize
  let counters ← if dryRun then pure [] else ports.reembedAll candidates
  pure (candidates, counters)

/-- The outer loop, for at most so many turns. -/
def loop (ports : Ports m R) (ownerId : String) (batchSize : Int) (dryRun : Bool) :
    Nat → Progress → m (Option Progress)
  | 0, _ => pure none
  | fuel + 1, p => do
    let (candidates, counters) ← ports.unitOfWork (ports.turn ownerId batchSize dryRun p.cursor)
    match candidates.getLast? with
    | none => pure (some p)
    | some last =>
      if (candidates.length : Int) < batchSize then pure (some (p.add candidates counters last))
      else loop ports ownerId batchSize dryRun fuel (p.add candidates counters last)

/-- The unit of work of the cutover, if there is one. -/
def activate (ports : Ports m R) (ownerId : String) : Bool → m Nat
  | false => pure 0
  | true => ports.unitOfWork (ports.cutoverEmbeddingProfile ownerId ports.profile)

/-- `run`, with at most so many turns of its loop. -/
def run (ports : Ports m R) (ownerId : String) (batchSize : Int) (resumeAfter : Option UUID)
    (dryRun cutover : Bool) (fuel : Nat) : m (Option ReembeddingReport) := do
  let _ ← ofExcept (validateOwnerId ownerId)
  raiseIf (!decide (1 ≤ batchSize ∧ batchSize ≤ 1000))
    (.valueError "batch_size must be between 1 and 1000")
  raiseIf (decide (ports.profile.dimension ≠ 384))
    (.valueError "the re-embedding job requires a 384-dimensional provider")
  let looped ← ports.loop ownerId batchSize dryRun fuel { cursor := resumeAfter }
  match looped with
  | none => pure none
  | some p =>
    let activated ← ports.activate ownerId (cutover && !dryRun)
    let (total, _) ← ports.unitOfWork (ports.semanticCoverage ownerId ports.profile)
    pure (some
      { ownerId := ownerId
        profileId := ports.profile.id
        profileVersion := ports.profile.version
        dryRun := dryRun
        cutover := cutover
        eligible := if dryRun then total else p.eligible
        completed := p.completed
        stale := p.stale
        failed := p.failed
        lastMemoryId := p.cursor
        activated := activated })

end Ports

section Session

variable {m : Type → Type} [Monad m] [MonadExceptOf PyError m]

/-- The ports of a session in an open unit of work. -/
def Ports.ofSession (provider : EmbeddingProvider R) (session : Session m R) : Ports m R where
  profile := provider.profile
  embed content := ofExcept (provider.embed content false)
  unitOfWork x := x
  listForReembedding := PostgresMemoryRepository.listForReembedding session
  upsertEmbeddingProfile := PostgresMemoryRepository.upsertEmbeddingProfile session
  cutoverEmbeddingProfile := PostgresMemoryRepository.cutoverEmbeddingProfile session
  semanticCoverage := PostgresMemoryRepository.semanticCoverage session

/-- The loop over the candidates in a session is the one over its ports. -/
theorem reembedAll_eq_ports (provider : EmbeddingProvider R) (session : Session m R)
    (memories : List (Memory R)) :
    reembedAll provider session memories =
      (Ports.ofSession provider session).reembedAll memories := by
  induction memories with
  | nil => rfl
  | cons memory rest ih =>
    rw [reembedAll, ih]
    rfl

end Session

end EmbeddingReembeddingJob

/-- The job against PostgreSQL: what its provider answers to each request of a run (counted from
zero) and the text in it, the tenant and the encryptor of its sessions, and which of its requests to
the database fail. -/
structure EmbeddingReembeddingJob (R : Type) [Python R] where
  profile : EmbeddingProfile
  embed : Nat → String → Except PyError (List R)
  tenant : Option UUID := none
  encryptor : Option TenantEnvelopeEncryptor := none
  fails : Trip (Statement R) → Option PyError := fun _ => none

namespace EmbeddingReembeddingJob

/-- The database of the job. -/
def server (job : EmbeddingReembeddingJob R) :
    Server (Statement R) Statement.Result (Database R) PyError where
  run q := q.run job.tenant
  fails := job.fails
  inFailedTransaction := .foreign "DBAPIError" none

/-- The session of a unit of work. -/
def session (job : EmbeddingReembeddingJob R) : Session (DbLinked R) R where
  tenant := job.tenant
  encryptor := job.encryptor
  execute := job.server.execute

/-- The ports of the job against PostgreSQL. -/
def ports (job : EmbeddingReembeddingJob R) : Ports (DbLinked R) R where
  profile := job.profile
  embed content := Linked.consult fun n => job.embed n content
  unitOfWork := job.server.unitOfWork
  listForReembedding := listForReembedding job.session
  upsertEmbeddingProfile := upsertEmbeddingProfile job.session
  cutoverEmbeddingProfile := cutoverEmbeddingProfile job.session
  semanticCoverage := semanticCoverage job.session

/-! ## What the job is to do -/

/-- The rows that the job goes through. -/
def eligibleRows (job : EmbeddingReembeddingJob R) (db : Database R) (ownerId : String)
    (resumeAfter : Option UUID) : List (UUID × MemoryRow R) :=
  ((db.eligible job.tenant ownerId).filter fun e =>
    resumeAfter.all fun cursor => decide (cursor.int < e.1.int)).insertionSort fun a b =>
      Database.idLe a b = true

/-- Which request to the provider is for the memory of a row: the rows are gone through in order. -/
def requestNumber (rows : List (UUID × MemoryRow R)) (e : UUID × MemoryRow R) : Nat :=
  rows.findIdx fun e' => decide (e'.1 = e.1)

section Answered

variable (job : EmbeddingReembeddingJob R) (number : UUID × MemoryRow R → Nat)

/-- The memory of a row and its new vector, if the provider has one for it. -/
def vectorFor (e : UUID × MemoryRow R) : Option (Memory R × List R) :=
  match job.session.memoryFromRow e.1 e.2 with
  | .error _ => none
  | .ok memory =>
    match job.embed (number e) memory.content with
    | .error _ => none
    | .ok vector =>
      if (vector.length : Int) = job.profile.dimension then some (memory, vector) else none

/-- The memory is embedded. -/
def embeds (e : UUID × MemoryRow R) : Bool :=
  (job.vectorFor number e).isSome

/-- The memory is embedded, and a statement for it fails in the unit of work. -/
def breaks (unit : Nat) (e : UUID × MemoryRow R) : Bool :=
  someAnd (fun (memory, vector) =>
    (job.fails (.statement unit (.selectCurrentVersion memory.id memory.version))).isSome ||
      (job.fails (.statement unit
        (.upsertSemantic memory.id memory.version job.profile vector))).isSome)
    (job.vectorFor number e)

/-- If a statement fails in the batch, then one for its first memory that is embedded. -/
def Intact (unit : Nat) (rows : List (UUID × MemoryRow R)) : Prop :=
  rows.any (job.breaks number unit) = true →
    ∃ e, rows.find? (job.embeds number) = some e ∧ job.breaks number unit e = true

/-- A row of the batch is made durable for the memory. -/
def lands (unit : Nat) (rows : List (UUID × MemoryRow R)) (memoryId : UUID) : Bool :=
  !rows.any (job.breaks number unit) &&
    rows.any fun e => decide (e.1 = memoryId) && job.embeds number e

end Answered

/-- The rows of the batch in the `unit`-th unit of work. -/
def batchRows (batchSize : Int) (rows : List (UUID × MemoryRow R)) (unit : Nat) :
    List (UUID × MemoryRow R) :=
  (rows.drop (unit * batchSize.toNat)).take batchSize.toNat

/-- The committed statements store a row of the profile for the memory. -/
def stored (log : List (Statement R)) (profile : EmbeddingProfile) (memoryId : UUID) : Bool :=
  log.any fun q =>
    match q with
    | .upsertSemantic i _ p _ => decide (i = memoryId) && decide (p = profile)
    | _ => false

/-- The counters of the report are what the run made durable. -/
structure Truthful (profile : EmbeddingProfile) (rows : List (UUID × MemoryRow R))
    (log : List (Statement R)) (report : ReembeddingReport) : Prop where
  eligible : report.eligible = rows.length
  completed : report.completed = rows.countP fun e => stored log profile e.1
  others : report.stale + report.failed = rows.countP fun e => !stored log profile e.1

/-! ## What a batch counts -/

/-- What the memories of a batch are counted as, if its transaction is aborted or not. -/
def counters (job : EmbeddingReembeddingJob R) (number : UUID × MemoryRow R → Nat) (unit : Nat) :
    Bool → List (UUID × MemoryRow R) → List Counter
  | _, [] => []
  | aborted, e :: rest =>
    (if job.embeds number e && !(aborted || job.breaks number unit e) then .completed
      else .failed) :: counters job number unit (aborted || job.breaks number unit e) rest

variable {job : EmbeddingReembeddingJob R} {number : UUID × MemoryRow R → Nat} {unit : Nat}
  {rows : List (UUID × MemoryRow R)}

/-- A row at which a statement fails has been embedded. -/
theorem embeds_of_breaks {e : UUID × MemoryRow R} (h : job.breaks number unit e = true) :
    job.embeds number e = true := by
  unfold breaks at h
  unfold embeds
  cases hvector : job.vectorFor number e with
  | none => rw [hvector] at h; cases h
  | some found => rfl

/-- Every row is counted once. -/
theorem counters_sum (job : EmbeddingReembeddingJob R) (number : UUID × MemoryRow R → Nat)
    (unit : Nat) (aborted : Bool) (rows : List (UUID × MemoryRow R)) :
    (job.counters number unit aborted rows).count .completed +
      (job.counters number unit aborted rows).count .stale +
      (job.counters number unit aborted rows).count .failed = rows.length := by
  induction rows generalizing aborted with
  | nil => rfl
  | cons e rest ih =>
    have hrest := ih (aborted || job.breaks number unit e)
    simp only [counters, List.count_cons, List.length_cons]
    split <;> simp <;> omega

/-- Once the transaction is aborted, nothing is counted as completed. -/
theorem completed_of_aborted : (job.counters number unit true rows).count .completed = 0 := by
  induction rows with
  | nil => rfl
  | cons e rest ih => simpa [counters] using ih

/-- If it is not, every row that is embedded is. -/
theorem completed_of_unbroken (h : rows.any (job.breaks number unit) = false) :
    (job.counters number unit false rows).count .completed = rows.countP (job.embeds number) := by
  induction rows with
  | nil => rfl
  | cons e rest ih =>
    rw [List.any_cons, Bool.or_eq_false_iff] at h
    simp only [counters, h.1, Bool.or_false, Bool.not_false, Bool.and_true, List.count_cons,
      List.countP_cons, ih h.2]
    cases job.embeds number e <;> rfl

/-- Nothing is completed in a batch that breaks just when its first embedded memory breaks it. -/
theorem completed_eq_zero_iff (h : rows.any (job.breaks number unit) = true) :
    (job.counters number unit false rows).count .completed = 0 ↔
      ∃ e, rows.find? (job.embeds number) = some e ∧ job.breaks number unit e = true := by
  induction rows with
  | nil => cases h
  | cons e rest ih =>
    cases hembeds : job.embeds number e with
    | false =>
      -- the memory is passed over: no statement is sent for it
      have hbreaks : job.breaks number unit e = false := by
        cases hb : job.breaks number unit e with
        | false => rfl
        | true => rw [embeds_of_breaks hb] at hembeds; cases hembeds
      rw [List.any_cons, hbreaks, Bool.false_or] at h
      simp only [counters, hembeds, hbreaks, Bool.or_false, Bool.false_and, List.find?_cons]
      simpa using ih h
    | true =>
      cases hbreaks : job.breaks number unit e with
      | false => simp [counters, hembeds, hbreaks]
      | true => simp [counters, hembeds, hbreaks, completed_of_aborted]

/-! ## One memory -/

omit [Python R] in
theorem stored_append {log log' : List (Statement R)} {profile : EmbeddingProfile} {i : UUID} :
    stored (log ++ log') profile i = (stored log profile i || stored log' profile i) :=
  List.any_append

/-- The rows that the statements stored are there, each with the version of its memory. -/
def Stamped (job : EmbeddingReembeddingJob R) (db : Database R) (statements : List (Statement R))
    (now : Database R) : Prop :=
  ∀ i row, db.memories.get? i = some row → stored statements job.profile i = true →
    ∃ s, now.semantic.get? (i, job.profile.id, job.profile.version) = some s ∧
      s.sourceVersion = row.version

/-- The open transaction leaves the memories alone, and its rows are there. -/
structure Tracks (job : EmbeddingReembeddingJob R) (db : Database R)
    (c : Connection (Statement R) (Database R)) : Prop where
  memories : c.own.memories = db.memories
  stamped : job.Stamped db (c.log ++ c.written) c.own

/-- What the loop over some rows does to the connection. -/
structure Handled (job : EmbeddingReembeddingJob R) (number : UUID × MemoryRow R → Nat)
    (rows : List (UUID × MemoryRow R)) (c c' : Connection (Statement R) (Database R)) : Prop where
  committed : c'.committed = c.committed
  log : c'.log = c.log
  unit : c'.unit = c.unit
  asked : c'.asked = c.asked + rows.length
  aborted : c'.aborted = (c.aborted || rows.any (job.breaks number c.unit))
  written : c'.aborted = false → ∀ i, stored c'.written job.profile i =
    (stored c.written job.profile i || rows.any fun e => decide (e.1 = i) && job.embeds number e)

variable {db : Database R} {c c' : Connection (Statement R) (Database R)}
  {e : UUID × MemoryRow R} {memory : Memory R}

omit [Python R] in
theorem attempt_raiseIf_of_false {b : Bool} {x : PyError} (h : b = false) :
    (raiseIf b x : DbLinked R Unit).attempt c = (.ok (), c) := by
  rw [h]
  rfl

/-- A statement fails once the transaction is aborted, or else as the pattern says. -/
theorem execute_error {q : Statement R}
    (h : c.aborted = true ∨ (job.fails (.statement c.unit q)).isSome = true) :
    ∃ x, (job.session.execute q).attempt c = (.error x, { c with aborted := true }) := by
  cases ha : c.aborted with
  | true =>
    refine ⟨job.server.inFailedTransaction, ?_⟩
    rw [← ha]
    exact Server.execute_of_aborted ha
  | false =>
    obtain ⟨x, hx⟩ := Option.isSome_iff_exists.mp (h.resolve_left (by simp [ha]))
    exact ⟨x, Server.execute_of_fails ha hx⟩

/-- The row that the job stores. -/
def stamp (job : EmbeddingReembeddingJob R) (version : Int) (vector : List R) : SemanticRow R where
  tenantId := job.tenant
  sourceVersion := version
  dimension := job.profile.dimension
  metric := job.profile.metric
  vector := vector

/-- The connection after the version of a memory is read. -/
def afterSelect (memory : Memory R) (c : Connection (Statement R) (Database R)) :
    Connection (Statement R) (Database R) :=
  { c with written := c.written ++ [.selectCurrentVersion memory.id memory.version] }

/-- The connection after the vector of a memory is stored. -/
def afterUpsert (job : EmbeddingReembeddingJob R) (memory : Memory R) (vector : List R)
    (c : Connection (Statement R) (Database R)) : Connection (Statement R) (Database R) :=
  { afterSelect memory c with
    own := { c.own with
      semantic := c.own.semantic.set (memory.id, job.profile.id, job.profile.version)
        (job.stamp memory.version vector) }
    written := (afterSelect memory c).written ++
      [.upsertSemantic memory.id memory.version job.profile vector] }

section Upsert

variable {row : MemoryRow R} {vector : List R}

/-- The current version of a listed row is read, and matches. -/
theorem attempt_select (hrow : c.own.visible job.tenant memory.id = some row)
    (hversion : row.version = memory.version) (hopen : c.aborted = false)
    (hfails : job.fails (.statement c.unit
      (.selectCurrentVersion memory.id memory.version)) = none) :
    (job.session.execute (.selectCurrentVersion memory.id memory.version)).attempt c =
      (.ok true, afterSelect memory c) := by
  refine Server.execute_of_run hopen hfails ?_
  change Except.ok (someAnd (fun row : MemoryRow R => decide (row.version = memory.version))
    (c.own.visible job.tenant memory.id), c.own) = _
  have hcurrent : someAnd (fun row : MemoryRow R => decide (row.version = memory.version))
      (c.own.visible job.tenant memory.id) = true := by
    rw [hrow]
    simp [someAnd, hversion]
  rw [hcurrent]
  rfl

/-- A failed statement is the end of `upsert_embedding_profile`. -/
theorem attempt_upsert_error (hdim : job.profile.dimension = 384)
    (hrow : c.own.visible job.tenant memory.id = some row) (hversion : row.version = memory.version)
    (h : c.aborted = true ∨
      (job.fails (.statement c.unit
        (.selectCurrentVersion memory.id memory.version))).isSome = true ∨
      (job.fails (.statement c.unit
        (.upsertSemantic memory.id memory.version job.profile vector))).isSome = true) :
    ∃ x, ∃ c₁ ∈ [c, afterSelect memory c],
      (upsertEmbeddingProfile job.session memory.id memory.version job.profile vector).attempt c =
        (.error x, { c₁ with aborted := true }) := by
  have hraise : ∀ {x : PyError}, (raiseIf (decide (job.profile.dimension ≠ 384)) x :
      DbLinked R Unit).attempt c = (.ok (), c) := attempt_raiseIf_of_false (by simp [hdim])
  by_cases hselect : c.aborted = true ∨
      (job.fails (.statement c.unit (.selectCurrentVersion memory.id memory.version))).isSome = true
  · obtain ⟨x, hx⟩ := execute_error hselect
    refine ⟨x, c, List.mem_cons_self, ?_⟩
    exact (Linked.attempt_bind_of_ok hraise).trans (Linked.attempt_bind_of_error hx)
  · obtain ⟨hopen, hnone⟩ := not_or.mp hselect
    have hread := attempt_select hrow hversion (by simpa using hopen) (by simpa using hnone)
    have hupsert := h.resolve_left hopen |>.resolve_left hnone
    obtain ⟨x, hx⟩ := execute_error (c := afterSelect memory c) (.inr hupsert)
    refine ⟨x, afterSelect memory c, by simp, ?_⟩
    refine (Linked.attempt_bind_of_ok hraise).trans ((Linked.attempt_bind_of_ok hread).trans ?_)
    exact Linked.attempt_bind_of_error hx

/-- Otherwise it stores the vector. -/
theorem attempt_upsert_ok (hdim : job.profile.dimension = 384)
    (hlength : (vector.length : Int) = job.profile.dimension)
    (hrow : c.own.visible job.tenant memory.id = some row) (hversion : row.version = memory.version)
    (hopen : c.aborted = false)
    (hselect : job.fails (.statement c.unit
      (.selectCurrentVersion memory.id memory.version)) = none)
    (hupsert : job.fails (.statement c.unit
      (.upsertSemantic memory.id memory.version job.profile vector)) = none) :
    (upsertEmbeddingProfile job.session memory.id memory.version job.profile vector).attempt c =
      (.ok true, job.afterUpsert memory vector c) := by
  have hraise : ∀ {x : PyError}, (raiseIf (decide (job.profile.dimension ≠ 384)) x :
      DbLinked R Unit).attempt c = (.ok (), c) := attempt_raiseIf_of_false (by simp [hdim])
  have hread := attempt_select hrow hversion hopen hselect
  refine (Linked.attempt_bind_of_ok hraise).trans ((Linked.attempt_bind_of_ok hread).trans ?_)
  have hget := (Option.filter_eq_some_iff.mp hrow).1
  have htenant : row.tenantId = job.tenant := by simpa using (Option.filter_eq_some_iff.mp hrow).2
  have hrefers : c.own.references job.tenant memory.id = true := by
    simp [Database.references, hget, someAnd, htenant]
  have hwidth : vector.length = EmbeddingTable.semantic.width := by
    change vector.length = 384
    omega
  have hrun : (Statement.upsertSemantic memory.id memory.version job.profile vector).run job.tenant
      (afterSelect memory c).own = .ok ((), (job.afterUpsert memory vector c).own) := by
    change Except.map _ (Database.upsertSemantic c.own _ _ _ _ _) = _
    simp only [Database.upsertSemantic, Database.checkWidth, raiseIf, hwidth, hrefers]
    rfl
  have hexecute : (job.session.execute (.upsertSemantic memory.id memory.version job.profile
      vector)).attempt (afterSelect memory c) = (.ok (), job.afterUpsert memory vector c) :=
    Server.execute_of_run hopen hupsert hrun
  exact Linked.attempt_bind_of_ok hexecute

end Upsert

/-- What it takes for a row to get a vector: its memory, an answer of the provider, and the
dimension. -/
theorem vectorFor_eq_some {vector : List R}
    (h : job.vectorFor number e = some (memory, vector)) :
    job.session.memoryFromRow e.1 e.2 = .ok memory ∧
      job.embed (number e) memory.content = .ok vector ∧
      (vector.length : Int) = job.profile.dimension := by
  unfold vectorFor at h
  cases hread : job.session.memoryFromRow e.1 e.2 with
  | error x => rw [hread] at h; cases h
  | ok m =>
    rw [hread] at h
    cases hembed : job.embed (number e) m.content with
    | error x => simp only [hembed] at h; cases h
    | ok v =>
      simp only [hembed] at h
      split at h
      · obtain ⟨rfl, rfl⟩ := Prod.mk.inj (Option.some.inj h)
        exact ⟨rfl, hembed, by assumption⟩
      · cases h

/-- The request to the provider for the memory of a row. -/
theorem attempt_embed (hnumber : number e = c.asked) (content : String) :
    (job.ports.embed content).attempt c = (job.embed (number e) content, c.consulted) := by
  rw [hnumber]
  rfl

/-- A memory that is not embedded is counted as failed, and no statement is sent. -/
theorem reembed_of_none (hread : job.session.memoryFromRow e.1 e.2 = .ok memory)
    (hnumber : number e = c.asked) (h : job.vectorFor number e = none) :
    (job.ports.reembed memory).attempt c = (.ok .failed, c.consulted) := by
  unfold vectorFor at h
  rw [hread] at h
  have hasked : (job.ports.embed memory.content).attempt c =
      (job.embed (number e) memory.content, c.consulted) := attempt_embed hnumber memory.content
  cases hembed : job.embed (number e) memory.content with
  | error x =>
    rw [hembed] at hasked
    exact Linked.attempt_tryCatch_of_error (e := x) (Linked.attempt_bind_of_error hasked)
  | ok vector =>
    rw [hembed] at hasked
    simp only [hembed] at h
    split at h
    · cases h
    · have hlength : decide ((vector.length : Int) ≠ job.profile.dimension) = true := by
        simpa using by assumption
      have hraise : (raiseIf (decide ((vector.length : Int) ≠ job.profile.dimension))
          (.valueError "provider returned an unexpected dimension") : DbLinked R Unit).attempt
            c.consulted =
          (.error (.valueError "provider returned an unexpected dimension"), c.consulted) := by
        rw [hlength]
        rfl
      exact Linked.attempt_tryCatch_of_error
        ((Linked.attempt_bind_of_ok hasked).trans (Linked.attempt_bind_of_error hraise))

/-- A memory that is embedded is counted by what `upsert_embedding_profile` does. -/
theorem reembed_of_some {vector : List R} (hnumber : number e = c.asked)
    (h : job.vectorFor number e = some (memory, vector)) :
    (∀ x c', (upsertEmbeddingProfile job.session memory.id memory.version job.profile
        vector).attempt c.consulted = (.error x, c') →
      (job.ports.reembed memory).attempt c = (.ok .failed, c')) ∧
    ∀ c', (upsertEmbeddingProfile job.session memory.id memory.version job.profile
        vector).attempt c.consulted = (.ok true, c') →
      (job.ports.reembed memory).attempt c = (.ok .completed, c') := by
  obtain ⟨-, hembed, hlength⟩ := vectorFor_eq_some h
  have hasked : (job.ports.embed memory.content).attempt c =
      (job.embed (number e) memory.content, c.consulted) := attempt_embed hnumber memory.content
  rw [hembed] at hasked
  have hraise : (raiseIf (decide ((vector.length : Int) ≠ job.profile.dimension))
      (.valueError "provider returned an unexpected dimension") : DbLinked R Unit).attempt
        c.consulted = (.ok (), c.consulted) :=
    attempt_raiseIf_of_false (decide_eq_false (not_not.mpr hlength))
  constructor
  · intro x c' hx
    exact Linked.attempt_tryCatch_of_error ((Linked.attempt_bind_of_ok hasked).trans
      ((Linked.attempt_bind_of_ok hraise).trans (Linked.attempt_bind_of_error hx)))
  · intro c' hdone
    exact Linked.attempt_tryCatch_of_ok ((Linked.attempt_bind_of_ok hasked).trans
      ((Linked.attempt_bind_of_ok hraise).trans (Linked.attempt_bind_of_ok hdone)))

theorem stored_afterSelect (i : UUID) :
    stored (afterSelect memory c).written job.profile i = stored c.written job.profile i := by
  change stored (c.written ++ [_]) job.profile i = _
  rw [stored_append]
  exact Bool.or_false _

/-- The upsert stores a row for its memory. -/
theorem stored_afterUpsert {vector : List R} (i : UUID) :
    stored (job.afterUpsert memory vector c).written job.profile i =
      (stored c.written job.profile i || decide (memory.id = i)) := by
  change stored ((afterSelect memory c).written ++ [_]) job.profile i = _
  rw [stored_append, stored_afterSelect]
  simp [stored]

/-- What was written is all that the bookkeeping is about. -/
theorem Tracks.of_same {c₁ : Connection (Statement R) (Database R)} (h : Tracks job db c)
    (hown : c₁.own = c.own) (hlog : c₁.log = c.log)
    (hwritten : ∀ i, stored c₁.written job.profile i = stored c.written job.profile i) :
    Tracks job db c₁ where
  memories := by rw [hown, h.memories]
  stamped i row hrow hstored := by
    rw [hown]
    refine h.stamped i row hrow ?_
    rw [stored_append, hlog, hwritten] at hstored
    rwa [stored_append]

/-- After the upsert the row is stamped with the version of its memory. -/
theorem Tracks.afterUpsert {vector : List R} {row : MemoryRow R} (h : Tracks job db c)
    (hrow : db.memories.get? memory.id = some row) (hversion : row.version = memory.version) :
    Tracks job db (job.afterUpsert memory vector c) where
  memories := h.memories
  stamped i row' hrow' hstored := by
    change ∃ s, (c.own.semantic.set _ _).get? _ = some s ∧ _
    by_cases hi : memory.id = i
    · subst hi
      refine ⟨_, Dict.get?_set_self _ _ _, ?_⟩
      change memory.version = row'.version
      rw [← hversion, Option.some.inj (hrow.symm.trans hrow')]
    · rw [Dict.get?_set_of_ne _ _ (fun hkey => hi (congrArg Prod.fst hkey).symm)]
      refine h.stamped i row' hrow' ?_
      rw [stored_append, stored_afterUpsert, decide_eq_false hi, Bool.or_false] at hstored
      rw [stored_append]
      exact hstored

/-- What one memory is counted as, and what it does to the connection. -/
theorem reembed_handled (hdim : job.profile.dimension = 384) (htracks : Tracks job db c)
    (hnumber : number e = c.asked) (hrow : db.visible job.tenant e.1 = some e.2)
    (hread : job.session.memoryFromRow e.1 e.2 = .ok memory) :
    ∃ c', (job.ports.reembed memory).attempt c =
        (.ok (if job.embeds number e && !(c.aborted || job.breaks number c.unit e) then .completed
          else .failed), c') ∧
      Handled job number [e] c c' ∧ Tracks job db c' := by
  cases hvector : job.vectorFor number e with
  | none =>
    have hembeds : job.embeds number e = false := by rw [embeds, hvector]; rfl
    have hbreaks : job.breaks number c.unit e = false := by rw [breaks, hvector]; rfl
    have hsame : Handled job number [e] c c.consulted := by
      refine ⟨rfl, rfl, rfl, rfl, ?_, ?_⟩
      · rw [List.any_cons, hbreaks]
        exact (Bool.or_false _).symm
      · intro _ i
        rw [List.any_cons, hembeds, Bool.and_false]
        exact (Bool.or_false _).symm
    refine ⟨c.consulted, ?_, hsame, htracks.of_same rfl rfl fun _ => rfl⟩
    rw [reembed_of_none hread hnumber hvector, hembeds]
    rfl
  | some found =>
    obtain ⟨m, vector⟩ := found
    obtain ⟨hread', -, hlength⟩ := vectorFor_eq_some hvector
    obtain rfl : memory = m := Except.ok.inj (hread.symm.trans hread')
    have hfound : (Session.sequential R job.tenant job.encryptor).memoryFromRow e.1 e.2 =
        .ok memory := hread
    obtain ⟨hid, hversion, -⟩ := memoryFromRow_ok hfound
    have hvisible : c.consulted.own.visible job.tenant memory.id = some e.2 := by
      rw [hid, ← hrow, Database.visible, Database.visible, ← htracks.memories]
      rfl
    have hembeds : job.embeds number e = true := by rw [embeds, hvector]; rfl
    have hbreaks : job.breaks number c.unit e =
        ((job.fails (.statement c.unit (.selectCurrentVersion memory.id memory.version))).isSome ||
          (job.fails (.statement c.unit
            (.upsertSemantic memory.id memory.version job.profile vector))).isSome) := by
      rw [breaks, hvector]
      rfl
    cases hlost : c.aborted || job.breaks number c.unit e with
    | true =>
      -- the transaction is aborted, or a statement for this memory aborts it
      have hbroken := hlost
      rw [hbreaks, Bool.or_eq_true, Bool.or_eq_true] at hbroken
      obtain ⟨x, c₁, hc₁, hx⟩ :=
        attempt_upsert_error (c := c.consulted) hdim hvisible hversion.symm hbroken
      refine ⟨{ c₁ with aborted := true }, ?_, ?_⟩
      · rw [(reembed_of_some hnumber hvector).1 x _ hx, hembeds]
        rfl
      · have hsame : c₁.committed = c.committed ∧ c₁.log = c.log ∧ c₁.unit = c.unit ∧
            c₁.asked = c.asked + 1 ∧ c₁.own = c.own ∧
            ∀ i, stored c₁.written job.profile i = stored c.written job.profile i := by
          rcases List.mem_pair.mp hc₁ with rfl | rfl
          · exact ⟨rfl, rfl, rfl, rfl, rfl, fun _ => rfl⟩
          · exact ⟨rfl, rfl, rfl, rfl, rfl, stored_afterSelect (c := c.consulted)⟩
        obtain ⟨hcommitted, hlog, hunit, hasked, hown, hwritten⟩ := hsame
        refine ⟨⟨hcommitted, hlog, hunit, hasked, ?_, fun h => by cases h⟩,
          htracks.of_same hown hlog hwritten⟩
        rw [List.any_cons, List.any_nil, Bool.or_false, hlost]
    | false =>
      have hwhole := hlost
      rw [hbreaks] at hwhole
      simp only [Bool.or_eq_false_iff, Option.isSome_eq_false_iff,
        Option.isNone_iff_eq_none] at hwhole
      obtain ⟨hopen, hselect, hupsert⟩ := hwhole
      have hdone := attempt_upsert_ok (c := c.consulted) hdim hlength hvisible hversion.symm hopen
        hselect hupsert
      refine ⟨job.afterUpsert memory vector c.consulted, ?_, ⟨rfl, rfl, rfl, rfl, ?_, ?_⟩, ?_⟩
      · rw [(reembed_of_some hnumber hvector).2 _ hdone, hembeds]
        rfl
      · rw [List.any_cons, List.any_nil, Bool.or_false, hlost]
        exact hopen
      · intro _ i
        rw [stored_afterUpsert, hid, List.any_cons, hembeds]
        simp [Connection.consulted]
      · have hget : db.memories.get? memory.id = some e.2 := by
          rw [hid]
          exact (Option.filter_eq_some_iff.mp hrow).1
        have hconsulted : Tracks job db c.consulted := htracks.of_same rfl rfl fun _ => rfl
        exact hconsulted.afterUpsert hget hversion.symm

/-! ## One batch -/

theorem Handled.nil : Handled job number [] c c where
  committed := rfl
  log := rfl
  unit := rfl
  asked := rfl
  aborted := by simp
  written := by simp

/-- Rows are handled one after the other. -/
theorem Handled.cons {c₁ : Connection (Statement R) (Database R)} (h : Handled job number [e] c c₁)
    (h' : Handled job number rows c₁ c') : Handled job number (e :: rows) c c' where
  committed := h'.committed.trans h.committed
  log := h'.log.trans h.log
  unit := h'.unit.trans h.unit
  asked := by
    rw [h'.asked, h.asked]
    simp only [List.length_cons, List.length_nil]
    omega
  aborted := by
    rw [h'.aborted, h.aborted, h.unit]
    simp [Bool.or_assoc]
  written hopen i := by
    have hfirst : c₁.aborted = false := by
      have haborted := h'.aborted
      rw [hopen] at haborted
      exact (Bool.or_eq_false_iff.mp haborted.symm).1
    rw [h'.written hopen, h.written hfirst]
    simp [Bool.or_assoc]

/-- The requests for the rows are the next ones. -/
def Numbered (number : UUID × MemoryRow R → Nat) (asked : Nat) (rows : List (UUID × MemoryRow R)) :
    Prop :=
  rows.map number = List.range' asked rows.length

omit [Python R] in
/-- The first row is asked about first. -/
theorem numbered_cons {asked : Nat} :
    Numbered number asked (e :: rows) ↔ number e = asked ∧ Numbered number (asked + 1) rows := by
  unfold Numbered
  rw [List.map_cons, List.length_cons, List.range'_succ, List.cons.injEq]

omit [Python R] in
/-- The rows of a batch are numbered on from those of the batches before. -/
theorem numbered_append {asked : Nat} {rows' : List (UUID × MemoryRow R)} :
    Numbered number asked (rows ++ rows') ↔
      Numbered number asked rows ∧ Numbered number (asked + rows.length) rows' := by
  induction rows generalizing asked with
  | nil => exact (and_iff_right rfl).symm
  | cons e rows ih =>
    rw [List.cons_append, numbered_cons, ih, numbered_cons, and_assoc, List.length_cons]
    rw [show asked + 1 + rows.length = asked + (rows.length + 1) by omega]

/-- What the loop over the candidates counts. -/
theorem reembedAll_handled (hdim : job.profile.dimension = 384) {memories : List (Memory R)}
    (hread : List.Forall₂ (fun e m => job.session.memoryFromRow e.1 e.2 = .ok m) rows memories)
    (hnumbered : Numbered number c.asked rows)
    (hrows : ∀ e ∈ rows, db.visible job.tenant e.1 = some e.2) (htracks : Tracks job db c) :
    ∃ c', (job.ports.reembedAll memories).attempt c =
        (.ok (job.counters number c.unit c.aborted rows), c') ∧
      Handled job number rows c c' ∧ Tracks job db c' := by
  induction hread generalizing c with
  | nil => exact ⟨c, rfl, .nil, htracks⟩
  | @cons e m rest ms hfirst _ ih =>
    obtain ⟨hnumber, hnext⟩ := numbered_cons.mp hnumbered
    obtain ⟨c₁, hone, hhandled, htracks₁⟩ :=
      reembed_handled hdim htracks hnumber (hrows e List.mem_cons_self) hfirst
    obtain ⟨c₂, hmore, hhandled', htracks₂⟩ :=
      ih (by rwa [hhandled.asked]) (fun e' he' => hrows e' (List.mem_cons_of_mem _ he')) htracks₁
    refine ⟨c₂, ?_, hhandled.cons hhandled', htracks₂⟩
    refine (Linked.attempt_bind_of_ok hone).trans ((Linked.attempt_bind_of_ok hmore).trans ?_)
    rw [hhandled.unit, hhandled.aborted, List.any_cons, List.any_nil, Bool.or_false]
    rfl

/-! ## The listing -/

section Listing

variable {ownerId : String} {cursor : Option UUID}

omit [Python R] in
theorem idLe_iff {a b : UUID × MemoryRow R} : Database.idLe a b = true ↔ a.1.int ≤ b.1.int :=
  decide_eq_true_iff

/-- The eligible rows are a listing by identifier. -/
theorem eligibleRows_eq :
    job.eligibleRows db ownerId cursor
      = listing (fun e => e.1.int) (db.eligible job.tenant ownerId) (cursor.map UUID.int) := by
  unfold eligibleRows listing
  rw [← List.map_id (List.insertionSort _ _),
    List.map_insertionSort (fun a b => Database.idLe a b = true)
      (fun a b : UUID × MemoryRow R => a.1.int ≤ b.1.int) id _ fun _ _ _ _ => idLe_iff, List.map_id]
  simp only [Option.all_map]

/-- Ids are ordered by their numbers, without ties. -/
theorem uuid_int_injective : Function.Injective UUID.int := by
  rintro ⟨a⟩ ⟨b⟩ h
  exact congrArg UUID.mk h

omit [Python R] in
/-- An identifier has one row at most. -/
theorem nodup_eligible {tenant : Option UUID} :
    ((db.eligible tenant ownerId).map fun e => e.1.int).Nodup := by
  have hids : ((db.eligible tenant ownerId).map Prod.fst).Nodup :=
    db.memories.nodup.sublist ((List.filter_sublist.trans List.filter_sublist).map Prod.fst)
  have hints := hids.map uuid_int_injective
  rwa [List.map_map] at hints

/-- An eligible row is visible to the tenant of the job. -/
theorem visible_of_mem_eligibleRows (h : e ∈ job.eligibleRows db ownerId cursor) :
    db.visible job.tenant e.1 = some e.2 := by
  have hfiltered := (List.mem_insertionSort _).mp h
  have howned := List.mem_of_mem_filter (List.mem_of_mem_filter hfiltered)
  obtain ⟨hitem, htenant⟩ := List.mem_filter.mp howned
  rw [Bool.and_eq_true] at htenant
  exact Option.filter_eq_some_iff.mpr ⟨(Dict.mem_items_iff _ _ _).mp hitem, htenant.1⟩

/-- The identifiers of the listing increase. -/
theorem eligibleRows_increasing :
    (job.eligibleRows db ownerId cursor).Pairwise fun a b => a.1.int < b.1.int := by
  rw [eligibleRows_eq]
  exact listing_increasing nodup_eligible _

/-- After a page, the listing goes on with the rest. -/
theorem eligibleRows_after {n : Nat}
    (hlast : ((job.eligibleRows db ownerId cursor).take n).getLast? = some e) :
    job.eligibleRows db ownerId (some e.1) = (job.eligibleRows db ownerId cursor).drop n := by
  rw [eligibleRows_eq] at hlast ⊢
  rw [eligibleRows_eq]
  exact listing_after nodup_eligible hlast

/-- `list_for_reembedding` reads the first page of the listing. -/
theorem listForReembedding_ok {limit : Int} {memories : List (Memory R)}
    (h : (listForReembedding job.session ownerId cursor limit).attempt c = (.ok memories, c')) :
    c.aborted = false ∧ List.Forall₂ (fun e m => job.session.memoryFromRow e.1 e.2 = .ok m)
        ((job.eligibleRows c.own ownerId cursor).take limit.toNat) memories ∧
      c' = { c with written := c.written ++ [.selectForReembedding ownerId cursor limit] } := by
  obtain ⟨_, c₁, howner, h⟩ := Linked.bind_ok.mp h
  rw [Linked.attempt_ofExcept] at howner
  obtain ⟨-, rfl⟩ := Prod.mk.inj howner
  obtain ⟨found, c₂, hselect, hmap⟩ := Linked.bind_ok.mp h
  rw [Linked.attempt_ofExcept] at hmap
  obtain ⟨hopen, own, hrun, rfl⟩ := Server.execute_ok hselect
  obtain ⟨rfl, rfl⟩ := Prod.mk.inj (Except.ok.inj hrun)
  obtain ⟨hread, rfl⟩ := Prod.mk.inj hmap
  exact ⟨hopen, mapM_ok.mp hread, rfl⟩

end Listing

end EmbeddingReembeddingJob

end OpenMemory.Postgres
