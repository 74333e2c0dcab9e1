import OpenMemory.Postgres.Bodies
import OpenMemory.Postgres.Programs

/-!
# Updates, confirmations and pins, statement by statement

The three mutations of a memory have one shape: read the row at the expected version, make the
next version of it, replace the row with an `UPDATE` that compares the version again, insert the
snapshot and rewrite the vector. `RevisionIssues` says which statements such a transaction issues
on the tables of memories, and what it has read and written before each of them; the statements
on other tables are `plain`. `RevisionEnds` says what it returns.
-/

namespace OpenMemory.Postgres

open Lib Lib.Prog
open MonadExcept (ofExcept)
open MemoryApplicationService

variable {R : Type} [Python R]

/-- The statement holds no row of the tables of memories. -/
def Statement.plain (q : Statement R) : Bool :=
  q.kinds.all fun k => decide (k ∉ [RowKind.memory, .version, .embedding, .semantic])

omit [Python R] in
theorem not_mem_locks_of_plain {tenant : Option UUID} {q : Statement R} (hq : q.plain = true)
    {db : Database R} {k : RowKey} (hk : k.kind ∈ [RowKind.memory, .version, .embedding, .semantic]) :
    k ∉ q.locks tenant db := by
  refine not_mem_locks fun hkind => ?_
  have hout := List.all_eq_true.mp hq _ hkind
  exact of_decide_eq_true hout hk

/-- A change of one memory: whose and which it is, at which version, and what the command makes
of the memory that it reads. -/
structure Revision (R : Type) [Python R] where
  ownerId : String
  memoryId : UUID
  expectedVersion : Int
  makes : Memory R → Memory R → Prop

/-- The change that a transaction is for. -/
def Transaction.revision (t : Transaction R) : Option (Revision R) :=
  match t.work with
  | .request (.update c) => some
      { ownerId := c.ownerId, memoryId := c.memoryId, expectedVersion := c.expectedVersion
        makes := fun m m' => ∃ at_ d, t.profile.descriptor = .ok d ∧
          m.evolve (updateArgs c at_ d) = .ok m' }
  | .request (.confirmCandidate c) => some
      { ownerId := c.ownerId, memoryId := c.memoryId, expectedVersion := c.expectedVersion
        makes := fun m m' => ∃ at_ d, t.profile.descriptor = .ok d ∧
          m.evolve { now := at_, state := some .confirmed, changeReason := c.actorReason
                     embedding := some (some d), content := c.content
                     memoryType := c.memoryType, space := c.space.map some } = .ok m' }
  | .request (.pin c) => some
      { ownerId := c.ownerId, memoryId := c.memoryId, expectedVersion := c.expectedVersion
        makes := fun m m' => ∃ at_, m.evolve
          { now := at_, state := some (if c.pinned then .pinned else .confirmed)
            changeReason := if c.pinned then "pinned" else "unpinned" } = .ok m' }
  | _ => none

variable {t : Transaction R} {encryptor : Option TenantEnvelopeEncryptor} {rev : Revision R}
  {trace : Trace R}

/-- What is made is the next version. -/
theorem Revision.evolved (h : t.revision = some rev) {m m' : Memory R} (hmakes : rev.makes m m') :
    ∃ args, Memory.Evolved m args m' := by
  unfold Transaction.revision at h
  split at h
  · obtain rfl := Option.some.inj h
    obtain ⟨at_, d, -, hevolve⟩ := hmakes
    exact ⟨_, Memory.evolve_ok hevolve⟩
  · obtain rfl := Option.some.inj h
    obtain ⟨at_, d, -, hevolve⟩ := hmakes
    exact ⟨_, Memory.evolve_ok hevolve⟩
  · obtain rfl := Option.some.inj h
    obtain ⟨at_, hevolve⟩ := hmakes
    exact ⟨_, Memory.evolve_ok hevolve⟩
  · cases h

/-! ## Issues -/

/-- The transaction has read the memory at the expected version, and this is the row that it
stores of what it makes of it. -/
structure Drafted (t : Transaction R) (encryptor : Option TenantEnvelopeEncryptor)
    (rev : Revision R) (trace : Trace R) (m m' : Memory R) (row : MemoryRow R) : Prop where
  read : ∃ s old, (Statement.selectMemory rev.ownerId rev.memoryId, s) ∈ trace ∧
    s.owned t.tenant rev.ownerId rev.memoryId = some old ∧
    (Session.sequential R t.tenant encryptor).memoryFromRow rev.memoryId old = .ok m
  version : m.version = rev.expectedVersion
  makes : rev.makes m m'
  encoded : (Session.sequential R t.tenant encryptor).memoryValues m' none = .ok row

/-- The `UPDATE` of the row. -/
def Revision.updating (rev : Revision R) (m' : Memory R) (row : MemoryRow R) : Statement R :=
  .updateMemory m'.id m'.ownerId rev.expectedVersion row.toMemoryValues

/-- The `UPDATE` found the row. -/
def Revised (t : Transaction R) (rev : Revision R) (trace : Trace R) (m' : Memory R)
    (row : MemoryRow R) : Prop :=
  ∃ s, (rev.updating m' row, s) ∈ trace ∧
    (s.updateMemory t.tenant m'.id m'.ownerId rev.expectedVersion row.toMemoryValues).1 = 1

/-- What the transaction may issue. -/
inductive RevisionIssues (t : Transaction R) (encryptor : Option TenantEnvelopeEncryptor)
    (rev : Revision R) (trace : Trace R) : Statement R → Prop
  | plain {q : Statement R} (h : q.plain = true) : RevisionIssues t encryptor rev trace q
  | updateMemory {m m' : Memory R} {row : MemoryRow R}
      (drafted : Drafted t encryptor rev trace m m' row) (first : ∀ e ∈ trace, e.1.plain = true) :
      RevisionIssues t encryptor rev trace (rev.updating m' row)
  | insertVersions {m m' : Memory R} {row : MemoryRow R} {reason : String}
      {entry : (UUID × Int) × VersionRow R} (drafted : Drafted t encryptor rev trace m m' row)
      (revised : Revised t rev trace m' row)
      (encoded : (Session.sequential R t.tenant encryptor).versionValues (m'.snapshot reason)
        = .ok entry) : RevisionIssues t encryptor rev trace (.insertVersions [entry])
  | updateEmbedding {m m' : Memory R} {row : MemoryRow R} {vector : List R}
      {table : EmbeddingTable} {values : EmbeddingValues R}
      (drafted : Drafted t encryptor rev trace m m' row) (revised : Revised t rev trace m' row)
      (embedded : t.service.embeddingProvider.embed m'.content false = .ok vector)
      (chosen : tableOf m' = .ok table)
      (described : (Session.sequential R t.tenant encryptor).embeddingValues m' vector
        = .ok values) : RevisionIssues t encryptor rev trace (.updateEmbedding table m'.id values)

/-- A transaction that returns has replaced the row by what it returns, or has written nothing to
the tables of memories. -/
def RevisionEnds (t : Transaction R) (encryptor : Option TenantEnvelopeEncryptor)
    (rev : Revision R) (trace : Trace R) (r : Except PyError (Memory R)) : Prop :=
  ∀ m', r = .ok m' → (∀ e ∈ trace, e.1.plain = true) ∨
    ∃ m row, Drafted t encryptor rev trace m m' row ∧ Revised t rev trace m' row

theorem Drafted.mono {m m' : Memory R} {row : MemoryRow R} {trace' : Trace R}
    (h : Drafted t encryptor rev trace m m' row) (hsub : ∀ e ∈ trace, e ∈ trace') :
    Drafted t encryptor rev trace' m m' row := by
  obtain ⟨s, old, hread, hrest⟩ := h.read
  exact ⟨⟨s, old, hsub _ hread, hrest⟩, h.version, h.makes, h.encoded⟩

theorem Revised.mono {m' : Memory R} {row : MemoryRow R} {trace' : Trace R}
    (h : Revised t rev trace m' row) (hsub : ∀ e ∈ trace, e ∈ trace') :
    Revised t rev trace' m' row := by
  obtain ⟨s, hs, hone⟩ := h
  exact ⟨s, hsub _ hs, hone⟩

theorem revisionEnds_error (e : PyError) : RevisionEnds t encryptor rev trace (.error e) :=
  fun m' hm' => by cases hm'

/-! ## Bodies -/

/-- The repository's `update`, called with what the transaction made of the memory that it read. -/
theorem meets_repositoryUpdate {m m' : Memory R} {reason : String} {vector : List R}
    (hdrafted : ∀ row, (Session.sequential R t.tenant encryptor).memoryValues m' none = .ok row →
      Drafted t encryptor rev trace m m' row)
    (hfirst : ∀ e ∈ trace, e.1.plain = true)
    (hembedded : t.service.embeddingProvider.embed m'.content false = .ok vector) :
    Meets (fun q => q.run t.tenant) (RevisionIssues t encryptor rev)
      (fun trace' r => ∀ r', r = .ok r' → r' = m' ∧
        ∃ row, Drafted t encryptor rev trace' m m' row ∧ Revised t rev trace' m' row) trace
      (PostgresMemoryRepository.update (Session.interleaved R t.tenant encryptor) m'
        rev.expectedVersion (m'.snapshot reason) vector) := by
  refine meets_ofExcept_bind (fun e _ r' hr' => by cases hr') fun _ _ => ?_
  refine meets_ofExcept_bind (fun e _ r' hr' => by cases hr') fun row hrow => ?_
  have hdraft := hdrafted row hrow
  refine meets_statement_bind (.updateMemory hdraft hfirst) fun s (rowcount : Nat) s' hrun => ?_
  have hcount : (s.updateMemory t.tenant m'.id m'.ownerId rev.expectedVersion
      row.toMemoryValues).1 = rowcount := congrArg Prod.fst (Except.ok.inj hrun)
  refine meets_ite (fun _ => ?_) fun hone => ?_
  · -- no row at the version: the read that follows only picks the exception
    refine (within_get (K := fun q => q.plain = true) rfl).meets_bind (fun _ _ h => .plain h) ?_
      fun _ e _ r' hr' => by cases hr'
    intro t₁ current _
    refine meets_raiseIf_bind (fun _ r' hr' => by cases hr') fun _ => ?_
    refine meets_done.mpr fun r' hr' => ?_
    cases hr'
  · have hrevised : Revised t rev (trace ++ [(rev.updating m' row, s)]) m' row :=
      ⟨s, List.mem_append_right _ (List.mem_singleton_self _), hcount.trans (not_not.mp hone)⟩
    have hdraft' := hdraft.mono fun e he => List.mem_append_left [(rev.updating m' row, s)] he
    refine meets_ofExcept_bind (fun e _ r' hr' => by cases hr') fun entry hentry => ?_
    refine meets_statement_bind (.insertVersions hdraft' hrevised hentry) fun s₂ _ s₃ _ => ?_
    have hsub : ∀ e ∈ trace ++ [(rev.updating m' row, s)],
        e ∈ trace ++ [(rev.updating m' row, s)] ++ [(Statement.insertVersions [entry], s₂)] :=
      fun e he => List.mem_append_left _ he
    refine meets_ofExcept_bind (fun e _ r' hr' => by cases hr') fun table htable => ?_
    refine meets_ofExcept_bind (fun e _ r' hr' => by cases hr') fun values hvalues => ?_
    refine meets_statement_bind (.updateEmbedding (hdraft'.mono hsub) (hrevised.mono hsub) hembedded
      htable hvalues) fun s₄ _ s₅ _ => ?_
    refine meets_pure.mpr fun r' hr' => ?_
    obtain rfl := Except.ok.inj hr'
    have hsub' := fun e he => List.mem_append_left
      [(Statement.updateEmbedding table m'.id values, s₄)] (hsub e he)
    exact ⟨rfl, row, hdraft'.mono hsub', hrevised.mono hsub'⟩

/-- What a body that returns has done: it read the memory and replaced its row. -/
def BodyEnds (t : Transaction R) (encryptor : Option TenantEnvelopeEncryptor) (rev : Revision R)
    (trace : Trace R) (r : Except PyError (Memory R)) : Prop :=
  ∀ m', r = .ok m' →
    ∃ m row, Drafted t encryptor rev trace m m' row ∧ Revised t rev trace m' row

theorem BodyEnds.error (e : PyError) : BodyEnds t encryptor rev trace (.error e) :=
  fun m' hm' => by cases hm'

omit [Python R] in
theorem plain_extends {trace' : Trace R} (hplain : ∀ e ∈ trace, e.1.plain = true)
    (h : Extends (fun q : Statement R => q.plain = true) trace trace') :
    ∀ e ∈ trace', e.1.plain = true := by
  obtain ⟨more, rfl, hmore⟩ := h
  intro e he
  rcases List.mem_append.mp he with he | he
  · exact hplain e he
  · exact hmore e he

/-- The row has been read, and only plain statements were issued since. -/
structure Reading (t : Transaction R) (encryptor : Option TenantEnvelopeEncryptor)
    (rev : Revision R) (trace : Trace R) (m : Memory R) : Prop where
  read : ∃ s old, (Statement.selectMemory rev.ownerId rev.memoryId, s) ∈ trace ∧
    s.owned t.tenant rev.ownerId rev.memoryId = some old ∧
    (Session.sequential R t.tenant encryptor).memoryFromRow rev.memoryId old = .ok m
  version : m.version = rev.expectedVersion
  first : ∀ e ∈ trace, e.1.plain = true

theorem Reading.extends {m : Memory R} {trace' : Trace R} (h : Reading t encryptor rev trace m)
    (ht : Extends (fun q : Statement R => q.plain = true) trace trace') :
    Reading t encryptor rev trace' m := by
  obtain ⟨s, old, hread, hrest⟩ := h.read
  exact ⟨⟨s, old, ht.mem hread, hrest⟩, h.version, plain_extends h.first ht⟩

theorem Reading.drafted {m m' : Memory R} (h : Reading t encryptor rev trace m)
    (hmakes : rev.makes m m') {row : MemoryRow R}
    (hrow : (Session.sequential R t.tenant encryptor).memoryValues m' none = .ok row) :
    Drafted t encryptor rev trace m m' row :=
  ⟨h.read, h.version, hmakes, hrow⟩

/-- The read of the memory, and what follows it. -/
theorem meets_reading {Φ : Trace R → Except PyError (Memory R) → Prop} {tenantId : Option String}
    {message : Memory R → String} {f : Memory R → DbProg R (Memory R)}
    (hplain : ∀ e ∈ trace, e.1.plain = true) (herror : ∀ t e, Φ t (.error e))
    (hok : ∀ trace' m, Reading t encryptor rev trace' m →
      Meets (fun q => q.run t.tenant) (RevisionIssues t encryptor rev) Φ trace' (f m)) :
    Meets (fun q => q.run t.tenant) (RevisionIssues t encryptor rev) Φ trace
      (currentAt (postgresUnitOfWork (Session.interleaved R t.tenant encryptor)) rev.ownerId
        tenantId rev.memoryId rev.expectedVersion message >>= f) := by
  refine (meets_currentAt (.plain rfl)).bind ?_ fun t e _ => herror t e
  intro t₁ m hcurrents
  obtain ⟨s, old, rfl, howned, hmemory, hversion⟩ := hcurrents.of_ok
  refine hok _ m ⟨⟨s, old, List.mem_append_right _ (List.mem_singleton_self _), howned, hmemory⟩,
    hversion, ?_⟩
  intro e he
  rcases List.mem_append.mp he with he | he
  · exact hplain e he
  · rw [List.mem_singleton.mp he]
    rfl

/-- The vector that a checked embedding returns. -/
theorem meets_embedChecked_bind {Φ : Trace R → Except PyError (Memory R) → Prop}
    {P : Trace R → Statement R → Prop}
    {run : (q : Statement R) → Database R → Except PyError (q.Result × Database R)}
    {svc : MemoryApplicationService R} {text : String} {f : List R → DbProg R (Memory R)}
    (herror : ∀ e, Φ trace (.error e))
    (hok : ∀ vector, svc.embeddingProvider.embed text false = .ok vector →
      Meets run P Φ trace (f vector)) :
    Meets run P Φ trace (svc.embedChecked text false >>= f) := by
  have hchecked : Meets run P (fun trace' r => trace' = trace ∧ ∀ vector, r = .ok vector →
      svc.embeddingProvider.embed text false = .ok vector) trace
      (svc.embedChecked text false : DbProg R (List R)) := by
    refine meets_ofExcept_bind (fun e _ => ⟨rfl, fun v hv => by cases hv⟩) fun vector hvector => ?_
    refine meets_raiseIf_bind (fun _ => ⟨rfl, fun v hv => by cases hv⟩) fun _ => ?_
    refine meets_pure.mpr ⟨rfl, fun v hv => ?_⟩
    obtain rfl := Except.ok.inj hv
    exact hvector
  refine hchecked.bind ?_ ?_
  · rintro t vector ⟨rfl, hvector⟩
    exact hok vector (hvector vector rfl)
  · rintro t e ⟨rfl, -⟩
    exact herror e

/-- Plain statements may follow a body that returns. -/
theorem meets_after_body {x : DbProg R (Memory R)} {f : Memory R → DbProg R (Memory R)}
    (hx : Meets (fun q => q.run t.tenant) (RevisionIssues t encryptor rev)
      (BodyEnds t encryptor rev) trace x)
    (hf : ∀ m', ∃ y : DbProg R Unit, Within (fun q => q.plain = true) y ∧
      f m' = y >>= fun _ => pure m') :
    Meets (fun q => q.run t.tenant) (RevisionIssues t encryptor rev) (BodyEnds t encryptor rev)
      trace (x >>= f) := by
  refine hx.bind ?_ fun t e _ => .error e
  intro t₁ m' hends
  obtain ⟨m, row, hdrafted, hrevised⟩ := hends m' rfl
  obtain ⟨y, hy, hfy⟩ := hf m'
  rw [hfy]
  refine hy.meets_bind (fun _ _ h => .plain h) ?_ fun t e _ => .error e
  intro t₂ _ ht₂
  refine meets_pure.mpr fun m'' hm'' => ?_
  obtain rfl := Except.ok.inj hm''
  exact ⟨m, row, hdrafted.mono fun _ => ht₂.mem, hrevised.mono fun _ => ht₂.mem⟩

theorem meets_updateBody {c : UpdateMemoryCommand R} (hwork : t.work = .request (.update c))
    (hrev : t.revision = some rev) (hplain : ∀ e ∈ trace, e.1.plain = true) :
    Meets (fun q => q.run t.tenant) (RevisionIssues t encryptor rev) (BodyEnds t encryptor rev)
      trace (t.service.updateBody (postgresUnitOfWork (Session.interleaved R t.tenant encryptor))
        c) := by
  unfold Transaction.revision at hrev
  rw [hwork] at hrev
  obtain rfl := Option.some.inj hrev
  refine meets_reading hplain (fun t e => .error e) fun t₁ m hreading => ?_
  refine meets_ofExcept_bind (fun e _ => .error e) fun at_ _ => ?_
  refine meets_raiseIf_bind (fun _ => .error _) fun _ => ?_
  refine (within_checkRelated fun _ _ => rfl).meets_bind (fun _ _ h => .plain h) ?_
    fun t e _ => .error e
  intro t₂ _ ht₂
  have hreading₂ := hreading.extends ht₂
  refine meets_ofExcept_bind (fun e _ => .error e) fun d hd => ?_
  refine meets_ofExcept_bind (fun e _ => .error e) fun m' hm' => ?_
  refine meets_embedChecked_bind (fun e => .error e) fun vector hvector => ?_
  have hcontent : (if m'.content ≠ m.content then m'.content else m.content) = m'.content := by
    split
    · rfl
    · rename_i hsame
      exact (not_not.mp hsame).symm
  rw [hcontent] at hvector
  refine meets_after_body (f := fun persisted => t.service.storeRelation
    (postgresUnitOfWork (Session.interleaved R t.tenant encryptor)) c.ownerId persisted.id
      (requestedRelation c) >>= fun _ => pure persisted) ?_ fun persisted =>
        ⟨_, within_storeRelation (fun _ _ => rfl) fun _ => rfl, rfl⟩
  refine (meets_repositoryUpdate (fun row hrow => hreading₂.drafted ⟨at_, d, hd, hm'⟩ hrow)
    hreading₂.first hvector).mono fun t r hr r' hr' => ?_
  obtain ⟨rfl, row, hdone⟩ := hr r' hr'
  exact ⟨m, row, hdone⟩

theorem BodyEnds.revisionEnds {r : Except PyError (Memory R)} (h : BodyEnds t encryptor rev trace r) :
    RevisionEnds t encryptor rev trace r := by
  intro m' hm'
  exact .inr (h m' hm')

/-- A program of plain statements that returns has written nothing. -/
theorem meets_plain {x : DbProg R (Memory R)} (hx : Within (fun q : Statement R => q.plain = true) x)
    (hplain : ∀ e ∈ trace, e.1.plain = true) :
    Meets (fun q => q.run t.tenant) (RevisionIssues t encryptor rev)
      (RevisionEnds t encryptor rev) trace x := by
  refine (meets_true.within hx fun _ _ _ h => .plain h).mono ?_
  rintro t' r ⟨ht', -⟩ m' -
  exact .inl (plain_extends hplain ht')

/-- A body under the ledger: a replay, or the body and the completion of the claim. -/
theorem meets_ledgeredBody {o k fp status : String} {op : IdempotencyOperationType}
    {replay : IdempotencyClaim → DbProg R (Memory R)} {body : DbProg R (Memory R)}
    (hreplay : ∀ claim, Within (fun q : Statement R => q.plain = true) (replay claim))
    (hbody : ∀ trace : Trace R, (∀ e ∈ trace, e.1.plain = true) →
      Meets (fun q => q.run t.tenant) (RevisionIssues t encryptor rev) (BodyEnds t encryptor rev)
        trace body) :
    Meets (fun q => q.run t.tenant) (RevisionIssues t encryptor rev)
      (RevisionEnds t encryptor rev) []
      (PostgresIdempotencyRepository.claim (Session.interleaved R t.tenant encryptor) o op k fp >>=
        fun claim => if claim.replay then replay claim else body >>= fun persisted =>
          PostgresIdempotencyRepository.complete (Session.interleaved R t.tenant encryptor) claim
            (some persisted.id) (some persisted.version) status >>= fun _ => pure persisted) := by
  refine (within_claim (K := fun q => q.plain = true) rfl rfl).meets_bind (fun _ _ h => .plain h) ?_
    fun t e _ => revisionEnds_error e
  intro t₁ claim ht₁
  have hplain := plain_extends (fun e he => by cases he) ht₁
  refine meets_ite (fun _ => meets_plain (hreplay claim) hplain) fun _ => ?_
  refine (meets_after_body (hbody t₁ hplain) fun persisted => ⟨_, within_complete rfl, rfl⟩).mono ?_
  exact fun _ _ hends => hends.revisionEnds

theorem meets_revising {c : UpdateMemoryCommand R} (hwork : t.work = .request (.update c))
    (hrev : t.revision = some rev) :
    Meets (fun q => q.run t.tenant) (RevisionIssues t encryptor rev)
      (RevisionEnds t encryptor rev) []
      (t.service.update (postgresUnitOfWork (Session.interleaved R t.tenant encryptor)) c) := by
  refine meets_ofExcept_bind (fun e _ => revisionEnds_error e) fun _ _ => ?_
  cases truthyKey c.idempotencyKey with
  | none =>
    refine (meets_updateBody hwork hrev fun e he => by cases he).mono ?_
    exact fun _ _ hends => hends.revisionEnds
  | some key =>
    refine meets_ledgeredBody (fun claim => ?_) fun _ hplain => meets_updateBody hwork hrev hplain
    exact within_replayVersion (fun _ => rfl) fun _ _ => rfl

end OpenMemory.Postgres
