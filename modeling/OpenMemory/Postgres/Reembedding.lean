import OpenMemory.Postgres.Bounds
import OpenMemory.Postgres.Discard
import OpenMemory.Postgres.Revisions

/-!
# Re-embedding, among updates

A batch of the re-embedding job asks whether a memory is still at the version that it was listed
at, and then upserts its vector, whatever the row of the index holds by then. An update that
commits between the two statements is overwritten by the vector of the older content
(`reembedding_regresses`). That is the only way: in every run in which no update commits a memory
between the check of a batch and its upsert, the source versions of the index do not decrease, and
a row that is current is only replaced by one that is current again (`reembedding_advances`).
-/

namespace OpenMemory.Postgres

open Lib Lib.Prog
open MonadExcept (ofExcept)
open PostgresMemoryRepository

variable {R : Type} [Python R]

/-! ## The body of a batch -/

/-- The answer of the check: the memory is at the version. -/
def atVersion (tenant : Option UUID) (i : UUID) (v : Int) (db : Database R) : Bool :=
  someAnd (fun row : MemoryRow R => decide (row.version = v)) (db.visible tenant i)

omit [Python R] in
/-- The SELECT of the current version finds a row at that version. -/
theorem atVersion_iff {tenant : Option UUID} {i : UUID} {v : Int} {db : Database R} :
    atVersion tenant i v db = true ↔ ∃ row, db.visible tenant i = some row ∧ row.version = v := by
  unfold atVersion
  cases db.visible tenant i with
  | none => simp [someAnd]
  | some row => simp [someAnd]

/-- The batch has listed the memory at the version, and the vector is that of its content. -/
def ListedAs (t : Transaction R) (encryptor : Option TenantEnvelopeEncryptor) (trace : Trace R)
    (i : UUID) (v : Int) (vector : List R) : Prop :=
  ∃ e ∈ trace, ∃ row m, e.2.memories.get? i = some row ∧
    (Session.sequential R t.tenant encryptor).memoryFromRow i row = .ok m ∧ m.version = v ∧
    t.service.embeddingProvider.embed m.content false = .ok vector

/-- What a batch may issue: reads, and an upsert right after the check of its memory. -/
inductive BatchIssues (t : Transaction R) (encryptor : Option TenantEnvelopeEncryptor)
    (trace : Trace R) : Statement R → Prop
  | reads {q : Statement R} (h : q.kinds = []) : BatchIssues t encryptor trace q
  | upsert {i : UUID} {v : Int} {vector : List R} {s : Database R}
      (checked : trace.getLast? = some (.selectCurrentVersion i v, s))
      (found : atVersion t.tenant i v s = true) (listed : ListedAs t encryptor trace i v vector) :
      BatchIssues t encryptor trace (.upsertSemantic i v t.profile vector)

section Body

variable {t : Transaction R} {encryptor : Option TenantEnvelopeEncryptor} {trace : Trace R}

/-- The memory is one that the batch has listed. -/
def IsListed (t : Transaction R) (encryptor : Option TenantEnvelopeEncryptor) (trace : Trace R)
    (m : Memory R) : Prop :=
  ∃ e ∈ trace, ∃ row, e.2.memories.get? m.id = some row ∧
    (Session.sequential R t.tenant encryptor).memoryFromRow m.id row = .ok m

/-- A memory that was listed stays listed. -/
theorem IsListed.mono {trace' : Trace R} {m : Memory R} (h : IsListed t encryptor trace m)
    (hsub : ∀ e ∈ trace, e ∈ trace') : IsListed t encryptor trace' m := by
  obtain ⟨e, he, hrest⟩ := h
  exact ⟨e, hsub e he, hrest⟩

/-- Re-embedding a listed memory issues what a batch may issue. -/
theorem meets_reembed {m : Memory R} (hlisted : IsListed t encryptor trace m) :
    Meets (fun q => q.run t.tenant) (BatchIssues t encryptor)
      (fun trace' _ => ∀ e ∈ trace, e ∈ trace') trace
      (EmbeddingReembeddingJob.reembed t.service.embeddingProvider
        (Session.interleaved R t.tenant encryptor) m) := by
  refine Meets.handle (Ψ := fun trace' _ => ∀ e ∈ trace, e ∈ trace') ?_ (fun _ _ h => h)
    fun _ _ h => meets_pure.mpr h
  refine meets_ofExcept_bind (fun _ _ _ he => he) fun vector hvector => ?_
  refine meets_raiseIf_bind (fun _ _ he => he) fun _ => ?_
  refine Meets.bind (Ψ := fun trace' _ => ∀ e ∈ trace, e ∈ trace') ?_
    (fun _ _ h => meets_pure.mpr h) fun _ _ h => h
  refine meets_raiseIf_bind (fun _ _ he => he) fun _ => ?_
  refine meets_statement_bind (.reads rfl) fun s found s' hrun => ?_
  obtain ⟨rfl, -⟩ := Prod.mk.inj (Except.ok.inj hrun)
  have hsub : ∀ e ∈ trace, e ∈ trace ++ [(Statement.selectCurrentVersion m.id m.version, s)] :=
    fun e he => List.mem_append_left _ he
  refine meets_ite (fun hfound => ?_) fun _ => meets_pure.mpr hsub
  refine meets_statement_bind (.upsert List.getLast?_concat hfound ?_) fun s₂ _ s₃ _ => ?_
  · obtain ⟨e, he, row, hrow, hread⟩ := hlisted
    exact ⟨e, hsub e he, row, m, hrow, hread, rfl, hvector⟩
  · exact meets_pure.mpr fun e he => List.mem_append_left _ (hsub e he)

/-- So does re-embedding all of them. -/
theorem meets_reembedAll {memories : List (Memory R)}
    (hlisted : ∀ m ∈ memories, IsListed t encryptor trace m) :
    Meets (fun q => q.run t.tenant) (BatchIssues t encryptor) (fun _ _ => True) trace
      (EmbeddingReembeddingJob.reembedAll t.service.embeddingProvider
        (Session.interleaved R t.tenant encryptor) memories) := by
  induction memories generalizing trace with
  | nil => exact meets_pure.mpr trivial
  | cons m rest ih =>
    refine (meets_reembed (hlisted m List.mem_cons_self)).bind ?_ fun _ _ _ => trivial
    intro t₁ counter hsub
    refine (ih fun m' hm' => (hlisted m' (List.mem_cons_of_mem _ hm')).mono hsub).bind ?_
      fun _ _ _ => trivial
    exact fun _ _ _ => meets_pure.mpr trivial

/-- And so does the batch, from its listing on. -/
theorem meets_batch {o : String} {cursor : Option UUID} {batchSize : Int} {dryRun : Bool} :
    Meets (fun q => q.run t.tenant) (BatchIssues t encryptor) (fun _ _ => True) []
      (EmbeddingReembeddingJob.batch t.service.embeddingProvider
        (Session.interleaved R t.tenant encryptor) o cursor batchSize dryRun) := by
  refine meets_ofExcept_bind (fun _ _ => trivial) fun _ _ => ?_
  refine meets_raiseIf_bind (fun _ => trivial) fun _ => ?_
  refine meets_raiseIf_bind (fun _ => trivial) fun _ => ?_
  refine Meets.bind (Ψ := fun trace' r => ∀ memories, r = .ok memories →
    ∀ m ∈ memories, IsListed t encryptor trace' m) ?_ ?_ fun _ _ _ => trivial
  -- the SELECT of the batch: what is listed was decoded from a row of the statement
  · refine meets_ofExcept_bind (fun _ _ _ h => by cases h) fun _ _ => ?_
    refine meets_statement_bind (.reads rfl) fun s rows s' hrun => ?_
    obtain ⟨rfl, -⟩ := Prod.mk.inj (Except.ok.inj hrun)
    refine meets_ofExcept.mpr fun memories hmemories m hm => ?_
    obtain ⟨⟨i, row⟩, hmem, hread⟩ := mem_of_mapM_ok hmemories hm
    replace hread : (Session.sequential R t.tenant encryptor).memoryFromRow i row = .ok m := hread
    have hid : m.id = i := (memoryFromRow_ok hread).1
    have hitem := List.mem_of_mem_take hmem
    rw [List.mem_insertionSort] at hitem
    have hget := (Dict.mem_items_iff _ _ _).mp
      (List.mem_filter.mp (List.mem_filter.mp (List.mem_filter.mp hitem).1).1).1
    refine ⟨_, List.mem_append_right _ (List.mem_singleton_self _), row, ?_, ?_⟩
    · rw [hid]
      exact hget
    · rw [hid]
      exact hread
  -- a dry run issues nothing more
  · intro t₁ memories hlisted
    exact meets_ite (fun _ => meets_pure.mpr trivial) fun _ => meets_reembedAll (hlisted _ rfl)

end Body

/-! ## The index moves forward -/

/-- The key of the index for a memory and a profile. -/
def semanticKey (profile : EmbeddingProfile) (i : UUID) : SemanticKey :=
  (i, profile.id, profile.version)

namespace Database

/-- Memories stay, and change with their version only. -/
def Grows (db db' : Database R) : Prop :=
  ∀ i row, db.memories.get? i = some row →
    ∃ row', db'.memories.get? i = some row' ∧ (row' = row ∨ row.version < row'.version)

omit [Python R] in
/-- Versions grow from one step to the next. -/
theorem Grows.trans {db db₁ db' : Database R} (h : db.Grows db₁) (h' : db₁.Grows db') :
    db.Grows db' := by
  intro i row hrow
  obtain ⟨row₁, hrow₁, hnext⟩ := h i row hrow
  obtain ⟨row', hrow', hlast⟩ := h' i row₁ hrow₁
  refine ⟨row', hrow', ?_⟩
  rcases hnext with rfl | hnext
  · exact hlast
  · rcases hlast with rfl | hlast
    · exact .inr hnext
    · exact .inr (lt_trans hnext hlast)

end Database

/-- The provider of the transaction computes the vector of the content of the row, which every
read normalises. -/
def Computes (encryptor : Option TenantEnvelopeEncryptor) (t : Transaction R) (i : UUID)
    (row : MemoryRow R) (vector : List R) : Prop :=
  ∀ content, Opens encryptor i row content →
    t.service.embeddingProvider.embed (collapse content) false = .ok vector

/-- What a transaction that holds a row of the index stores there. For the profile, the row is not
ahead of its memory, not behind the committed row, current if the transaction changes the memory
and, if current, computed from the content; rows of other profiles are removed. -/
def Stores (encryptor : Option TenantEnvelopeEncryptor) (profile : EmbeddingProfile)
    (c : Database R) (p : Participant R) (k : SemanticKey) : Prop :=
  if k = semanticKey profile k.1 then
    ∃ e row, p.own.semantic.get? k = some e ∧
      (p.view (engine R) c).memories.get? k.1 = some row ∧ e.sourceVersion ≤ row.version ∧
      (∀ old, c.semantic.get? k = some old → old.sourceVersion ≤ e.sourceVersion) ∧
      (RowKey.memory k.1 ∈ p.held → e.sourceVersion = row.version) ∧
      (e.sourceVersion = row.version → Computes encryptor p.agent k.1 row e.vector)
  else p.own.semantic.get? k = none

/-- What a batch stores for a memory is a row of its profile, at the version of the row it holds. -/
theorem stores_profile {encryptor : Option TenantEnvelopeEncryptor} {profile : EmbeddingProfile}
    {c : Database R} {p : Participant R} {i : UUID} :
    Stores encryptor profile c p (semanticKey profile i) ↔
      ∃ e row, p.own.semantic.get? (semanticKey profile i) = some e ∧
        (p.view (engine R) c).memories.get? i = some row ∧ e.sourceVersion ≤ row.version ∧
        (∀ old, c.semantic.get? (semanticKey profile i) = some old →
          old.sourceVersion ≤ e.sourceVersion) ∧
        (RowKey.memory i ∈ p.held → e.sourceVersion = row.version) ∧
        (e.sourceVersion = row.version → Computes encryptor p.agent i row e.vector) := by
  have hkey : semanticKey profile i = semanticKey profile (semanticKey profile i).1 := rfl
  unfold Stores
  rw [if_pos hkey]
  exact Iff.rfl

/-- What a transaction may commit. -/
structure Ready (encryptor : Option TenantEnvelopeEncryptor) (profile : EmbeddingProfile)
    (c : Database R) (p : Participant R) : Prop where
  memories : ∀ i, RowKey.memory i ∈ p.held → ∃ old row, c.memories.get? i = some old ∧
    p.own.memories.get? i = some row ∧ old.version < row.version
  semantic : ∀ k, RowKey.semantic k ∈ p.held → Stores encryptor profile c p k

/-- One step of the index under a profile: rows of the profile stay and their source versions do
not decrease, rows of other profiles only go away, and a row that is current is only replaced by
one that is current again, computed from the content that the memory then has. -/
structure Advances (encryptor : Option TenantEnvelopeEncryptor) (profile : EmbeddingProfile)
    (agents : List (Transaction R)) (c c' : Database R) : Prop where
  kept : ∀ i e, c.semantic.get? (semanticKey profile i) = some e →
    ∃ e', c'.semantic.get? (semanticKey profile i) = some e' ∧ e.sourceVersion ≤ e'.sourceVersion
  others : ∀ k e, k ≠ semanticKey profile k.1 → c'.semantic.get? k = some e →
    c.semantic.get? k = some e
  current : ∀ i e e' row, c.memories.get? i = some row →
    c.semantic.get? (semanticKey profile i) = some e → e.sourceVersion = row.version →
    c'.semantic.get? (semanticKey profile i) = some e' → e' ≠ e →
    ∃ row', c'.memories.get? i = some row' ∧ e'.sourceVersion = row'.version ∧
      ∃ t ∈ agents, t.profile = profile ∧ Computes encryptor t i row' e'.vector

section Ready

variable {encryptor : Option TenantEnvelopeEncryptor} {profile : EmbeddingProfile} {c : Database R}
  {p p' : Participant R}

/-- A held row of the memories is the transaction's own. -/
theorem view_memories_of_mem {i : UUID} (h : RowKey.memory i ∈ p.held) :
    (p.view (engine R) c).memories.get? i = p.own.memories.get? i := by
  have hsame : (p.view (engine R) c).SameAt p.own (.memory i) := view_of_mem h
  exact hsame

/-- Another one is the committed one. -/
theorem view_memories_of_not_mem {i : UUID} (h : RowKey.memory i ∉ p.held) :
    (p.view (engine R) c).memories.get? i = c.memories.get? i := by
  have hsame : (p.view (engine R) c).SameAt c (.memory i) := view_of_not_mem h
  exact hsame

/-- The same for rows of the index that it holds. -/
theorem view_semantic_of_mem {k : SemanticKey} (h : RowKey.semantic k ∈ p.held) :
    (p.view (engine R) c).semantic.get? k = p.own.semantic.get? k := by
  have hsame : (p.view (engine R) c).SameAt p.own (.semantic k) := view_of_mem h
  exact hsame

/-- And for those that it does not. -/
theorem view_semantic_of_not_mem {k : SemanticKey} (h : RowKey.semantic k ∉ p.held) :
    (p.view (engine R) c).semantic.get? k = c.semantic.get? k := by
  have hsame : (p.view (engine R) c).SameAt c (.semantic k) := view_of_not_mem h
  exact hsame

/-- Memories only grow by a commit. -/
theorem Ready.grows (h : Ready encryptor profile c p) : c.Grows (p.view (engine R) c) := by
  intro i row hrow
  by_cases hi : RowKey.memory i ∈ p.held
  · obtain ⟨old, new, hold, hnew, hlt⟩ := h.memories i hi
    obtain rfl := Option.some.inj (hrow.symm.trans hold)
    exact ⟨new, (view_memories_of_mem hi).trans hnew, .inr hlt⟩
  · exact ⟨row, (view_memories_of_not_mem hi).trans hrow, .inl rfl⟩

/-- A commit leaves no row ahead of its memory. -/
theorem Ready.bounded (h : Ready encryptor profile c p) (hc : c.Bounded) :
    (p.view (engine R) c).Bounded := by
  intro k e he
  by_cases hk : RowKey.semantic k ∈ p.held
  · rw [view_semantic_of_mem hk] at he
    have hstores := h.semantic k hk
    unfold Stores at hstores
    split at hstores
    · obtain ⟨e', row, he', hrow, hle, -⟩ := hstores
      obtain rfl := Option.some.inj (he.symm.trans he')
      exact ⟨row, hrow, hle⟩
    · rw [hstores] at he
      cases he
  · rw [view_semantic_of_not_mem hk] at he
    obtain ⟨row, hrow, hle⟩ := hc k e he
    obtain ⟨row', hrow', hgrown⟩ := h.grows k.1 row hrow
    refine ⟨row', hrow', ?_⟩
    rcases hgrown with rfl | hlt
    · exact hle
    · omega

/-- A commit moves the index forward. -/
theorem Ready.advances (h : Ready encryptor profile c p) (hprofile : p.agent.profile = profile)
    {agents : List (Transaction R)} (hp : p.agent ∈ agents) :
    Advances encryptor profile agents c (p.view (engine R) c) := by
  constructor
  -- no row of the profile goes back
  · intro i e he
    by_cases hk : RowKey.semantic (semanticKey profile i) ∈ p.held
    · obtain ⟨e', row, he', -, -, hold, -⟩ := stores_profile.mp (h.semantic _ hk)
      exact ⟨e', (view_semantic_of_mem hk).trans he', hold e he⟩
    · exact ⟨e, (view_semantic_of_not_mem hk).trans he, le_refl _⟩
  -- no row of another profile appears
  · intro k e hne he
    by_cases hk : RowKey.semantic k ∈ p.held
    · have hstores := h.semantic k hk
      unfold Stores at hstores
      rw [if_neg hne] at hstores
      rw [view_semantic_of_mem hk, hstores] at he
      cases he
    · rw [view_semantic_of_not_mem hk] at he
      exact he
  -- a row that changes under a current memory has its vector computed by this agent
  · intro i e e' row hrow he hcurrent he' hne
    by_cases hk : RowKey.semantic (semanticKey profile i) ∈ p.held
    · rw [view_semantic_of_mem hk] at he'
      obtain ⟨e'', row', hown, hrow', hle, hold, hchanged, hcomputed⟩ :=
        stores_profile.mp (h.semantic _ hk)
      obtain rfl := Option.some.inj (he'.symm.trans hown)
      have hsource : e'.sourceVersion = row'.version := by
        by_cases hi : RowKey.memory i ∈ p.held
        · exact hchanged hi
        · -- the memory is as before, so that the new row lies between the old one and it
          rw [view_memories_of_not_mem hi, hrow] at hrow'
          obtain rfl := Option.some.inj hrow'
          have hleast := hold e he
          omega
      exact ⟨row', hrow', hsource, p.agent, hp, hprofile, hcomputed hsource⟩
    · rw [view_semantic_of_not_mem hk, he] at he'
      exact absurd (Option.some.inj he').symm hne

/-- Another transaction's commit changes neither the rows that a transaction holds nor what it may
commit. -/
theorem Ready.other (h : Ready encryptor profile c p') (hready : Ready encryptor profile c p)
    (hex : ∀ k ∈ p'.held, k ∉ p.held) : Ready encryptor profile (p.view (engine R) c) p' := by
  constructor
  -- its own memory rows are its own still
  · intro i hi
    obtain ⟨old, row, hold, hrow, hlt⟩ := h.memories i hi
    exact ⟨old, row, (view_memories_of_not_mem (hex _ hi)).trans hold, hrow, hlt⟩
  · intro k hk
    have hstores := h.semantic k hk
    unfold Stores at hstores ⊢
    -- a row of the profile
    split
    · rename_i hkey
      rw [if_pos hkey] at hstores
      obtain ⟨e, row, he, hrow, hle, hold, hchanged, hcomputed⟩ := hstores
      rw [view_semantic_of_not_mem (hex _ hk)]
      by_cases hi : RowKey.memory k.1 ∈ p'.held
      · rw [view_memories_of_mem hi] at hrow ⊢
        exact ⟨e, row, he, hrow, hle, hold, hchanged, hcomputed⟩
      · -- the memory may have moved on, and the row of the index is then no longer current
        rw [view_memories_of_not_mem hi] at hrow ⊢
        obtain ⟨row', hrow', hgrown⟩ := hready.grows k.1 row hrow
        refine ⟨e, row', he, hrow', ?_, hold, fun hmem => absurd hmem hi, ?_⟩
        · rcases hgrown with rfl | hlt
          · exact hle
          · omega
        · intro hsource
          rcases hgrown with rfl | hlt
          · exact hcomputed hsource
          · omega
    -- rows of other profiles have gone
    · rename_i hkey
      rw [if_neg hkey] at hstores
      exact hstores

/-- What is stored under a key does not change with rows elsewhere. -/
theorem Stores.congr {k : SemanticKey} (h : Stores encryptor profile c p k)
    (hagent : p'.agent = p.agent) (hown : p'.own.semantic.get? k = p.own.semantic.get? k)
    (hview : (p'.view (engine R) c).memories.get? k.1 = (p.view (engine R) c).memories.get? k.1)
    (hheld : RowKey.memory k.1 ∈ p'.held → RowKey.memory k.1 ∈ p.held) :
    Stores encryptor profile c p' k := by
  unfold Stores at h ⊢
  rw [hown, hview, hagent]
  split
  · rename_i hkey
    rw [if_pos hkey] at h
    obtain ⟨e, row, he, hrow, hle, hold, hchanged, hcomputed⟩ := h
    exact ⟨e, row, he, hrow, hle, hold, fun hmem => hchanged (hheld hmem), hcomputed⟩
  · rename_i hkey
    rw [if_neg hkey] at h
    exact h

section Advance

variable {q : Statement R} {r : q.Result} {after : Database R} {program : DbProg R (Outcome R)}

/-- A row that was held before, and that the statement does not lock again, stays as it was. -/
theorem own_advance_of_mem
    (hrun : q.run p.agent.tenant (p.view (engine R) c) = .ok (r, after)) {k : RowKey}
    (hk : k ∈ p.held) (hlocks : k ∉ q.locks p.agent.tenant (p.view (engine R) c)) :
    after.SameAt p.own k := by
  have hview : (p.view (engine R) c).SameAt p.own k := view_of_mem hk
  exact sameAt_trans (run_sameAt hrun hlocks) hview

/-- A key that was held before, under a statement that locks neither it nor its memory. -/
theorem Ready.stores_advance (h : Ready encryptor profile c p)
    (hrun : q.run p.agent.tenant (p.view (engine R) c) = .ok (r, after)) {k : SemanticKey}
    (hk : RowKey.semantic k ∈ p.held)
    (hlocks : RowKey.semantic k ∉ q.locks p.agent.tenant (p.view (engine R) c))
    (hmemory : RowKey.memory k.1 ∉ q.locks p.agent.tenant (p.view (engine R) c)) :
    Stores encryptor profile c (p.advance (engine R) q (p.view (engine R) c) after program) k := by
  refine (h.semantic k hk).congr rfl ?_ ?_ ?_
  · have hown : after.SameAt p.own (.semantic k) := own_advance_of_mem hrun hk hlocks
    exact hown
  · have hafter : ((p.advance (engine R) q (p.view (engine R) c) after program).view (engine R)
        c).SameAt (p.view (engine R) c) (.memory k.1) :=
      sameAt_trans (view_advance hrun) (run_sameAt hrun hmemory)
    exact hafter
  · intro hmem
    rcases List.mem_append.mp hmem with hmem | hmem
    · exact absurd hmem hmemory
    · exact hmem

/-- Statements that lock no memory leave the ones that are held as they are. -/
theorem Ready.memories_advance (h : Ready encryptor profile c p)
    (hrun : q.run p.agent.tenant (p.view (engine R) c) = .ok (r, after))
    (hmemory : ∀ i, RowKey.memory i ∉ q.locks p.agent.tenant (p.view (engine R) c)) {i : UUID}
    (hi : RowKey.memory i ∈
      (p.advance (engine R) q (p.view (engine R) c) after program).held) :
    ∃ old row, c.memories.get? i = some old ∧ after.memories.get? i = some row ∧
      old.version < row.version := by
  rcases List.mem_append.mp hi with hi | hi
  · exact absurd hi (hmemory i)
  · obtain ⟨old, row, hold, hrow, hlt⟩ := h.memories i hi
    have hown : after.SameAt p.own (.memory i) := own_advance_of_mem hrun hi (hmemory i)
    exact ⟨old, row, hold, Eq.trans hown hrow, hlt⟩

/-- Statements on other tables. -/
theorem Ready.aside (h : Ready encryptor profile c p)
    (hrun : q.run p.agent.tenant (p.view (engine R) c) = .ok (r, after))
    (hmemory : RowKind.memory ∉ q.kinds) (hsemantic : RowKind.semantic ∉ q.kinds) :
    Ready encryptor profile c (p.advance (engine R) q (p.view (engine R) c) after program) := by
  have hout : ∀ i, RowKey.memory i ∉ q.locks p.agent.tenant (p.view (engine R) c) :=
    fun i => not_mem_locks hmemory
  constructor
  · exact fun i hi => h.memories_advance hrun hout hi
  · intro k hk
    have hfree : RowKey.semantic k ∉ q.locks p.agent.tenant (p.view (engine R) c) :=
      not_mem_locks hsemantic
    rcases List.mem_append.mp hk with hk | hk
    · exact absurd hk hfree
    · exact h.stores_advance hrun hk hfree (hout k.1)

end Advance

end Ready

/-! ## Batches -/

/-- What holds of a batch in progress: it holds rows of the index only, memories have only grown
since its statements, and after the check of a memory no row of the index is ahead of the
version that the check found. -/
structure BatchInv (encryptor : Option TenantEnvelopeEncryptor) (c : Database R)
    (p : Participant R) : Prop where
  meets : ∀ program, p.status = .running program →
    Meets (fun q => q.run p.agent.tenant) (BatchIssues p.agent encryptor) (fun _ _ => True) p.trace
      program
  indexOnly : p.isRunning = true → ∀ i, RowKey.memory i ∉ p.held
  grown : p.isRunning = true → ∀ e ∈ p.trace, e.2.Grows c
  asChecked : p.isRunning = true → ∀ i v s,
    p.trace.getLast? = some (.selectCurrentVersion i v, s) →
    atVersion p.agent.tenant i v s = true →
    ∀ e, c.semantic.get? (semanticKey p.agent.profile i) = some e → e.sourceVersion ≤ v

section Batch

variable {encryptor : Option TenantEnvelopeEncryptor} {profile : EmbeddingProfile} {c : Database R}
  {p : Participant R}

/-- A batch starts with nothing held and nothing issued. -/
theorem BatchInv.start {t : Transaction R} {o : String} {cursor : Option UUID} {batchSize : Int}
    {dryRun : Bool} (hwork : t.work = .batch o cursor batchSize dryRun) :
    BatchInv encryptor c (.start t (t.program encryptor) c) where
  meets program hprogram := by
    obtain rfl := Status.running.inj hprogram
    show Meets _ _ _ [] (t.body (Session.interleaved R t.tenant encryptor))
    unfold Transaction.body
    rw [hwork]
    exact meets_batch.map fun _ _ _ => trivial
  indexOnly _ i hi := by cases hi
  grown _ e he := by cases he
  asChecked _ i v s hlast := by cases hlast

/-- Each statement of a batch keeps its invariant. -/
theorem BatchInv.advance {q : Statement R} {next : Except PyError q.Result → DbProg R (Outcome R)}
    {r : q.Result} {after : Database R} (h : BatchInv encryptor c p) (hc : c.Bounded)
    (hstatus : p.status = .running (.exec q next))
    (hrun : q.run p.agent.tenant (p.view (engine R) c) = .ok (r, after)) :
    BatchInv encryptor c (p.advance (engine R) q (p.view (engine R) c) after (next (.ok r))) := by
  obtain ⟨hissues, hnext⟩ := meets_exec.mp (h.meets _ hstatus)
  have hrunning : p.isRunning = true := Process.isRunning_iff.mpr ⟨_, hstatus⟩
  have hview : ∀ i, (p.view (engine R) c).memories.get? i = c.memories.get? i :=
    fun i => view_memories_of_not_mem (h.indexOnly hrunning i)
  have hkinds : RowKind.memory ∉ q.kinds := by
    cases hissues with
    | reads hkinds =>
      rw [hkinds]
      exact List.not_mem_nil
    | upsert => simp [Statement.kinds]
  constructor
  · intro program hprogram
    obtain rfl := Status.running.inj hprogram
    exact hnext _ _ _ hrun
  · intro _ i hi
    rcases List.mem_append.mp hi with hi | hi
    · exact not_mem_locks hkinds hi
    · exact h.indexOnly hrunning i hi
  · intro _ e he
    rcases List.mem_append.mp he with he | he
    · exact h.grown hrunning e he
    · obtain rfl := List.mem_singleton.mp he
      intro i row hrow
      exact ⟨row, (hview i).symm.trans hrow, .inl rfl⟩
  · intro _ i v s hlast hfound e he
    have hseen := Option.some.inj (List.getLast?_concat.symm.trans hlast)
    obtain ⟨-, rfl⟩ := Prod.mk.inj hseen
    -- the check sees the committed memory, and the index is not ahead of it
    obtain ⟨row, hvisible, hversion⟩ := atVersion_iff.mp hfound
    obtain ⟨hrow, -⟩ := Option.filter_eq_some_iff.mp hvisible
    obtain ⟨row', hrow', hle⟩ := hc _ e he
    replace hrow' : c.memories.get? i = some row' := hrow'
    obtain rfl := Option.some.inj (hrow'.symm.trans ((hview i).symm.trans hrow))
    exact hle.trans (le_of_eq hversion)

/-- The vector of a listed memory is that of its content, as long as the memory is at the version
at which it was listed. -/
theorem BatchInv.listed (h : BatchInv encryptor c p) (hrunning : p.isRunning = true) {i : UUID}
    {v : Int} {vector : List R} (hlisted : ListedAs p.agent encryptor p.trace i v vector) :
    ∃ row, c.memories.get? i = some row ∧ v ≤ row.version ∧
      (v = row.version → Computes encryptor p.agent i row vector) := by
  obtain ⟨e, he, row₀, m, hrow₀, hread, hv, hvector⟩ := hlisted
  obtain ⟨row, hrow, hgrown⟩ := h.grown hrunning e he i row₀ hrow₀
  have hlistedVersion : row₀.version = v := (memoryFromRow_ok hread).2.1.symm.trans hv
  rcases hgrown with rfl | hlt
  · refine ⟨row, hrow, le_of_eq hlistedVersion.symm, fun _ content hcontent => ?_⟩
    obtain ⟨content', -, hcollapse, hunique⟩ := opens_of_memoryFromRow hread
    rw [hunique content hcontent, ← hcollapse]
    exact hvector
  · exact ⟨row, hrow, by omega, fun hsame => by omega⟩

/-- A batch may commit what it has stored after each of its statements. -/
theorem BatchInv.ready {q : Statement R} {next : Except PyError q.Result → DbProg R (Outcome R)}
    {r : q.Result} {after : Database R} (h : BatchInv encryptor c p)
    (hready : Ready encryptor profile c p) (hprofile : p.agent.profile = profile)
    (hstatus : p.status = .running (.exec q next))
    (hrun : q.run p.agent.tenant (p.view (engine R) c) = .ok (r, after)) :
    Ready encryptor profile c
      (p.advance (engine R) q (p.view (engine R) c) after (next (.ok r))) := by
  obtain ⟨hissues, -⟩ := meets_exec.mp (h.meets _ hstatus)
  have hrunning : p.isRunning = true := Process.isRunning_iff.mpr ⟨_, hstatus⟩
  cases hissues with
  | reads hkinds => exact hready.aside hrun (by simp [hkinds]) (by simp [hkinds])
  | @upsert i v vector s hchecked hfound hlisted =>
    obtain ⟨row, hrow, hversion, hcomputes⟩ := h.listed hrunning hlisted
    -- a batch holds no memory row, so the committed one is what it sees
    have hmemory : ∀ j, RowKey.memory j ∉ Statement.locks p.agent.tenant
        (.upsertSemantic i v p.agent.profile vector) (p.view (engine R) c) := by
      intro j
      exact not_mem_locks (by simp [Statement.kinds, RowKey.kind])
    have hunheld : ∀ j, RowKey.memory j ∉ (p.advance (engine R)
        (.upsertSemantic i v p.agent.profile vector) (p.view (engine R) c) after
          (next (.ok r))).held := by
      intro j hj
      rcases List.mem_append.mp hj with hj | hj
      · exact hmemory j hj
      · exact h.indexOnly hrunning j hj
    have hafter := of_map_ok hrun
    simp only [Database.upsertSemantic, except_bind_ok, except_pure_ok] at hafter
    obtain ⟨_, -, _, -, hafter⟩ := hafter
    refine ⟨fun j hj => absurd hj (hunheld j), fun k hk => ?_⟩
    by_cases hkey : k = semanticKey profile i
    · -- the row that was upserted is not behind the committed one
      subst hkey
      have hnew : after.semantic.get? (semanticKey profile i) = some ⟨p.agent.tenant, v,
          p.agent.profile.dimension, p.agent.profile.metric, vector⟩ := by
        rw [hafter, ← hprofile]
        exact Dict.get?_set_self _ _ _
      refine stores_profile.mpr ⟨_, row, hnew, ?_, hversion, ?_, ?_, hcomputes⟩
      · rw [view_memories_of_not_mem (hunheld _)]
        exact hrow
      · intro old hold
        rw [← hprofile] at hold
        exact h.asChecked hrunning i v s hchecked hfound old hold
      · exact fun hmem => absurd hmem (hunheld _)
    -- another row is not touched by the upsert
    · have hfree : RowKey.semantic k ∉ Statement.locks p.agent.tenant
          (.upsertSemantic i v p.agent.profile vector) (p.view (engine R) c) := by
        intro hmem
        rcases List.mem_singleton.mp hmem with heq
        rw [hprofile] at heq
        exact hkey (RowKey.semantic.inj heq)
      rcases List.mem_append.mp hk with hk | hk
      · exact absurd hk hfree
      · exact hready.stores_advance hrun hk hfree (hmemory _)

end Batch

/-! ## Updates -/

/-- What holds of an update in progress: before its `UPDATE` it holds no row of a memory or of the
index, and after it the memory is held, committed at the expected version and replaced by the
row that the update made. -/
structure UpdateInv (encryptor : Option TenantEnvelopeEncryptor) (c : Database R)
    (p : Participant R) (rev : Revision R) : Prop where
  meets : ∀ program, p.status = .running program →
    Meets (fun q => q.run p.agent.tenant) (RevisionIssues p.agent encryptor rev) (fun _ _ => True)
      p.trace program
  untouched : p.isRunning = true → (∀ e ∈ p.trace, e.1.plain = true) →
    ∀ k ∈ p.held, k.kind ≠ .memory ∧ k.kind ≠ .semantic
  replaced : p.isRunning = true → ∀ m' row, Revised p.agent rev p.trace m' row →
    RowKey.memory m'.id ∈ p.held ∧ ∃ old, c.memories.get? m'.id = some old ∧
      old.version = rev.expectedVersion ∧
      p.own.memories.get? m'.id = some { old with toMemoryValues := row.toMemoryValues }

section Update

variable {encryptor : Option TenantEnvelopeEncryptor} {profile : EmbeddingProfile} {c : Database R}
  {p : Participant R} {rev : Revision R}

/-- An update starts with nothing revised. -/
theorem UpdateInv.start {t : Transaction R} {cmd : UpdateMemoryCommand R}
    (hwork : t.work = .request (.update cmd)) (hrev : t.revision = some rev) :
    UpdateInv encryptor c (.start t (t.program encryptor) c) rev where
  meets program hprogram := by
    obtain rfl := Status.running.inj hprogram
    show Meets _ _ _ [] (t.body (Session.interleaved R t.tenant encryptor))
    unfold Transaction.body
    rw [hwork]
    exact ((meets_revising hwork hrev).map (Φ := fun _ _ => True) fun _ _ _ => trivial).map
      fun _ _ _ => trivial
  untouched _ _ k hk := by cases hk
  replaced _ m' row hrevised := by
    obtain ⟨s, hs, -⟩ := hrevised
    cases hs

/-- The statements of an update that lock no memory. -/
theorem memory_not_mem_kinds {q : Statement R} {trace : Trace R} {t : Transaction R}
    (hissues : RevisionIssues t encryptor rev trace q) (hrevising : ¬ ∀ e ∈ trace, e.1.plain = true) :
    RowKind.memory ∉ q.kinds := by
  cases hissues with
  | plain hplain =>
    intro hmem
    have hout := List.all_eq_true.mp hplain _ hmem
    exact absurd hout (by decide)
  | updateMemory _ hfirst => exact absurd hfirst hrevising
  | insertVersions => simp [Statement.kinds]
  | @updateEmbedding _ _ _ _ table => cases table <;> simp [Statement.kinds]

omit [Python R] in
theorem not_plain_updateMemory {i : UUID} {o : String} {v : Int} {values : MemoryValues R} :
    (Statement.updateMemory i o v values).plain = false := by
  simp [Statement.plain, Statement.kinds]

/-- The UPDATE of the memory is on the trace of an update that has revised it. -/
theorem Revised.not_plain {t : Transaction R} {trace : Trace R} {m' : Memory R} {row : MemoryRow R}
    (h : Revised t rev trace m' row) : ¬ ∀ e ∈ trace, e.1.plain = true := by
  obtain ⟨s, hs, -⟩ := h
  intro hplain
  have hupdate : (rev.updating m' row).plain = true := hplain _ hs
  rw [Revision.updating, not_plain_updateMemory] at hupdate
  cases hupdate

/-- Each statement of an update keeps its invariant. -/
theorem UpdateInv.advance {q : Statement R} {next : Except PyError q.Result → DbProg R (Outcome R)}
    {r : q.Result} {after : Database R} (h : UpdateInv encryptor c p rev)
    (hstatus : p.status = .running (.exec q next))
    (hrun : q.run p.agent.tenant (p.view (engine R) c) = .ok (r, after)) :
    UpdateInv encryptor c (p.advance (engine R) q (p.view (engine R) c) after (next (.ok r)))
      rev := by
  obtain ⟨hissues, hnext⟩ := meets_exec.mp (h.meets _ hstatus)
  have hrunning : p.isRunning = true := Process.isRunning_iff.mpr ⟨_, hstatus⟩
  -- the rest of the program meets the same laws
  constructor
  · intro program hprogram
    obtain rfl := Status.running.inj hprogram
    exact hnext _ _ _ hrun
  -- as long as all statements are plain, no row is held
  · intro _ hplain k hk
    have hq : q.plain = true := hplain (q, _) (List.mem_append_right _ (List.mem_singleton_self _))
    rcases List.mem_append.mp hk with hk | hk
    · constructor
      · intro hkind
        exact not_mem_locks_of_plain hq (by simp [hkind]) hk
      · intro hkind
        exact not_mem_locks_of_plain hq (by simp [hkind]) hk
    · exact h.untouched hrunning (fun e he => hplain e (List.mem_append_left _ he)) k hk
  · rintro - m' row ⟨s, hs, hone⟩
    rcases List.mem_append.mp hs with hs | hs
    · -- the `UPDATE` came before: the row is held, and this statement leaves it alone
      have hrevised : Revised p.agent rev p.trace m' row := ⟨s, hs, hone⟩
      obtain ⟨hheld, old, hold, hversion, hown⟩ := h.replaced hrunning m' row hrevised
      have hfree : RowKey.memory m'.id ∉ q.locks p.agent.tenant (p.view (engine R) c) :=
        not_mem_locks (memory_not_mem_kinds hissues hrevised.not_plain)
      have hsame : after.SameAt p.own (.memory m'.id) := own_advance_of_mem hrun hheld hfree
      exact ⟨List.mem_append_right _ hheld, old, hold, hversion, Eq.trans hsame hown⟩
    · -- this is the `UPDATE`, and no row is held yet
      obtain ⟨rfl, rfl⟩ := Prod.mk.inj (List.mem_singleton.mp hs)
      have hfirst : ∀ e ∈ p.trace, e.1.plain = true := by
        generalize hq : rev.updating m' row = q at hissues
        cases hissues with
        | plain hplain =>
          rw [← hq, Revision.updating, not_plain_updateMemory] at hplain
          cases hplain
        | updateMemory _ hfirst => exact hfirst
        | insertVersions => cases hq
        | updateEmbedding => cases hq
      -- before it no memory row is held, so the row it hits is the committed one
      have hunheld : RowKey.memory m'.id ∉ p.held :=
        fun hmem => (h.untouched hrunning hfirst _ hmem).1 rfl
      have hsnd : ((p.view (engine R) c).updateMemory p.agent.tenant m'.id m'.ownerId
          rev.expectedVersion row.toMemoryValues).2 = after :=
        (Prod.mk.inj (Except.ok.inj hrun)).2
      have hafter : (p.view (engine R) c).updateMemory p.agent.tenant m'.id m'.ownerId
          rev.expectedVersion row.toMemoryValues = (1, after) :=
        Prod.ext hone hsnd
      obtain ⟨old, howned, hversion, rfl⟩ := updateMemory_one hafter
      obtain ⟨hget, -⟩ := get?_of_owned howned
      -- it hits one row, locks it, and stores the next version
      refine ⟨List.mem_append_left _ ?_, old, ?_, hversion, Dict.get?_set_self _ _ _⟩
      · have hfound : ((p.view (engine R) c).owned p.agent.tenant m'.ownerId m'.id).filter
            (fun row => decide (row.version = rev.expectedVersion)) = some old := by
          rw [howned]
          exact Option.filter_some_pos (decide_eq_true hversion)
        show RowKey.memory m'.id ∈ Statement.awaits p.agent.tenant (rev.updating m' row) _
        simp only [Revision.updating, Statement.awaits, hfound, List.mem_singleton]
      · rw [← view_memories_of_not_mem hunheld]
        exact hget

/-- What an update makes of the memory is the next version. -/
theorem version_of_drafted {t : Transaction R} (hrev : t.revision = some rev) {trace : Trace R}
    {m m' : Memory R} {row : MemoryRow R} (h : Drafted t encryptor rev trace m m' row) :
    m'.version = rev.expectedVersion + 1 ∧ row.version = m'.version := by
  obtain ⟨args, hevolved⟩ := Revision.evolved hrev h.makes
  refine ⟨?_, (memoryValues_ok h.encoded).2⟩
  rw [hevolved.version, h.version]

/-- The values that an update stores in the index are of the profile of its service. -/
theorem values_of_drafted {t : Transaction R} {cmd : UpdateMemoryCommand R}
    (hwork : t.work = .request (.update cmd)) (hrev : t.revision = some rev) {trace : Trace R}
    {m m' : Memory R} {row : MemoryRow R} (h : Drafted t encryptor rev trace m m' row)
    {vector : List R} {values : EmbeddingValues R} (hchosen : tableOf m' = .ok .semantic)
    (hdescribed : (Session.sequential R t.tenant encryptor).embeddingValues m' vector = .ok values) :
    (m'.id, values.profileId, values.profileVersion) = semanticKey t.profile m'.id ∧
      values.sourceVersion = some m'.version ∧ values.vector = vector := by
  have hmakes := h.makes
  unfold Transaction.revision at hrev
  rw [hwork] at hrev
  obtain rfl := Option.some.inj hrev
  obtain ⟨at_, d, hd, hevolve⟩ := hmakes
  have hembedding : m'.embedding = some d := (Memory.evolve_ok hevolve).embedding
  obtain ⟨hid, hversion, -⟩ := descriptor_ok hd
  obtain ⟨d', hd', rfl⟩ := embeddingValues_eq hdescribed
  obtain rfl := Option.some.inj (hembedding.symm.trans hd')
  unfold tableOf at hchosen
  rw [hembedding] at hchosen
  have hdimension : d.dimension = 384 := embeddingTable_semantic hchosen
  refine ⟨?_, if_pos hdimension, rfl⟩
  unfold semanticKey
  rw [← hid, ← hversion]

/-- After the `UPDATE` of the index, the update may commit the rows that it holds there. -/
theorem UpdateInv.stores (hrevers : Reversible encryptor) (h : UpdateInv encryptor c p rev)
    (hc : c.Bounded) (hready : Ready encryptor profile c p) (hrunning : p.isRunning = true)
    (hrev : p.agent.revision = some rev) {m m' : Memory R} {row : MemoryRow R}
    {values : EmbeddingValues R} {after : Database R} {program : DbProg R (Outcome R)}
    {r : (Statement.updateEmbedding EmbeddingTable.semantic m'.id values : Statement R).Result}
    (hdrafted : Drafted p.agent encryptor rev p.trace m m' row)
    (hrevised : Revised p.agent rev p.trace m' row)
    (hembedded : p.agent.service.embeddingProvider.embed m'.content false = .ok values.vector)
    (hkeyed : (m'.id, values.profileId, values.profileVersion) = semanticKey profile m'.id)
    (hsource : values.sourceVersion = some m'.version)
    (hrun : Statement.run p.agent.tenant (.updateEmbedding .semantic m'.id values)
      (p.view (engine R) c) = .ok (r, after)) {k : SemanticKey}
    (hk : RowKey.semantic k ∈ (p.advance (engine R) (.updateEmbedding .semantic m'.id values)
      (p.view (engine R) c) after program).held) :
    Stores encryptor profile c (p.advance (engine R) (.updateEmbedding .semantic m'.id values)
      (p.view (engine R) c) after program) k := by
  obtain ⟨hversion, hrowVersion⟩ := version_of_drafted hrev hdrafted
  obtain ⟨hheld, old, hold, holdVersion, hown⟩ := h.replaced hrunning m' row hrevised
  -- an embedding statement locks no memory row
  have hmemory : ∀ i, RowKey.memory i ∉ Statement.locks p.agent.tenant
      (.updateEmbedding .semantic m'.id values) (p.view (engine R) c) := by
    intro i
    exact not_mem_locks (by simp [Statement.kinds, RowKey.kind])
  have hlocks : Statement.locks p.agent.tenant (.updateEmbedding .semantic m'.id values)
      (p.view (engine R) c) = Statement.awaits p.agent.tenant
        (.updateEmbedding .semantic m'.id values) (p.view (engine R) c) := rfl
  replace hk : RowKey.semantic k ∈ Statement.locks p.agent.tenant
    (.updateEmbedding .semantic m'.id values) (p.view (engine R) c) ++ p.held := hk
  obtain ⟨hmemories, hrewritten⟩ := updateEmbedding_ok (of_map_ok hrun)
  cases hrewritten with
  -- no row of the memory: nothing is locked or written
  | semanticNone hnone _ hsame =>
    simp only [Statement.awaits, hnone] at hlocks
    rw [hlocks] at hk
    refine hready.stores_advance hrun hk ?_ (hmemory _)
    rw [hlocks]
    exact List.not_mem_nil
  | semanticRow key e hone _ hset =>
    simp only [Statement.awaits, hone, hkeyed, List.map_cons, List.map_nil] at hlocks
    rw [hkeyed] at hset
    by_cases hkey : k = semanticKey profile m'.id
    · -- the row of the profile: of the version that the update made
      subst hkey
      have hnew : after.semantic.get? (semanticKey profile m'.id) =
          some (values.semanticRow m'.version) := by
        rw [hset, Dict.get?_set_self, hsource]
        rfl
      have hstored : after.memories.get? m'.id =
          some { old with toMemoryValues := row.toMemoryValues } := by
        rw [hmemories, view_memories_of_mem hheld]
        exact hown
      refine stores_profile.mpr ⟨_, _, hnew,
        (view_memories_of_mem (List.mem_append_right _ hheld)).trans hstored, ?_, ?_, ?_, ?_⟩
      -- committed rows are of the old version at most
      · exact le_of_eq hrowVersion.symm
      · intro stale hstale
        obtain ⟨row', hrow', hle⟩ := hc _ stale hstale
        obtain rfl := Option.some.inj (hold.symm.trans hrow')
        show stale.sourceVersion ≤ m'.version
        omega
      · exact fun _ => hrowVersion.symm
      -- its vector is the embedding of the content that was stored
      · intro _ content hcontent
        rw [Fresh.opens_encoded hrevers hdrafted.encoded (opens_congr rfl rfl hcontent),
          m'.collapse_content]
        exact hembedded
    · by_cases hgone : k = key
      · -- the row of another profile, which has gone
        subst hgone
        have hitem : (k, e) ∈ (p.view (engine R) c).semanticRows p.agent.tenant m'.id := by
          rw [hone]
          exact List.mem_singleton_self _
        have hof : k.1 = m'.id :=
          of_decide_eq_true (Bool.and_eq_true_iff.mp (List.mem_filter.mp hitem).2).1
        unfold Stores
        rw [if_neg (by rw [hof]; exact hkey)]
        show after.semantic.get? k = none
        rw [hset, Dict.get?_set_of_ne _ _ hkey, Dict.get?_pop_self]
      -- an untouched row
      · have hfree : RowKey.semantic k ∉ Statement.locks p.agent.tenant
            (.updateEmbedding .semantic m'.id values) (p.view (engine R) c) := by
          rw [hlocks]
          simp [hkey, hgone]
        rcases List.mem_append.mp hk with hk | hk
        · exact absurd hk hfree
        · exact hready.stores_advance hrun hk hfree (hmemory _)

/-- An update that is ready to commit has moved version and index on together. -/
theorem UpdateInv.ready (hrevers : Reversible encryptor) {q : Statement R}
    {next : Except PyError q.Result → DbProg R (Outcome R)} {r : q.Result} {after : Database R}
    (h : UpdateInv encryptor c p rev) (hc : c.Bounded) (hready : Ready encryptor profile c p)
    (hprofile : p.agent.profile = profile) {cmd : UpdateMemoryCommand R}
    (hwork : p.agent.work = .request (.update cmd)) (hrev : p.agent.revision = some rev)
    (hstatus : p.status = .running (.exec q next))
    (hrun : q.run p.agent.tenant (p.view (engine R) c) = .ok (r, after)) :
    Ready encryptor profile c
      (p.advance (engine R) q (p.view (engine R) c) after (next (.ok r))) := by
  obtain ⟨hissues, -⟩ := meets_exec.mp (h.meets _ hstatus)
  have hrunning : p.isRunning = true := Process.isRunning_iff.mpr ⟨_, hstatus⟩
  have hadvance := h.advance hstatus hrun
  cases hissues with
  -- plain statements and the snapshots touch neither table
  | plain hplain =>
    have hout : ∀ kind ∈ [RowKind.memory, .version, .embedding, .semantic], kind ∉ q.kinds :=
      fun kind hkind hmem => of_decide_eq_true (List.all_eq_true.mp hplain _ hmem) hkind
    exact hready.aside hrun (hout _ (by simp)) (hout _ (by simp))
  | insertVersions => exact hready.aside hrun (by simp [Statement.kinds]) (by simp [Statement.kinds])
  | @updateEmbedding m m' row vector table values hdrafted hrevised hembedded hchosen hdescribed =>
    -- the hash table is not the semantic one
    cases table with
    | hash => exact hready.aside hrun (by simp [Statement.kinds]) (by simp [Statement.kinds])
    | semantic =>
      refine ⟨fun i hi => ?_, fun k hk => ?_⟩
      · exact hready.memories_advance hrun
          (fun j => not_mem_locks (by simp [Statement.kinds, RowKey.kind])) hi
      · obtain ⟨hkeyed, hsource, rfl⟩ := values_of_drafted hwork hrev hdrafted hchosen hdescribed
        rw [hprofile] at hkeyed
        exact h.stores hrevers hc hready hrunning hrev hdrafted hrevised hembedded hkeyed hsource
          hrun hk
  -- the `UPDATE` of the memory: the held row becomes the next version
  | @updateMemory m m' row hdrafted hfirst =>
    have huntouched := h.untouched hrunning hfirst
    -- held rows were held before, or are locked by this statement
    refine ⟨fun i hi => ?_, fun k hk => ?_⟩
    · rcases List.mem_append.mp hi with hi | hi
      · replace hi : RowKey.memory i ∈ Statement.awaits p.agent.tenant (.updateMemory m'.id m'.ownerId
          rev.expectedVersion row.toMemoryValues) (p.view (engine R) c) := hi
        simp only [Statement.awaits] at hi
        split at hi
        · cases hi
        · rename_i found hfound
          obtain rfl := RowKey.memory.inj (List.mem_singleton.mp hi)
          have hone : ((p.view (engine R) c).updateMemory p.agent.tenant m'.id m'.ownerId
              rev.expectedVersion row.toMemoryValues).1 = 1 := by
            simp only [Database.updateMemory, hfound]
          obtain ⟨-, old, hold, holdVersion, hown⟩ := hadvance.replaced rfl m' row
            ⟨_, List.mem_append_right _ (List.mem_singleton_self _), hone⟩
          obtain ⟨hversion, hrowVersion⟩ := version_of_drafted hrev hdrafted
          refine ⟨old, _, hold, hown, ?_⟩
          show old.version < row.version
          omega
      · exact absurd rfl (huntouched _ hi).1
    -- no row of the index is locked yet
    · rcases List.mem_append.mp hk with hk | hk
      · have hfree : RowKey.semantic k ∉ Statement.locks p.agent.tenant (rev.updating m' row)
            (p.view (engine R) c) := not_mem_locks (by simp [Revision.updating, Statement.kinds,
              RowKey.kind])
        exact absurd hk hfree
      · exact absurd rfl (huntouched _ hk).2

end Update

end OpenMemory.Postgres
