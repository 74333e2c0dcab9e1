import OpenMemory.Application.Reference
import OpenMemory.Postgres.Effects
import OpenMemory.Postgres.Transactions

/-!
# The vectors that a search scores

A candidate of `search_candidates` should be scored with a vector of the memory's current
content: one that the provider of the profile computed of it, or one that the import of that
version supplied (`Sourced`). Rows of the semantic table name the version they were computed
of, and the join compares it. Rows of the hash table do not, so they must follow every change
of content; but an update by a service of another dimension leaves them as they are.

`Fresh` is the invariant of both tables, and `search_sourced` the result over runs: it holds
along every run in which no such update changes the content under a hash row, and in which the
provider embeds the text of a write like the normalised text that is stored.
-/

namespace OpenMemory.Postgres

open Lib
open MonadExcept (ofExcept)
open MemoryApplicationService PostgresMemoryRepository

variable {R : Type} [Python R]

/-! ## Where a vector comes from -/

/-- An import of the memory at the version carried the vector. -/
def Supplied (before : List (Transaction R)) (i : UUID) (version : Int) (vector : List R) : Prop :=
  ∃ t ∈ before, ∃ ownerId records, t.work = .request (.importMemories ownerId records) ∧
    ∃ record ∈ records, record.memory.id = i ∧ record.memory.version = version ∧
      record.embedding = some vector

/-- The vector was computed by a provider of the profile from the content, or supplied by
an import of the memory at the version. -/
inductive Sourced (before : List (Transaction R)) (profileId profileVersion : String)
    (dimension : Int) (i : UUID) (version : Int) (content : String) (vector : List R) : Prop
  | computed (t : Transaction R) (ran : t ∈ before) (id : t.profile.id = profileId)
      (ofVersion : t.profile.version = profileVersion) (ofDimension : t.profile.dimension = dimension)
      (embedded : t.service.embeddingProvider.embed content false = .ok vector)
  | supplied (imported : Supplied before i version vector)

theorem Sourced.mono {before later : List (Transaction R)} {profileId profileVersion : String}
    {dimension : Int} {i : UUID} {version : Int} {content : String} {vector : List R}
    (h : Sourced before profileId profileVersion dimension i version content vector)
    (hmono : ∀ t ∈ before, t ∈ later) :
    Sourced later profileId profileVersion dimension i version content vector := by
  cases h with
  | computed t ran id ofVersion ofDimension embedded =>
    exact .computed t (hmono t ran) id ofVersion ofDimension embedded
  | supplied imported =>
    obtain ⟨t, ran, hrest⟩ := imported
    exact .supplied ⟨t, hmono t ran, hrest⟩

/-- The plaintext content of a row. -/
def Opens (encryptor : Option TenantEnvelopeEncryptor) (i : UUID) (row : MemoryRow R)
    (content : String) : Prop :=
  match row.payload with
  | .plain text _ => content = text
  | .cipher text _ => ∃ e tenant, encryptor = some e ∧ row.tenantId = some tenant ∧
      e.decryptContent tenant i text = .ok content

omit [Python R] in
theorem opens_congr {encryptor : Option TenantEnvelopeEncryptor} {i : UUID} {row row' : MemoryRow R}
    (hpayload : row'.payload = row.payload) (htenant : row'.tenantId = row.tenantId)
    {content : String} (h : Opens encryptor i row' content) : Opens encryptor i row content := by
  unfold Opens at h ⊢
  rw [hpayload, htenant] at h
  exact h

/-- Decrypting what was encrypted for the same tenant and record gives the plaintext. -/
def Reversible (encryptor : Option TenantEnvelopeEncryptor) : Prop :=
  ∀ e, encryptor = some e → ∀ tenant i plaintext keyVersion sealed opened,
    e.encryptContent tenant i plaintext keyVersion = .ok sealed →
    e.decryptContent tenant i sealed = .ok opened → opened = plaintext

/-- The hash row belongs to a memory of the same tenant, and its vector is sourced from the
memory's content. -/
def HashFresh (encryptor : Option TenantEnvelopeEncryptor) (before : List (Transaction R))
    (db : Database R) (i : UUID) (e : EmbeddingRow R) : Prop :=
  ∃ row, db.memories.get? i = some row ∧ e.tenantId = row.tenantId ∧
    ∀ content, Opens encryptor i row content →
      Sourced before e.profileId e.profileVersion e.dimension i row.version content e.vector

/-- The same of a semantic row, whose vector counts only at the memory's version. -/
def SemanticFresh (encryptor : Option TenantEnvelopeEncryptor) (before : List (Transaction R))
    (db : Database R) (k : SemanticKey) (e : SemanticRow R) : Prop :=
  ∃ row, db.memories.get? k.1 = some row ∧ e.tenantId = row.tenantId ∧
    e.sourceVersion ≤ row.version ∧ (e.sourceVersion = row.version →
      ∀ content, Opens encryptor k.1 row content →
        Sourced before k.2.1 k.2.2 e.dimension k.1 row.version content e.vector)

/-- The invariant: all content is in normal form, and all vectors are current. -/
structure Fresh (encryptor : Option TenantEnvelopeEncryptor) (before : List (Transaction R))
    (db : Database R) : Prop where
  normal : ∀ i row content, db.memories.get? i = some row → Opens encryptor i row content →
    collapse content = content
  hash : ∀ i e, db.embeddings.get? i = some e → HashFresh encryptor before db i e
  semantic : ∀ k e, db.semantic.get? k = some e → SemanticFresh encryptor before db k e

namespace Fresh

variable {encryptor : Option TenantEnvelopeEncryptor} {before : List (Transaction R)}
  {db db' : Database R}

theorem empty : Fresh encryptor before ({} : Database R) where
  normal i row content h := by cases h
  hash i e h := by cases h
  semantic k e h := by cases h

theorem mono {later : List (Transaction R)} (h : Fresh encryptor before db)
    (hmono : ∀ t ∈ before, t ∈ later) : Fresh encryptor later db where
  normal := h.normal
  hash i e he := by
    obtain ⟨row, hrow, htenant, hsourced⟩ := h.hash i e he
    exact ⟨row, hrow, htenant, fun content hopens => (hsourced content hopens).mono hmono⟩
  semantic k e he := by
    obtain ⟨row, hrow, htenant, hle, hsourced⟩ := h.semantic k e he
    exact ⟨row, hrow, htenant, hle,
      fun hversion content hopens => (hsourced hversion content hopens).mono hmono⟩

theorem congr (h : Fresh encryptor before db) (hindex : db'.index = db.index) :
    Fresh encryptor before db' := by
  obtain ⟨hmemories, hrest⟩ := Prod.mk.inj hindex
  obtain ⟨hembeddings, hsemantic⟩ := Prod.mk.inj hrest
  constructor
  · rw [hmemories]
    exact h.normal
  · unfold HashFresh
    rw [hmemories, hembeddings]
    exact h.hash
  · unfold SemanticFresh
    rw [hmemories, hsemantic]
    exact h.semantic

/-! ## Writing rows -/

/-- The row of a memory opens to its content. -/
theorem opens_encoded (hrev : Reversible encryptor) {execute : (q : Statement R) → DbTxn R q.Result}
    {tenant : Option UUID} {memory : Memory R} {fingerprint : Option String} {row : MemoryRow R}
    (h : Session.memoryValues ⟨tenant, encryptor, execute⟩ memory fingerprint = .ok row)
    {content : String} (hopens : Opens encryptor memory.id row content) :
    content = memory.content := by
  unfold Session.memoryValues at h
  split at h
  · cases h
  · simp only [except_bind_ok, except_pure_ok] at h
    obtain ⟨_, -, payload, hpayload, rfl⟩ := h
    cases tenant with
    | none =>
      obtain rfl := except_pure_ok.mp hpayload
      exact hopens
    | some tenant =>
      cases hcase : encryptor with
      | none =>
        subst hcase
        cases hpayload
      | some e =>
        subst hcase
        simp only [Session.cloudFields, except_bind_ok, except_pure_ok] at hpayload
        obtain ⟨sealed, hsealed, _, -, rfl⟩ := hpayload
        obtain ⟨e', tenant', he, htenant, hopened⟩ := hopens
        obtain rfl := Option.some.inj he
        obtain rfl := Option.some.inj htenant
        exact hrev e rfl tenant memory.id memory.content 1 sealed content hsealed hopened

/-- A new memory with a sourced vector. -/
theorem inserted (hrev : Reversible encryptor) {tenant : Option UUID} {memory : Memory R}
    {vector : List R} (h : Fresh encryptor before db)
    (hins : Inserted (Session.sequential R tenant encryptor) memory vector db db')
    (hsourced : ∀ d, memory.embedding = some d → Sourced before d.profileId d.profileVersion
      d.dimension memory.id memory.version memory.content vector) :
    Fresh encryptor before db' := by
  obtain ⟨habsent, ⟨fingerprint, row, hrow, hmemories⟩, table, values, htable, hvalues, hcases⟩ :=
    hins
  obtain ⟨htenant, hversion⟩ := memoryValues_ok hrow
  obtain ⟨d, hd, rfl⟩ := embeddingValues_eq hvalues
  have hopens : ∀ content, Opens encryptor memory.id row content → content = memory.content :=
    fun content => opens_encoded hrev hrow
  have hself : db'.memories.get? memory.id = some row := by
    rw [hmemories, Dict.get?_set_self]
  -- no row of the two tables belongs to a memory that was not there
  have hne : ∀ {j : UUID} {old : MemoryRow R}, db.memories.get? j = some old → j ≠ memory.id := by
    rintro j old hold rfl
    rw [habsent] at hold
    cases hold
  have hother : ∀ {j : UUID} {old : MemoryRow R}, db.memories.get? j = some old →
      db'.memories.get? j = some old := by
    intro j old hold
    rw [hmemories, Dict.get?_set_of_ne _ _ (hne hold)]
    exact hold
  have hsource : ∀ content, Opens encryptor memory.id row content → Sourced before d.profileId
      d.profileVersion d.dimension memory.id row.version content vector := by
    intro content hcontent
    rw [hopens content hcontent, hversion]
    exact hsourced d hd
  have hkeptHash : ∀ j e, db.embeddings.get? j = some e → HashFresh encryptor before db' j e := by
    intro j e he
    obtain ⟨old, hold, hrest⟩ := h.hash j e he
    exact ⟨old, hother hold, hrest⟩
  have hkeptSemantic : ∀ k e, db.semantic.get? k = some e →
      SemanticFresh encryptor before db' k e := by
    intro k e he
    obtain ⟨old, hold, hrest⟩ := h.semantic k e he
    exact ⟨old, hother hold, hrest⟩
  constructor
  · intro j old content hold hcontent
    rw [hmemories, Dict.get?_set] at hold
    by_cases hj : j = memory.id
    · rw [if_pos hj] at hold
      obtain rfl := Option.some.inj hold
      subst hj
      rw [hopens content hcontent]
      exact memory.collapse_content
    · rw [if_neg hj] at hold
      exact h.normal j old content hold hcontent
  · intro j e he
    rcases hcases with ⟨-, hembeddings, -⟩ | ⟨-, hembeddings, -⟩
    · rw [hembeddings, Dict.get?_set] at he
      by_cases hj : j = memory.id
      · rw [if_pos hj] at he
        obtain rfl := Option.some.inj he
        subst hj
        exact ⟨row, hself, htenant.symm, hsource⟩
      · rw [if_neg hj] at he
        exact hkeptHash j e he
    · rw [hembeddings] at he
      exact hkeptHash j e he
  · intro k e he
    rcases hcases with ⟨-, -, hsemantic⟩ | ⟨-, -, v, hv, hsemantic⟩
    · rw [hsemantic] at he
      exact hkeptSemantic k e he
    · rw [hsemantic, Dict.get?_set] at he
      by_cases hk : k = (memory.id, d.profileId, d.profileVersion)
      · rw [if_pos hk] at he
        obtain rfl := Option.some.inj he
        subst hk
        have hv : v = memory.version := by
          by_cases h384 : d.dimension = 384
          · rw [if_pos h384] at hv
            exact (Option.some.inj hv).symm
          · rw [if_neg h384] at hv
            cases hv
        refine ⟨row, hself, htenant.symm, ?_, fun _ => hsource⟩
        show v ≤ row.version
        rw [hv, hversion]
      · rw [if_neg hk] at he
        exact hkeptSemantic k e he

/-- A new version with a sourced vector. An update of the other dimension leaves the hash row
behind, so that its vector has to be of the new content already. -/
theorem updated (hrev : Reversible encryptor) {tenant : Option UUID} {memory : Memory R} {v : Int}
    {vector : List R} {old row : MemoryRow R} {table : EmbeddingTable} {values : EmbeddingValues R}
    {db₁ : Database R} (h : Fresh encryptor before db)
    (hup : Updated (Session.sequential R tenant encryptor) memory v vector db old row table values
      db₁ db')
    (hnext : memory.version = v + 1)
    (hsourced : ∀ d, memory.embedding = some d → Sourced before d.profileId d.profileVersion
      d.dimension memory.id memory.version memory.content vector)
    (hkept : table ≠ .hash → ∀ e, db.embeddings.get? memory.id = some e → Sourced before e.profileId
      e.profileVersion e.dimension memory.id memory.version memory.content e.vector) :
    Fresh encryptor before db' := by
  obtain ⟨htenant, hversion⟩ := memoryValues_ok hup.encoded
  obtain ⟨d, hd, rfl⟩ := embeddingValues_eq hup.described
  obtain ⟨hget, holdTenant, -⟩ := get?_of_owned hup.owned
  obtain ⟨hmemories₁, hembeddings₁, hsemantic₁⟩ := hup.stored
  obtain ⟨hmemories, hcases⟩ := updateEmbedding_ok hup.embedded
  let stored : MemoryRow R := { old with toMemoryValues := row.toMemoryValues }
  have hself : db'.memories.get? memory.id = some stored := by
    rw [hmemories, hmemories₁, Dict.get?_set_self]
  have hother : ∀ {j : UUID}, j ≠ memory.id → db'.memories.get? j = db.memories.get? j := by
    intro j hj
    rw [hmemories, hmemories₁, Dict.get?_set_of_ne _ _ hj]
  have hopens : ∀ content, Opens encryptor memory.id stored content → content = memory.content :=
    fun content => opens_encoded hrev hup.encoded
  have hstoredVersion : stored.version = memory.version := hversion
  have hstoredTenant : stored.tenantId = tenant := htenant
  have hsource : ∀ content, Opens encryptor memory.id stored content → Sourced before d.profileId
      d.profileVersion d.dimension memory.id stored.version content vector := by
    intro content hcontent
    rw [hopens content hcontent, hstoredVersion]
    exact hsourced d hd
  -- rows of the semantic table that stay are of an older version of this memory, or of another
  have hkeptSemantic : ∀ k e, db.semantic.get? k = some e →
      SemanticFresh encryptor before db' k e := by
    intro k e he
    obtain ⟨kept, hkept, hrest⟩ := h.semantic k e he
    by_cases hk : k.1 = memory.id
    · rw [hk, hget] at hkept
      obtain rfl := Option.some.inj hkept
      obtain ⟨htenants, hle, -⟩ := hrest
      have hold := hup.version
      refine ⟨stored, hk ▸ hself, ?_, ?_, ?_⟩
      · rw [htenants, holdTenant, hstoredTenant]
        rfl
      · omega
      · intro heq
        omega
    · exact ⟨kept, (hother hk).trans hkept, hrest⟩
  have hkeptHash : ∀ j e, j ≠ memory.id → db.embeddings.get? j = some e →
      HashFresh encryptor before db' j e := by
    intro j e hj he
    obtain ⟨kept, hkept, hrest⟩ := h.hash j e he
    exact ⟨kept, (hother hj).trans hkept, hrest⟩
  have hotherTable : table ≠ .hash → ∀ j e, db.embeddings.get? j = some e →
      HashFresh encryptor before db' j e := by
    intro htable j e he
    by_cases hj : j = memory.id
    · subst hj
      obtain ⟨kept, hkept', htenants, -⟩ := h.hash _ e he
      obtain rfl := Option.some.inj (hget.symm.trans hkept')
      refine ⟨stored, hself, by rw [htenants, holdTenant, hstoredTenant]; rfl, ?_⟩
      intro content hcontent
      rw [hopens content hcontent, hstoredVersion]
      exact hkept htable e he
    · exact hkeptHash j e hj he
  constructor
  · intro j kept content hkept' hcontent
    by_cases hj : j = memory.id
    · subst hj
      obtain rfl := Option.some.inj (hself.symm.trans hkept')
      rw [hopens content hcontent]
      exact memory.collapse_content
    · rw [hother hj] at hkept'
      exact h.normal j kept content hkept' hcontent
  · intro j e he
    cases hcases with
    | hashNone hnone hembeddings _ =>
      rw [hembeddings₁] at hnone hembeddings
      rw [hembeddings] at he
      refine hkeptHash j e ?_ he
      rintro rfl
      -- the row would have been visible
      obtain ⟨kept, hkept', htenants, -⟩ := h.hash _ e he
      obtain rfl := Option.some.inj (hget.symm.trans hkept')
      exact Option.filter_eq_none_iff.mp hnone e he
        (decide_eq_true (htenants.trans holdTenant))
    | hashRow _ _ hembeddings _ =>
      rw [hembeddings, hembeddings₁, Dict.get?_set] at he
      by_cases hj : j = memory.id
      · rw [if_pos hj] at he
        obtain rfl := Option.some.inj he
        subst hj
        exact ⟨stored, hself, hstoredTenant.symm, hsource⟩
      · rw [if_neg hj] at he
        exact hkeptHash j e hj he
    | semanticNone _ hembeddings _ =>
      rw [hembeddings, hembeddings₁] at he
      exact hotherTable (by decide) j e he
    | semanticRow _ _ _ hembeddings _ =>
      rw [hembeddings, hembeddings₁] at he
      exact hotherTable (by decide) j e he
  · intro k e he
    cases hcases with
    | hashNone _ _ hsemantic =>
      rw [hsemantic, hsemantic₁] at he
      exact hkeptSemantic k e he
    | hashRow _ _ _ hsemantic =>
      rw [hsemantic, hsemantic₁] at he
      exact hkeptSemantic k e he
    | semanticNone _ _ hsemantic =>
      rw [hsemantic, hsemantic₁] at he
      exact hkeptSemantic k e he
    | semanticRow key _ _ _ hsemantic =>
      rw [hsemantic, hsemantic₁, Dict.get?_set] at he
      by_cases hk : k = (memory.id, d.profileId, d.profileVersion)
      · rw [if_pos hk] at he
        obtain rfl := Option.some.inj he
        subst hk
        have h384 : d.dimension = 384 := by
          have hchosen := hup.chosen
          rw [tableOf, hd] at hchosen
          exact embeddingTable_semantic hchosen
        refine ⟨stored, hself, hstoredTenant.symm, ?_, fun _ => hsource⟩
        show (if d.dimension = 384 then some memory.version else none).getD _ ≤ stored.version
        rw [if_pos h384, hstoredVersion]
        exact le_rfl
      · rw [if_neg hk, Dict.get?_pop] at he
        by_cases hkey : k = key
        · rw [if_pos hkey] at he
          cases he
        · rw [if_neg hkey] at he
          exact hkeptSemantic k e he

/-- A vector for the semantic table, computed of the row at the version that it names. -/
theorem upserted (h : Fresh encryptor before db) {tenant : Option UUID} {i : UUID}
    {profile : EmbeddingProfile} {row : MemoryRow R} {vector : List R}
    (hrow : db.visible tenant i = some row)
    (hsourced : ∀ content, Opens encryptor i row content →
      Sourced before profile.id profile.version profile.dimension i row.version content vector)
    (hdb : db.upsertSemantic tenant i row.version profile vector = .ok db') :
    Fresh encryptor before db' := by
  simp only [Database.upsertSemantic, except_bind_ok, except_pure_ok] at hdb
  obtain ⟨_, -, _, -, rfl⟩ := hdb
  obtain ⟨hget, htenant⟩ := Option.filter_eq_some_iff.mp hrow
  refine ⟨h.normal, h.hash, ?_⟩
  intro k e he
  replace he : (db.semantic.set (i, profile.id, profile.version) _).get? k = some e := he
  rw [Dict.get?_set] at he
  by_cases hk : k = (i, profile.id, profile.version)
  · rw [if_pos hk] at he
    obtain rfl := Option.some.inj he
    subst hk
    exact ⟨row, hget, (of_decide_eq_true htenant).symm, le_rfl, fun _ => hsourced⟩
  · rw [if_neg hk] at he
    exact h.semantic k e he

/-- A cutover changes descriptor columns only. -/
theorem cutover (h : Fresh encryptor before db) (tenant : Option UUID) (ownerId : String)
    (profile : EmbeddingProfile) : Fresh encryptor before (db.cutover tenant ownerId profile) := by
  -- the columns that the invariant reads stay
  have hget : ∀ {j : UUID} {row : MemoryRow R}, db.memories.get? j = some row →
      ∃ row', (db.cutover tenant ownerId profile).memories.get? j = some row' ∧
        row'.tenantId = row.tenantId ∧ row'.version = row.version ∧ row'.payload = row.payload := by
    intro j row hrow
    refine ⟨_, Dict.get?_mapValues_eq_some.mpr ⟨row, hrow, rfl⟩, ?_⟩
    split <;> exact ⟨rfl, rfl, rfl⟩
  constructor
  · intro j row' content hrow' hcontent
    obtain ⟨row, hrow, hmap⟩ := Dict.get?_mapValues_eq_some.mp hrow'
    obtain ⟨row'', hrow'', htenant, -, hpayload⟩ := hget hrow
    obtain rfl := Option.some.inj (hrow'.symm.trans hrow'')
    exact h.normal j row content hrow (opens_congr hpayload htenant hcontent)
  · intro j e he
    obtain ⟨row, hrow, htenants, hsourced⟩ := h.hash j e he
    obtain ⟨row', hrow', htenant, hversion, hpayload⟩ := hget hrow
    refine ⟨row', hrow', htenants.trans htenant.symm, fun content hcontent => ?_⟩
    rw [hversion]
    exact hsourced content (opens_congr hpayload htenant hcontent)
  · intro k e he
    obtain ⟨row, hrow, htenants, hle, hsourced⟩ := h.semantic k e he
    obtain ⟨row', hrow', htenant, hversion, hpayload⟩ := hget hrow
    refine ⟨row', hrow', htenants.trans htenant.symm, hversion ▸ hle, fun heq content hcontent => ?_⟩
    rw [hversion]
    exact hsourced (heq.trans hversion) content (opens_congr hpayload htenant hcontent)

end Fresh

end OpenMemory.Postgres
