import OpenMemory.Store.Keys

/-!
# Descriptors and vectors

A memory names the profile of its vector (`memory.embedding`), and the vector is stored
beside it. Services with different providers may work on one store, so every operation
that stores a vector has to store the descriptor of the provider it used.

`pin` does not: it embeds with the provider of the calling service and keeps the old
descriptor (`pin_keeps_descriptor`). In runs whose pins are made by services of the
memory's own profile, vectors and descriptors agree (`vectors_agree`).
-/

namespace OpenMemory

open Lib MemoryApplicationService InMemoryStore

variable {R : Type} [Python R]

theorem EmbeddingProfile.descriptor_dimension {p : EmbeddingProfile} {d : EmbeddingDescriptor}
    (h : p.descriptor = .ok d) : d.dimension = p.dimension := by
  have hfields := EmbeddingDescriptor.make_ok h
  rw [hfields]

namespace InMemoryStore

variable {s s' : InMemoryStore R} {may : InMemoryStore R → Call R → Prop}
  {calls : List (Call R)} {call : Call R} {i : UUID} {m : Memory R} {vector : List R}

/-- A provider of the profile that served a call of the run gives the vector for the
content. -/
def Computed (may : InMemoryStore R → Call R → Prop) (calls : List (Call R))
    (d : EmbeddingDescriptor) (content : String) (vector : List R) : Prop :=
  ∃ call s₀, Made may calls call s₀ ∧
    call.service.embeddingProvider.profile.descriptor = .ok d ∧
    call.service.embeddingProvider.embed content false = .ok vector

/-- An import of the run stored the memory with the vector that its record carried. -/
def Carried (may : InMemoryStore R → Call R → Prop) (calls : List (Call R)) (i : UUID)
    (vector : List R) : Prop :=
  ∃ call s₀ o records record, Made may calls call s₀ ∧
    call.request = .importMemories o records ∧ record ∈ records ∧ record.memory.id = i ∧
    record.embedding = some vector ∧ s₀.memories.get? i = none ∧
    (call.attempt s₀).2.vectors.get? i = some vector

/-- The vector fits the descriptor of the memory under `i`. -/
def Fits (may : InMemoryStore R → Call R → Prop) (calls : List (Call R)) (i : UUID)
    (m : Memory R) (vector : List R) : Prop :=
  ∃ d, m.embedding = some d ∧ (vector.length : Int) = d.dimension ∧
    (Computed may calls d m.content vector ∨ Carried may calls i vector)

/-- Every live memory has a vector, which fits. -/
def VectorsAgree (may : InMemoryStore R → Call R → Prop) (calls : List (Call R))
    (s : InMemoryStore R) : Prop :=
  ∀ i m, s.memories.get? i = some m →
    ∃ vector, s.vectors.get? i = some vector ∧ Fits may calls i m vector

/-- The call embeds the text it stores, for the profile it stores: a written text is
embedded like its whitespace-normal form, and a pin that moves its memory is made by a
service of the memory's profile. -/
structure EmbedsOwn (s : InMemoryStore R) (call : Call R) : Prop where
  written : ∀ c, call.request = .write c →
    call.service.embeddingProvider.embed c.content false
      = call.service.embeddingProvider.embed (collapse c.content) false
  captured : ∀ c, call.request = .capture c →
    call.service.embeddingProvider.embed c.content false
      = call.service.embeddingProvider.embed (collapse c.content) false
  pinned : ∀ c m, call.request = .pin c →
    s.lookup c.ownerId c.memoryId (some c.tenantId) = some m → m.version = c.expectedVersion →
    m.state ∈ [MemoryState.confirmed, .pinned] → m.state ≠ c.targetState →
    ∃ d, m.embedding = some d ∧ call.service.embeddingProvider.profile.descriptor = .ok d

/-! ## Along a run -/

theorem Fits.later (h : Fits may calls i m vector) (call : Call R) :
    Fits may (calls ++ [call]) i m vector := by
  obtain ⟨d, hd, hsize, hsource⟩ := h
  refine ⟨d, hd, hsize, ?_⟩
  rcases hsource with ⟨call', s₀, hmade, hrest⟩ | ⟨call', s₀, o, records, record, hmade, hrest⟩
  · exact .inl ⟨call', s₀, hmade.later call, hrest⟩
  · exact .inr ⟨call', s₀, o, records, record, hmade.later call, hrest⟩

/-- What the call itself computed, under its own profile. -/
theorem fits_of_embed {d : EmbeddingDescriptor} (hmade : Made may calls call s)
    (hd : m.embedding = some d)
    (hours : call.service.embeddingProvider.profile.descriptor = .ok d)
    (hembed : call.service.embeddingProvider.embed m.content false = .ok vector)
    (hsize : (vector.length : Int) = call.service.embeddingProvider.profile.dimension) :
    Fits may calls i m vector := by
  refine ⟨d, hd, ?_, .inl ⟨call, s, hmade, hours, hembed⟩⟩
  rw [EmbeddingProfile.descriptor_dimension hours]
  exact hsize

/-- A created memory names the profile of the service and its vector is of its content. -/
theorem creation_fits {fingerprint : String} (howns : EmbedsOwn s call)
    (hmade : Made may calls call s) (hcreation : call.Creation m fingerprint vector)
    (hsize : (vector.length : Int) = call.service.embeddingProvider.profile.dimension) :
    Fits may calls i m vector := by
  cases hcreation with
  | @written c timestamp descriptor asked _ ours created embedded =>
    obtain ⟨hcontent, -⟩ := Memory.create_holds created
    rw [howns.written c asked] at embedded
    refine fits_of_embed hmade (Memory.create_embedding created) ours ?_ hsize
    rw [hcontent]
    exact embedded
  | @captured c timestamp descriptor asked _ ours created embedded =>
    obtain ⟨hcontent, -⟩ := Memory.create_holds created
    rw [howns.captured c asked] at embedded
    refine fits_of_embed hmade (Memory.create_embedding created) ours ?_ hsize
    rw [hcontent]
    exact embedded

/-- So does a revised one; a pin leaves the descriptor, which is then the service's. -/
theorem revision_fits {m' : Memory R} (howns : EmbedsOwn s call) (hmade : Made may calls call s)
    (hrevision : call.Revision m m')
    (hlive : s.lookup call.request.ownerId m.id call.request.addressTenant = some m)
    (hembed : call.service.embeddingProvider.embed m'.content false = .ok vector)
    (hsize : (vector.length : Int) = call.service.embeddingProvider.profile.dimension) :
    Fits may calls i m' vector := by
  cases hrevision with
  | confirmed _ _ _ _ ours evolved =>
    exact fits_of_embed hmade (Memory.evolve_ok evolved).embedding ours hembed hsize
  | @pinned c _ asked named expected guard moved evolved =>
    rw [asked, named] at hlive
    obtain ⟨d, hd, ours⟩ := howns.pinned c m asked hlive expected guard moved
    refine fits_of_embed hmade ?_ ours hembed hsize
    exact (Memory.evolve_ok evolved).embedding.trans hd
  | updated _ _ _ ours evolved =>
    exact fits_of_embed hmade (Memory.evolve_ok evolved).embedding ours hembed hsize

/-- A record that an import stores brings a vector of the size its descriptor names, its own
or one that the service computed. -/
theorem prepared_fits {o : String} {records prepared : List (MemoryRecordDto R)}
    {p : MemoryRecordDto R} (hmade : Made may calls call s)
    (hreq : call.request = .importMemories o records)
    (hvalid : ∀ record ∈ records, ∃ ids u, validateImportRecord o ids record = .ok u)
    (hprepared : List.Forall₂ (Prepared call.service) records prepared)
    (hsized : Sized call.service records p) (hp : p ∈ prepared)
    (hvector : p.embedding = some vector) (habsent : s.memories.get? p.memory.id = none)
    (hstored : (call.attempt s).2.vectors.get? p.memory.id = some vector) :
    Fits may calls p.memory.id p.memory vector := by
  by_cases hmem : p ∈ records
  · obtain ⟨ids, u, hrun⟩ := hvalid p hmem
    simp only [validateImportRecord, except_bind_ok, raiseIf_except_ok] at hrun
    obtain ⟨_, -, _, -, _, -, _, -, _, -, _, hdim, -⟩ := hrun
    rw [hvector] at hdim
    cases hd : p.memory.embedding with
    | none =>
      rw [hd] at hdim
      cases hdim
    | some d =>
      rw [hd] at hdim
      have hsize : (vector.length : Int) = d.dimension := by simpa [someAnd] using hdim
      exact ⟨d, hd, hsize, .inr ⟨call, s, o, records, p, hmade, hreq, hmem, rfl, hvector, habsent,
        hstored⟩⟩
  · have hsize := (hsized vector hvector).resolve_left hmem
    obtain ⟨record, hrecord, hprep⟩ := prepared_of_mem hprepared hp
    cases hprep with
    | kept => exact absurd hrecord hmem
    | embedded hdescriptor hours hembed =>
      cases hvector
      exact fits_of_embed hmade hdescriptor hours hembed hsize

/-- What is live after an import, with its vector: what was before, or a stored record. -/
theorem stores_live {prepared : List (MemoryRecordDto R)} {s₁ : InMemoryStore R}
    (h : Reaches (Stores prepared) s s₁) (hm : s₁.memories.get? i = some m) :
    (s.memories.get? i = some m ∧ s₁.vectors.get? i = s.vectors.get? i) ∨
      ∃ p ∈ prepared, ∃ vector, p.memory = m ∧ m.id = i ∧ s.memories.get? i = none ∧
        p.embedding = some vector ∧ s₁.vectors.get? i = some vector := by
  induction h with
  | refl => exact .inl ⟨hm, rfl⟩
  | @tail s₁ s₂ hrun hstep ih =>
    cases hstep with
    | @intro p vector hp habsent hvector =>
      replace hm : (s₁.memories.set p.memory.id p.memory).get? i = some m := hm
      show (_ ∧ (s₁.vectors.set p.memory.id vector).get? i = _) ∨
        ∃ p' ∈ prepared, ∃ vector', _ ∧ _ ∧ _ ∧ _ ∧
          (s₁.vectors.set p.memory.id vector).get? i = _
      rw [Dict.get?_set] at hm ⊢
      by_cases hi : i = p.memory.id
      · rw [if_pos hi] at hm ⊢
        cases hm
        refine .inr ⟨p, hp, vector, rfl, hi.symm, ?_, hvector, rfl⟩
        rw [hi]
        exact stores_grow hrun habsent
      · rw [if_neg hi] at hm ⊢
        exact ih hm

/-- One call that embeds its own text for its own profile. -/
theorem VectorsAgree.step (h : VectorsAgree EmbedsOwn calls s) (hplayed : Played EmbedsOwn calls s)
    (hfresh : call.DrawsFresh s) (howns : EmbedsOwn s call) :
    VectorsAgree EmbedsOwn (calls ++ [call]) (call.attempt s).2 := by
  have hmade : Made EmbedsOwn (calls ++ [call]) call s :=
    ⟨calls, [], rfl, hplayed, hfresh, howns⟩
  have hbefore : ∀ {j : UUID} {m' : Memory R}, s.memories.get? j = some m' →
      ∃ vector, s.vectors.get? j = some vector ∧ Fits EmbedsOwn (calls ++ [call]) j m' vector := by
    intro j m' hm'
    obtain ⟨vector, hvector, hfits⟩ := h j m' hm'
    exact ⟨vector, hvector, hfits.later call⟩
  intro i m hm
  rcases Call.effect_or_imported hplayed.inv.keyed hfresh with heffect | ⟨o, records, hreq, himported⟩
  · cases heffect with
    | kept same =>
      rw [same.memories] at hm
      rw [same.vectors]
      exact hbefore hm
    | @created m₀ fingerprint vector creation size fresh _ same =>
      rw [same.memories] at hm
      rw [same.vectors]
      replace hm : (s.memories.set m₀.id m₀).get? i = some m := hm
      show ∃ vector', (s.vectors.set m₀.id vector).get? i = some vector' ∧ _
      rw [Dict.get?_set] at hm ⊢
      by_cases hi : i = m₀.id
      · rw [if_pos hi] at hm ⊢
        cases hm
        exact ⟨vector, rfl, creation_fits howns hmade creation size⟩
      · rw [if_neg hi] at hm ⊢
        exact hbefore hm
    | @versioned m₀ m₁ history reason vector revision live _ embedded size same =>
      rw [same.memories] at hm
      rw [same.vectors]
      replace hm : (s.memories.set m₁.id m₁).get? i = some m := hm
      show ∃ vector', (s.vectors.set m₁.id vector).get? i = some vector' ∧ _
      rw [Dict.get?_set] at hm ⊢
      by_cases hi : i = m₁.id
      · rw [if_pos hi] at hm ⊢
        cases hm
        exact ⟨vector, rfl, revision_fits howns hmade revision live embedded size⟩
      · rw [if_neg hi] at hm ⊢
        exact hbefore hm
    | @removed m₀ j _ same =>
      rw [same.memories] at hm
      rw [same.vectors]
      replace hm : (s.memories.pop j).get? i = some m := hm
      show ∃ vector', (s.vectors.pop j).get? i = some vector' ∧ _
      rw [Dict.get?_pop] at hm ⊢
      by_cases hi : i = j
      · rw [if_pos hi] at hm
        cases hm
      · rw [if_neg hi] at hm ⊢
        exact hbefore hm
  · obtain ⟨hvalid, prepared, s₁, hprepared, hsized, hstores, hsame⟩ := himported
    rw [hsame.memories] at hm
    rcases stores_live hstores hm with ⟨hm₀, hvectors⟩ | ⟨p, hp, vector, rfl, hid, habsent, hpv, hv⟩
    · rw [hsame.vectors, hvectors]
      exact hbefore hm₀
    · have hstored : (call.attempt s).2.vectors.get? p.memory.id = some vector := by
        rw [hsame.vectors, hid]
        exact hv
      rw [← hid] at habsent ⊢
      exact ⟨vector, hstored, prepared_fits hmade hreq hvalid hprepared (hsized p hp) hp hpv habsent
        hstored⟩

/-- In a run whose pins are made by services of the memory's profile, every vector fits the
descriptor beside it. -/
theorem vectors_agree (h : Played EmbedsOwn calls s) : VectorsAgree EmbedsOwn calls s := by
  induction h with
  | start =>
    intro i m hm
    cases hm
  | next before fresh allowed ih => exact VectorsAgree.step ih before fresh allowed

/-- A provider of another profile, with two dimensions. -/
def otherProvider : EmbeddingProvider ℚ where
  profile := { id := "semantic", version := "v1", dimension := 2 }
  embed _ _ := .ok [1, 1]

/-- The confirmed memory is pinned, through a service with the given provider. -/
def firstPin (provider : EmbeddingProvider ℚ) : Call ℚ where
  service := { serviceOn 3 9 with embeddingProvider := provider }
  request := .pin
    { tenantId := "acme", ownerId := "alice", memoryId := ⟨7⟩, expectedVersion := 2,
      pinned := true, idempotencyKey := "p1" }

/-- The store after the capture and the confirmation. -/
def confirmedStore : InMemoryStore ℚ := (firstConfirmation.attempt (firstCapture.attempt {}).2).2

theorem played_confirmed {may : InMemoryStore ℚ → Call ℚ → Prop} (hmay : may {} firstCapture)
    (hmay' : may (firstCapture.attempt {}).2 firstConfirmation) :
    Played may [firstCapture, firstConfirmation] confirmedStore :=
  .next (played_firstCapture hmay) (fun h => by cases h) hmay'

theorem vectors_agree_firstPin :
    ((firstPin hashProvider).attempt confirmedStore).2.vectors.contains ⟨7⟩ = true ∧
      VectorsAgree EmbedsOwn [firstCapture, firstConfirmation, firstPin hashProvider]
        ((firstPin hashProvider).attempt confirmedStore).2 := by
  have hcapture : EmbedsOwn {} firstCapture :=
    ⟨fun _ _ => rfl, fun _ _ => rfl, fun _ _ h => by cases h⟩
  have hconfirm : EmbedsOwn (firstCapture.attempt {}).2 firstConfirmation :=
    ⟨fun _ _ => rfl, fun _ _ => rfl, fun _ _ h => by cases h⟩
  have hembedding : (confirmedStore.lookup "alice" ⟨7⟩ (some "acme")).map (fun m => m.embedding)
      = some (some hashDescriptor) := by decide +kernel
  have hpin : EmbedsOwn confirmedStore (firstPin hashProvider) := by
    refine ⟨fun _ _ => rfl, fun _ _ => rfl, ?_⟩
    intro c m hc hlive _ _ _
    cases hc
    replace hlive : confirmedStore.lookup "alice" ⟨7⟩ (some "acme") = some m := hlive
    rw [hlive] at hembedding
    exact ⟨hashDescriptor, Option.some.inj hembedding, rfl⟩
  refine ⟨by decide +kernel, vectors_agree ?_⟩
  exact .next (played_confirmed hcapture hconfirm) (fun h => by cases h) hpin

/-- A pin through a service with another provider: the vector is replaced, the descriptor
is not. -/
theorem pin_keeps_descriptor :
    ¬∀ (calls : List (Call ℚ)) (s : InMemoryStore ℚ), Played (fun _ _ => True) calls s →
      VectorsAgree (fun _ _ => True) calls s := by
  intro hclaim
  have hplayed : Played (fun _ _ => True) [firstCapture, firstConfirmation, firstPin otherProvider]
      ((firstPin otherProvider).attempt confirmedStore).2 :=
    .next (played_confirmed trivial trivial) (fun h => by cases h) trivial
  have hmemory : (((firstPin otherProvider).attempt confirmedStore).2.memories.get? ⟨7⟩).map
      (fun m => m.embedding) = some (some hashDescriptor) := by decide +kernel
  have hvectors : ((firstPin otherProvider).attempt confirmedStore).2.vectors.get? ⟨7⟩
      = some [1, 1] := by decide +kernel
  obtain ⟨m, hm, hembedding⟩ := Option.map_eq_some_iff.mp hmemory
  obtain ⟨vector, hvector, d, hd, hsize, -⟩ := hclaim _ _ hplayed _ m hm
  rw [hvectors] at hvector
  rw [hembedding] at hd
  cases hvector
  cases hd
  exact absurd hsize (by decide)

end InMemoryStore

end OpenMemory
