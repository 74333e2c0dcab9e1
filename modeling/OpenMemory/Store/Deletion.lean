import OpenMemory.Store.Invariant

/-!
# Deletion

Two questions about `forget` and `discard_candidate`.

- *Does a removed memory stay away?* A removal leaves the tombstone
  `(owner, tenant of the memory, id)`; import consults `(owner, tenant of the
  record, id)`. A package that carries the id under *another* tenant is therefore
  not blocked (`resurrected_under_another_tenant`). Where packages carry the id only
  under tenants for which it is tombstoned, the removed stay away over whole runs
  (`removed_stays_removed`): the invariant is `Gone`.
- *Is the memory gone when `forget` returns?* Yes, unless the call was answered from
  the ledger: a replayed key deletes nothing, and the fingerprint of a forget names
  neither the tenant nor the time (`forget_absent_iff`).
-/

namespace OpenMemory

open Lib MemoryApplicationService

namespace InMemoryStore

variable {R : Type} [Python R] {s s' : InMemoryStore R} {o : String} {i : UUID}
  {package : List (Memory R)}

/-- The store holds a memory of owner `o` under id `i`. -/
def Holds (s : InMemoryStore R) (o : String) (i : UUID) : Prop :=
  ∃ m, s.memories.get? i = some m ∧ m.ownerId = o

instance (s : InMemoryStore R) (o : String) (i : UUID) : Decidable (s.Holds o i) :=
  decidable_of_iff ((s.memories.get? i).any fun m => decide (m.ownerId = o)) (by
    unfold Holds
    cases s.memories.get? i <;> simp)

/-- A memory of `o` with id `i` was removed, under some tenant. -/
def Tombstoned (s : InMemoryStore R) (o : String) (i : UUID) : Prop :=
  ∃ t, (o, t, i) ∈ s.tombstones

/-- Removed, and not back. -/
def Gone (s : InMemoryStore R) (o : String) (i : UUID) : Prop := s.Tombstoned o i ∧ ¬s.Holds o i

/-- Whatever record with id `i` the call would import for `o` carries a tenant under
which that id is tombstoned. -/
def Blocked (o : String) (i : UUID) (s : InMemoryStore R) (call : Call R) : Prop :=
  call.request.ownerId = o → ∀ m ∈ call.request.package, m.id = i →
    (o, m.tenantId, i) ∈ s.tombstones

/-! ## Staying removed -/

/-- Tombstones are permanent. -/
theorem Change.tombstones (h : Change o package s s') : s.tombstones ⊆ s'.tombstones := by
  cases h with
  | removed => exact Finset.subset_insert _ _
  | created | versioned | related | restored | recorded => exact fun _ h => h

theorem Tombstoned.changes {o' : String} (ht : s.Tombstoned o' i)
    (h : Changes o package s s') : s'.Tombstoned o' i :=
  Reaches.kept (I := fun s₁ => s₁.Tombstoned o' i) h
    (fun _ _ hchange ⟨t, ht⟩ => ⟨t, hchange.tombstones ht⟩) ht

/-- A memory that a change makes disappear leaves a tombstone. -/
theorem Change.holds {o' : String} (h : Change o package s s') (hs : s.Holds o' i) :
    s'.Holds o' i ∨ s'.Tombstoned o' i := by
  obtain ⟨m, hget, howner⟩ := hs
  cases h with
  | @created m' _ _ _ _ hfresh _ =>
    have hne : i ≠ m'.id := by
      rintro rfl
      rw [hfresh.1] at hget
      cases hget
    exact .inl ⟨m, (Dict.get?_set_of_ne _ _ hne).trans hget, howner⟩
  | @versioned m₀ m' _ _ _ hlive _ hsame _ _ =>
    by_cases hi : i = m'.id
    · have heq : m = m₀ := by
        rw [hi, hsame.id, hlive] at hget
        exact (Option.some.inj hget).symm
      exact .inl ⟨m', hi ▸ Dict.get?_set_self _ _ _, by rw [hsame.ownerId, ← heq, howner]⟩
    · exact .inl ⟨m, (Dict.get?_set_of_ne _ _ hi).trans hget, howner⟩
  | @removed m₀ j _ hlive howner₀ =>
    by_cases hi : i = j
    · have heq : m₀ = m := by
        rw [hi, hlive] at hget
        exact Option.some.inj hget
      refine .inr ⟨m₀.tenantId, ?_⟩
      show (o', m₀.tenantId, i) ∈ insert (o, m₀.tenantId, j) _
      rw [← howner, ← heq, howner₀, hi]
      exact Finset.mem_insert_self _ _
    · exact .inl ⟨m, (Dict.get?_pop_of_ne _ hi).trans hget, howner⟩
  | related => exact .inl ⟨m, hget, howner⟩
  | @restored record _ _ _ habsent _ =>
    have hne : i ≠ record.memory.id := by
      rintro rfl
      rw [habsent] at hget
      cases hget
    exact .inl ⟨m, (Dict.get?_set_of_ne _ _ hne).trans hget, howner⟩
  | recorded => exact .inl ⟨m, hget, howner⟩

/-- A memory that a call makes disappear leaves a tombstone. -/
theorem changes_holds {o' : String} (h : Changes o package s s') (hs : s.Holds o' i) :
    s'.Holds o' i ∨ s'.Tombstoned o' i := by
  refine Reaches.kept (I := fun s₁ => s₁.Holds o' i ∨ s₁.Tombstoned o' i) h ?_ (.inl hs)
  rintro s₁ s₂ hchange (hheld | htomb)
  · exact hchange.holds hheld
  · exact .inr (htomb.changes (.single hchange))

/-- A change that brings a memory in finds its id unburied: a created one draws a
fresh id, and a restored one passes the tombstone check of its own tenant. -/
theorem Gone.change {o' : String} (hgone : Gone s o' i) (h : Change o package s s')
    (hblocked : o = o' → ∀ m ∈ package, m.id = i → (o', m.tenantId, i) ∈ s.tombstones) :
    Gone s' o' i := by
  refine ⟨hgone.1.changes (.single h), ?_⟩
  rintro ⟨m, hget, howner⟩
  cases h with
  | @created m' _ _ _ _ hfresh _ =>
    replace hget : (s.memories.set m'.id m').get? i = some m := hget
    rw [Dict.get?_set] at hget
    by_cases hi : i = m'.id
    · obtain ⟨t, ht⟩ := hgone.1
      exact hfresh.2 o' t (hi ▸ ht)
    · rw [if_neg hi] at hget
      exact hgone.2 ⟨m, hget, howner⟩
  | @versioned m₀ m' _ _ _ hlive _ hsame _ _ =>
    replace hget : (s.memories.set m'.id m').get? i = some m := hget
    rw [Dict.get?_set] at hget
    by_cases hi : i = m'.id
    · rw [if_pos hi] at hget
      cases hget
      refine hgone.2 ⟨m₀, ?_, hsame.ownerId.symm.trans howner⟩
      rw [hi, hsame.id, hlive]
    · rw [if_neg hi] at hget
      exact hgone.2 ⟨m, hget, howner⟩
  | @removed m₀ j _ hlive howner₀ =>
    replace hget : (s.memories.pop j).get? i = some m := hget
    rw [Dict.get?_pop] at hget
    by_cases hi : i = j
    · rw [if_pos hi] at hget
      cases hget
    · rw [if_neg hi] at hget
      exact hgone.2 ⟨m, hget, howner⟩
  | related => exact hgone.2 ⟨m, hget, howner⟩
  | @restored record _ hmember hvalid habsent hunblocked =>
    replace hget : (s.memories.set record.memory.id record.memory).get? i = some m := hget
    rw [Dict.get?_set] at hget
    by_cases hi : i = record.memory.id
    · rw [if_pos hi] at hget
      cases hget
      have ho : o = o' := hvalid.owner.symm.trans howner
      have hmem := hblocked ho record.memory hmember hi.symm
      rw [hi, ← ho] at hmem
      exact hunblocked hmem
    · rw [if_neg hi] at hget
      exact hgone.2 ⟨m, hget, howner⟩
  | recorded => exact hgone.2 ⟨m, hget, howner⟩

theorem Gone.changes {o' : String} (hgone : Gone s o' i) (h : Changes o package s s')
    (hblocked : o = o' → ∀ m ∈ package, m.id = i → (o', m.tenantId, i) ∈ s.tombstones) :
    Gone s' o' i := by
  -- tombstones only grow, so what blocks the package at the start blocks it throughout
  have hboth : Gone s' o' i ∧ s.tombstones ⊆ s'.tombstones := by
    refine Reaches.kept (I := fun s₁ => Gone s₁ o' i ∧ s.tombstones ⊆ s₁.tombstones) h ?_
      ⟨hgone, fun _ h => h⟩
    rintro s₁ s₂ hchange ⟨hgone₁, hsub⟩
    refine ⟨hgone₁.change hchange fun ho m hm hid => hsub (hblocked ho m hm hid), ?_⟩
    exact fun _ h => hchange.tombstones (hsub h)
  exact hboth.1

theorem Gone.run (hinv : Inv s) (hgone : Gone s o i) (h : Run (Blocked o i) s s') :
    Gone s' o i := by
  have hboth : Inv s' ∧ Gone s' o i := by
    refine Reaches.kept (I := fun s₁ => Inv s₁ ∧ Gone s₁ o i) h ?_ ⟨hinv, hgone⟩
    rintro s₁ s₂ ⟨call, hfresh, hblocked, rfl⟩ ⟨hinv₁, hgone₁⟩
    exact ⟨hinv₁.attempt hfresh,
      hgone₁.changes (Call.attempt_changes hinv₁.keyed hfresh) hblocked⟩
  exact hboth.2

/-- Once a call has removed the memory of `o` under `i`, no later state of a run holds
one, as long as every package imported for `o` that carries `i` carries it under a
tenant for which it is tombstoned. -/
theorem removed_stays_removed {call : Call R} (hs : Reachable s) (hfresh : call.DrawsFresh s)
    (hheld : s.Holds o i) (hgone : ¬(call.attempt s).2.Holds o i)
    (hrun : Run (Blocked o i) (call.attempt s).2 s') : ¬s'.Holds o i := by
  have htomb : (call.attempt s).2.Tombstoned o i :=
    (changes_holds (Call.attempt_changes hs.inv.keyed hfresh) hheld).resolve_left hgone
  exact (Gone.run (hs.inv.attempt hfresh) ⟨htomb, hgone⟩ hrun).2

/-- Tenant `acme` captures a note of `alice`. -/
def captureNote : Call ℚ where
  service := serviceOn 1 7
  request := .capture (captureCommand "acme" "alice" "tea at five" "k1")

/-- `acme` discards it. -/
def discardNote : Call ℚ where
  service := serviceOn 2 8
  request := .discardCandidate
    { tenantId := "acme", ownerId := "alice", memoryId := ⟨7⟩, expectedVersion := 1,
      idempotencyKey := "d1" }

/-- The note as a package carries it, under the given tenant. -/
def packedNote (tenantId : Option String) (h : tenantId = none ∨ tenantId = some "acme") :
    Memory ℚ where
  id := ⟨7⟩
  ownerId := "alice"
  content := "tea at five"
  memoryType := .fact
  importance := 1 / 2
  confidence := 1 / 2
  state := .candidate
  version := 1
  createdAt := day2026 1
  updatedAt := day2026 1
  occurredAt := none
  space := none
  provenance := sentByClient
  embedding := some hashDescriptor
  tenantId := tenantId
  checked := by rcases h with rfl | rfl <;> decide +kernel

/-- A later import of that package for `alice`. -/
def importNote (tenantId : Option String) (h : tenantId = none ∨ tenantId = some "acme") :
    Call ℚ where
  service := serviceOn 3 9
  request := .importMemories "alice"
    [{ memory := packedNote tenantId h, history := [(packedNote tenantId h).snapshot "created"],
       relations := [], embedding := none }]

theorem removed_stays_removed_own_tenant :
    ¬((importNote (some "acme") (.inr rfl)).attempt
      (discardNote.attempt (captureNote.attempt {}).2).2).2.Holds "alice" ⟨7⟩ := by
  have hreach : Reachable (captureNote.attempt {}).2 :=
    .single ⟨captureNote, fun _ => ⟨rfl, fun _ _ h => by simp at h⟩, trivial, rfl⟩
  have hfresh : discardNote.DrawsFresh (captureNote.attempt {}).2 := nofun
  refine removed_stays_removed hreach hfresh (by decide +kernel) (by decide +kernel)
    (.single ⟨importNote (some "acme") (.inr rfl), nofun, ?_, rfl⟩)
  intro _ m hm _
  rw [List.mem_singleton.mp hm]
  decide +kernel

/-- A package without a tenant, as the administration import builds them, brings a
discarded capture back. -/
theorem resurrected_under_another_tenant :
    ¬∀ (s s' : InMemoryStore ℚ) (call : Call ℚ) (o : String) (i : UUID), Reachable s →
      call.DrawsFresh s → s.Holds o i → ¬(call.attempt s).2.Holds o i →
      Run (fun _ _ => True) (call.attempt s).2 s' → ¬s'.Holds o i := by
  intro hclaim
  have hreach : Reachable (captureNote.attempt {}).2 :=
    .single ⟨captureNote, fun _ => ⟨rfl, fun _ _ h => by simp at h⟩, trivial, rfl⟩
  refine hclaim (captureNote.attempt {}).2
    ((importNote none (.inl rfl)).attempt (discardNote.attempt (captureNote.attempt {}).2).2).2
    discardNote "alice" ⟨7⟩ hreach nofun (by decide +kernel) (by decide +kernel)
    (.single ⟨importNote none (.inl rfl), nofun, trivial, rfl⟩) ?_
  decide +kernel

/-! ## What `forget` leaves -/

/-- No memory that `(o, t)` addresses under `i`, and nothing left of one: a history, a
vector or a relation at `i` belongs to a live memory that `(o, t)` does not address. -/
structure Absent (s : InMemoryStore R) (o : String) (i : UUID) (t : Option String) : Prop where
  memory : s.lookup o i t = none
  history : ∀ history, s.historyByMemory.get? i = some history → ∃ m, s.memories.get? i = some m
  vector : ∀ vector, s.vectors.get? i = some vector → ∃ m, s.memories.get? i = some m
  relation : ∀ key r, s.relations.get? key = some r → r.sourceId = i ∨ r.targetId = i →
    ∃ m, s.memories.get? i = some m

/-- Under the invariant there are no remains without a memory. -/
theorem Inv.absent_iff {t : Option String} (hinv : Inv s) :
    s.Absent o i t ↔ s.lookup o i t = none := by
  refine ⟨Absent.memory, fun hnone => ⟨hnone, ?_, ?_, ?_⟩⟩
  · intro history hh
    rw [← Dict.contains_iff, ← hinv.histories]
    exact (Dict.contains_iff _ _).mpr ⟨history, hh⟩
  · intro vector hv
    rw [← Dict.contains_iff, ← hinv.vectors]
    exact (Dict.contains_iff _ _).mpr ⟨vector, hv⟩
  · intro key r hr hend
    obtain ⟨-, -, hsource, htarget⟩ := hinv.relations key r hr
    have hlive : ∀ j, (s.lookup r.ownerId j none).isSome → ∃ m, s.memories.get? j = some m := by
      intro j hj
      obtain ⟨m, hm⟩ := Option.isSome_iff_exists.mp hj
      exact ⟨m, (lookup_eq_some.mp hm).1⟩
    rcases hend with rfl | rfl
    · exact hlive _ hsource
    · exact hlive _ htarget

/-- The deletion itself leaves nothing to address. -/
theorem lookup_of_forgot {t : Option String} {b : Bool} (h : Forgot s o i t b s') :
    s'.lookup o i t = none := by
  rcases h with ⟨-, hnone, rfl⟩ | ⟨m, -, -, rfl⟩
  · exact hnone
  · show ((s.memories.pop i).get? i).filter _ = none
    rw [Dict.get?_pop_self]
    rfl

/-- A `forget` that returns has left nothing of the memory it addresses if and only if
it was not answered from the ledger, or there was nothing to remove before it. -/
theorem forget_absent_iff {c : ForgetMemoryCommand} {r : ForgetMemoryResult} (hs : Reachable s)
    (h : (forget (inMemoryUnitOfWork R) c).run s = .ok (r, s')) :
    s'.Absent c.ownerId c.memoryId c.tenantId ↔
      (∀ k, truthyKey c.idempotencyKey = some k →
        s.idempotencyOperations.get? (c.ownerId, .forget, k) = none) ∨
      s.lookup c.ownerId c.memoryId c.tenantId = none := by
  have hinv' : Inv s' := hs.inv.changes (forget_changes h)
  rw [hinv'.absent_iff]
  rcases forget_ok h with ⟨hkey, hforgot⟩ | ⟨k, hkey, hled⟩
  · refine iff_of_true (lookup_of_forgot hforgot) (.inl fun k hk => ?_)
    rw [hkey] at hk
    cases hk
  · cases hled with
    | executed hnew hforgot _ _ =>
      have hnone := lookup_of_forgot hforgot
      refine iff_of_true hnone (.inl fun k' hk' => ?_)
      rw [hkey] at hk'
      cases hk'
      exact hnew
    | replayed hprior _ =>
      constructor
      · exact .inr
      · rintro (hunused | hnone)
        · have hnew := hunused k hkey
          rw [hprior.entry] at hnew
          cases hnew
        · exact hnone

/-- A note that tenant `acme` wrote for `alice`. -/
def acmeNote : Call ℚ where
  service := serviceOn 1 7
  request := .write (noteCommand "alice" "tea at five" none (some "acme"))

/-- A forget of that note under one key, by the given tenant. -/
def forgetNote (tenantId : String) : ForgetMemoryCommand where
  ownerId := "alice"
  memoryId := ⟨7⟩
  idempotencyKey := some "f1"
  tenantId := some tenantId

/-- The store after `acme` wrote the note and tenant `other` tried to forget it. -/
def afterOther : InMemoryStore ℚ :=
  (Call.attempt ⟨serviceOn 2 8, .forget (forgetNote "other")⟩ (acmeNote.attempt {}).2).2

theorem reachable_afterOther : Reachable afterOther :=
  .tail (.single ⟨acmeNote, fun _ => ⟨rfl, fun _ _ h => by simp at h⟩, trivial, rfl⟩)
    ⟨⟨serviceOn 2 8, .forget (forgetNote "other")⟩, nofun, trivial, rfl⟩

theorem forget_absent_iff_other_key :
    (Txn.attempt (forget (inMemoryUnitOfWork ℚ)
        { forgetNote "acme" with idempotencyKey := some "f2" }) afterOther).2.Absent
      "alice" ⟨7⟩ (some "acme") := by
  obtain ⟨r, hrun, -⟩ := Txn.run_of_attempt_map
    (x := forget (inMemoryUnitOfWork ℚ) { forgetNote "acme" with idempotencyKey := some "f2" })
    (s := afterOther) (f := ForgetMemoryResult.forgotten) (b := true) (by decide +kernel)
  refine (forget_absent_iff reachable_afterOther hrun).mpr (.inl ?_)
  intro k hk
  cases hk
  decide +kernel

/-- `acme` forgets its note under the key that `other` used in vain: the call returns
and the note is still there. -/
theorem forget_replayed_key_keeps_memory :
    ¬∀ (s s' : InMemoryStore ℚ) (c : ForgetMemoryCommand) (r : ForgetMemoryResult),
      Reachable s → (forget (inMemoryUnitOfWork ℚ) c).run s = .ok (r, s') →
      s'.Absent c.ownerId c.memoryId c.tenantId := by
  intro hclaim
  obtain ⟨r, hrun, -⟩ := Txn.run_of_attempt_map
    (x := forget (inMemoryUnitOfWork ℚ) (forgetNote "acme")) (s := afterOther)
    (f := ForgetMemoryResult.forgotten) (b := false) (by decide +kernel)
  have habsent := (hclaim _ _ _ _ reachable_afterOther hrun).memory
  exact absurd habsent (by decide +kernel)

end InMemoryStore

end OpenMemory
