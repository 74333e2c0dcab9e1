import OpenMemory.Store.Lifecycle

/-!
# Idempotency keys of writes

`create`, `forget` and `import_memories` maintain the key index of an owner by separate
code. The index law (`KeyIndex`) says that no two live memories of an owner share a key
and that every key in use has its fingerprint recorded; it makes a replayed write return
the memory whose creation recorded the fingerprint.

Only imports can break it: they store a record without looking at its key
(`import_shares_key`). In runs whose imports bring new keys only, the law holds
(`keys_law`).
-/

namespace OpenMemory

open Lib MemoryApplicationService InMemoryStore

variable {R : Type} [Python R]

namespace InMemoryStore

variable {s s' s₀ : InMemoryStore R}

/-- One live memory for each owner and key, with its fingerprint recorded. -/
structure KeyIndex (s : InMemoryStore R) : Prop where
  unique : ∀ i j m m' k, s.memories.get? i = some m → s.memories.get? j = some m' →
    m.ownerId = m'.ownerId → m.idempotencyKey = some k → m'.idempotencyKey = some k → i = j
  recorded : ∀ i m k, s.memories.get? i = some m → m.idempotencyKey = some k →
    s.fingerprints.contains (m.ownerId, k) = true

/-- No live memory of the owner has the key. -/
def KeyUnused (s : InMemoryStore R) (o k : String) : Prop :=
  ∀ j m, s.memories.get? j = some m → m.ownerId = o → m.idempotencyKey ≠ some k

/-- Memories that are live before and after keep their key and its fingerprint. -/
def KeysKept (s s' : InMemoryStore R) : Prop :=
  ∀ i m m' k, s.memories.get? i = some m → s'.memories.get? i = some m' →
    m'.idempotencyKey = some k → m.ownerId = m'.ownerId ∧ m.idempotencyKey = some k ∧
      s'.fingerprints.get? (m'.ownerId, k) = s.fingerprints.get? (m'.ownerId, k)

theorem KeyIndex.alike (h : KeyIndex s) (hs : s.Alike s') : KeyIndex s' := by
  obtain ⟨hmemories, -, hfingerprints, -, -⟩ := hs
  constructor
  · rw [hmemories]
    exact h.unique
  · rw [hmemories, hfingerprints]
    exact h.recorded

theorem KeysKept.alike (h : KeysKept s s₀) (hs : s₀.Alike s') : KeysKept s s' := by
  obtain ⟨hmemories, -, hfingerprints, -, -⟩ := hs
  unfold KeysKept
  rw [hmemories, hfingerprints]
  exact h

theorem keysKept_refl (s : InMemoryStore R) : KeysKept s s := by
  intro i m m' k hm hm' hk
  rw [hm] at hm'
  cases hm'
  exact ⟨rfl, hk, rfl⟩

/-! ## Elementary steps -/

/-- The fingerprints with that of a new memory recorded under its key, if it has one. -/
def recordKey (fingerprints : Dict (String × String) String) (m : Memory R)
    (fingerprint : String) : Dict (String × String) String :=
  match m.idempotencyKey with
  | none => fingerprints
  | some k => fingerprints.set (m.ownerId, k) fingerprint

theorem putNew_fingerprints (s : InMemoryStore R) (m : Memory R) (fp : String)
    (vector : List R) : (s.putNew m fp vector).fingerprints = recordKey s.fingerprints m fp := by
  unfold recordKey
  show (match m.idempotencyKey with
    | none => s.fingerprints
    | some key => if key = "" then s.fingerprints else s.fingerprints.set (m.ownerId, key) fp) = _
  cases hkey : m.idempotencyKey with
  | none => rfl
  | some k =>
    have hne : k ≠ "" := by
      rintro rfl
      exact m.idempotencyKey_ne_empty hkey
    exact if_neg hne

/-- Storing a memory with an unused key under an unused id. -/
theorem KeyIndex.store {m : Memory R} {fp : String} (h : KeyIndex s)
    (habsent : s.memories.get? m.id = none)
    (hunused : ∀ k, m.idempotencyKey = some k → s.KeyUnused m.ownerId k)
    (hmemories : s'.memories = s.memories.set m.id m)
    (hfingerprints : s'.fingerprints = recordKey s.fingerprints m fp) :
    KeyIndex s' ∧ KeysKept s s' := by
  -- the new memory takes a key that no live memory of its owner has
  have hother : ∀ i m', s.memories.get? i = some m' → ∀ k, m'.idempotencyKey = some k →
      s'.fingerprints.get? (m'.ownerId, k) = s.fingerprints.get? (m'.ownerId, k) := by
    intro i m' hm' k hk
    rw [hfingerprints, recordKey]
    cases hkey : m.idempotencyKey with
    | none => rfl
    | some k₀ =>
      refine Dict.get?_set_of_ne _ _ fun heq => ?_
      obtain ⟨howner, rfl⟩ := Prod.mk.inj heq
      exact hunused k hkey i m' hm' howner hk
  -- only the new memory is new
  have hlive : ∀ i m', s'.memories.get? i = some m' →
      (i = m.id ∧ m' = m) ∨ (i ≠ m.id ∧ s.memories.get? i = some m') := by
    intro i m' hm'
    rw [hmemories, Dict.get?_set] at hm'
    by_cases hi : i = m.id
    · rw [if_pos hi] at hm'
      cases hm'
      exact .inl ⟨hi, rfl⟩
    · rw [if_neg hi] at hm'
      exact .inr ⟨hi, hm'⟩
  refine ⟨⟨?_, ?_⟩, ?_⟩
  -- unique: the key of the new memory was unused
  · intro i j m₁ m₂ k hm₁ hm₂ howner hk₁ hk₂
    rcases hlive i m₁ hm₁ with ⟨rfl, rfl⟩ | ⟨-, hm₁⟩
    · rcases hlive j m₂ hm₂ with ⟨rfl, -⟩ | ⟨-, hm₂⟩
      · rfl
      · exact absurd hk₂ (hunused k hk₁ j m₂ hm₂ howner.symm)
    · rcases hlive j m₂ hm₂ with ⟨rfl, rfl⟩ | ⟨-, hm₂⟩
      · exact absurd hk₁ (hunused k hk₂ i m₁ hm₁ howner)
      · exact h.unique i j m₁ m₂ k hm₁ hm₂ howner hk₁ hk₂
  -- recorded: its own key now, the others as before
  · intro i m' k hm' hk
    rcases hlive i m' hm' with ⟨-, rfl⟩ | ⟨-, hm'⟩
    · rw [hfingerprints, recordKey, hk]
      exact (Dict.contains_iff _ _).mpr ⟨fp, Dict.get?_set_self _ _ _⟩
    · obtain ⟨fp', hfp'⟩ := (Dict.contains_iff _ _).mp (h.recorded i m' k hm' hk)
      exact (Dict.contains_iff _ _).mpr ⟨fp', (hother i m' hm' k hk).trans hfp'⟩
  -- kept: an old memory has its key and its fingerprint
  · intro i m₁ m₂ k hm₁ hm₂ hk
    rcases hlive i m₂ hm₂ with ⟨rfl, -⟩ | ⟨-, hm₂⟩
    · rw [habsent] at hm₁
      cases hm₁
    · rw [hm₁] at hm₂
      cases hm₂
      exact ⟨rfl, hk, hother i m₁ hm₁ k hk⟩

/-- A new version has the key of the old one. -/
theorem KeyIndex.version {m m' : Memory R} (h : KeyIndex s)
    (hlive : s.memories.get? m.id = some m) (hsame : m.SameIdentity m')
    (hmemories : s'.memories = s.memories.set m'.id m')
    (hfingerprints : s'.fingerprints = s.fingerprints) : KeyIndex s' ∧ KeysKept s s' := by
  -- the next version has the key of the one before
  have hback : ∀ i m₁, s'.memories.get? i = some m₁ → ∃ m₀, s.memories.get? i = some m₀ ∧
      m₀.ownerId = m₁.ownerId ∧ m₀.idempotencyKey = m₁.idempotencyKey := by
    intro i m₁ hm₁
    rw [hmemories, Dict.get?_set] at hm₁
    by_cases hi : i = m'.id
    · rw [if_pos hi] at hm₁
      cases hm₁
      rw [hi, hsame.id]
      exact ⟨m, hlive, hsame.ownerId.symm, hsame.idempotencyKey.symm⟩
    · rw [if_neg hi] at hm₁
      exact ⟨m₁, hm₁, rfl, rfl⟩
  refine ⟨⟨?_, ?_⟩, ?_⟩
  · intro i j m₁ m₂ k hm₁ hm₂ howner hk₁ hk₂
    obtain ⟨n₁, hn₁, ho₁, hkey₁⟩ := hback i m₁ hm₁
    obtain ⟨n₂, hn₂, ho₂, hkey₂⟩ := hback j m₂ hm₂
    exact h.unique i j n₁ n₂ k hn₁ hn₂ (ho₁.trans (howner.trans ho₂.symm)) (hkey₁.trans hk₁)
      (hkey₂.trans hk₂)
  · intro i m₁ k hm₁ hk₁
    obtain ⟨n₁, hn₁, ho₁, hkey₁⟩ := hback i m₁ hm₁
    rw [hfingerprints, ← ho₁]
    exact h.recorded i n₁ k hn₁ (hkey₁.trans hk₁)
  · intro i m₁ m₂ k hm₁ hm₂ hk₂
    obtain ⟨n₂, hn₂, ho₂, hkey₂⟩ := hback i m₂ hm₂
    rw [hm₁] at hn₂
    cases hn₂
    exact ⟨ho₂, hkey₂.trans hk₂, by rw [hfingerprints]⟩

/-- A removal takes the key of the removed memory, which no other memory has. -/
theorem KeyIndex.remove {o : String} {m : Memory R} {i : UUID} (h : KeyIndex s)
    (hlive : s.memories.get? i = some m) (howner : m.ownerId = o) :
    KeyIndex (s.remove o m i) ∧ KeysKept s (s.remove o m i) := by
  -- what is live now was live before
  have hback : ∀ j m', (s.remove o m i).memories.get? j = some m' →
      j ≠ i ∧ s.memories.get? j = some m' := by
    intro j m' hm'
    replace hm' : (s.memories.pop i).get? j = some m' := hm'
    rw [Dict.get?_pop] at hm'
    by_cases hj : j = i
    · rw [if_pos hj] at hm'
      cases hm'
    · rw [if_neg hj] at hm'
      exact ⟨hj, hm'⟩
  -- at most the key of the removed memory is dropped, and no other memory has it
  have hfp : ∀ j m', (s.remove o m i).memories.get? j = some m' → ∀ k,
      m'.idempotencyKey = some k →
      (s.remove o m i).fingerprints.get? (m'.ownerId, k) = s.fingerprints.get? (m'.ownerId, k) := by
    intro j m' hm' k hk
    obtain ⟨hj, hm'⟩ := hback j m' hm'
    show (match m.idempotencyKey with
      | none => s.fingerprints
      | some key => if key = "" then s.fingerprints else s.fingerprints.pop (o, key)).get? _ = _
    cases hkey : m.idempotencyKey with
    | none => rfl
    | some k₀ =>
      dsimp only
      split_ifs with hempty
      · rfl
      · refine Dict.get?_pop_of_ne _ fun heq => ?_
        obtain ⟨ho, rfl⟩ := Prod.mk.inj heq
        exact hj (h.unique j i m' m k hm' hlive (ho.trans howner.symm) hk hkey)
  refine ⟨⟨?_, ?_⟩, ?_⟩
  · intro j j' m₁ m₂ k hm₁ hm₂ ho hk₁ hk₂
    exact h.unique j j' m₁ m₂ k (hback j m₁ hm₁).2 (hback j' m₂ hm₂).2 ho hk₁ hk₂
  · intro j m' k hm' hk
    obtain ⟨fp, hfp'⟩ := (Dict.contains_iff _ _).mp (h.recorded j m' k (hback j m' hm').2 hk)
    exact (Dict.contains_iff _ _).mpr ⟨fp, (hfp j m' hm' k hk).trans hfp'⟩
  · intro j m₁ m₂ k hm₁ hm₂ hk
    have hm₂' := (hback j m₂ hm₂).2
    rw [hm₁] at hm₂'
    cases hm₂'
    exact ⟨rfl, hk, hfp j m₁ hm₂ k hk⟩

/-! ## Calls -/

/-- A call that does not import keeps the law: a creation checks its key first. -/
theorem KeyIndex.effect {call : Call R} (h : KeyIndex s) (heffect : call.Effect s s') :
    KeyIndex s' ∧ KeysKept s s' := by
  cases heffect with
  | kept same => exact ⟨h.alike same, (keysKept_refl s).alike same⟩
  | @created m fingerprint vector _ _ fresh unused same =>
    -- a key without a fingerprint is no live memory's
    have hunused : ∀ k, m.idempotencyKey = some k → s.KeyUnused m.ownerId k := by
      intro k hk j m' hm' howner hk'
      obtain ⟨fp, hfp⟩ := (Dict.contains_iff _ _).mp (h.recorded j m' k hm' hk')
      rw [howner, unused k hk] at hfp
      cases hfp
    have hstored : KeyIndex (s.putNew m fingerprint vector) ∧
        KeysKept s (s.putNew m fingerprint vector) :=
      h.store fresh.1 hunused rfl (putNew_fingerprints s m fingerprint vector)
    obtain ⟨hindex, hkept⟩ := hstored
    exact ⟨hindex.alike same, hkept.alike same⟩
  | @versioned m m' history reason vector revision live _ _ _ same =>
    obtain ⟨args, hevolve⟩ := revision.evolve
    have hstored : KeyIndex (s.putVersion m' history (m'.snapshot reason) vector) ∧
        KeysKept s (s.putVersion m' history (m'.snapshot reason) vector) :=
      h.version (lookup_eq_some.mp live).1 (Memory.evolve_ok hevolve).identity rfl rfl
    obtain ⟨hindex, hkept⟩ := hstored
    exact ⟨hindex.alike same, hkept.alike same⟩
  | removed live same =>
    obtain ⟨hget, howner, -⟩ := lookup_eq_some.mp live
    obtain ⟨hindex, hkept⟩ := h.remove hget howner
    exact ⟨hindex.alike same, hkept.alike same⟩

/-- The keys that an import brings are new: no live memory of the owner has one, and no two
records of the package share one. Records of stored memories do not count, they are not
stored again. -/
def KeysNew (s : InMemoryStore R) (call : Call R) : Prop :=
  ∀ o records, call.request = .importMemories o records →
    ∀ record ∈ records, s.memories.get? record.memory.id = none →
      ∀ k, record.memory.idempotencyKey = some k → s.KeyUnused o k ∧
        ∀ record' ∈ records, s.memories.get? record'.memory.id = none →
          record'.memory.idempotencyKey = some k → record'.memory.id = record.memory.id

/-- What is live halfway through an import into `s`. -/
structure Halfway (s : InMemoryStore R) (records : List (MemoryRecordDto R))
    (s₁ : InMemoryStore R) : Prop where
  index : KeyIndex s₁
  kept : KeysKept s s₁
  grows : ∀ i, s₁.memories.get? i = none → s.memories.get? i = none
  origin : ∀ i m, s₁.memories.get? i = some m → s.memories.get? i = some m ∨
    (s.memories.get? i = none ∧ m.id = i ∧ ∃ record ∈ records, record.memory = m)

theorem Halfway.stores {call : Call R} {o : String} {records prepared : List (MemoryRecordDto R)}
    {s₁ s₂ : InMemoryStore R} (h : Halfway s records s₁) (hnew : KeysNew s call)
    (hreq : call.request = .importMemories o records)
    (howner : ∀ record ∈ records, record.memory.ownerId = o)
    (hprepared : ∀ p ∈ prepared, ∃ record ∈ records, record.memory = p.memory)
    (hstep : Stores prepared s₁ s₂) : Halfway s records s₂ := by
  cases hstep with
  | @intro p vector hp habsent _ =>
    obtain ⟨record, hrecord, hmemory⟩ := hprepared p hp
    have habsent₀ : s.memories.get? record.memory.id = none := by
      rw [hmemory]
      exact h.grows _ habsent
    -- a key of the package is new in the store, and one record has it
    have hunused : ∀ k, p.memory.idempotencyKey = some k → s₁.KeyUnused p.memory.ownerId k := by
      intro k hk j m hm hmowner hmk
      rw [← hmemory] at hk hmowner
      rw [howner record hrecord] at hmowner
      obtain ⟨hold, hpackage⟩ := hnew o records hreq record hrecord habsent₀ k hk
      rcases h.origin j m hm with hbefore | ⟨hbefore, rfl, record', hrecord', rfl⟩
      · exact hold j m hbefore hmowner hmk
      · -- an earlier record of the package with the key would have the same id
        have hid := hpackage record' hrecord' hbefore hmk
        rw [hid, hmemory, habsent] at hm
        cases hm
    have hstored : KeyIndex (InMemoryMemoryAdminRepository.storeRecord s₁ p vector) ∧
        KeysKept s₁ (InMemoryMemoryAdminRepository.storeRecord s₁ p vector) :=
      h.index.store habsent hunused rfl rfl
    obtain ⟨hindex, hkept⟩ := hstored
    refine ⟨hindex, ?_, ?_, ?_⟩
    -- kept: from the start to here, and by this record
    · intro i m m' k hm hm' hk
      have hlive : ∃ m₁, s₁.memories.get? i = some m₁ := by
        cases hs₁ : s₁.memories.get? i with
        | none =>
          rw [h.grows i hs₁] at hm
          cases hm
        | some m₁ => exact ⟨m₁, rfl⟩
      obtain ⟨m₁, hm₁⟩ := hlive
      obtain ⟨ho₁, hk₁, hfp₁⟩ := hkept i m₁ m' k hm₁ hm' hk
      obtain ⟨ho, hk₀, hfp⟩ := h.kept i m m₁ k hm hm₁ hk₁
      exact ⟨ho.trans ho₁, hk₀, hfp₁.trans (ho₁ ▸ hfp)⟩
    -- what is absent now was absent before
    · intro i hi
      replace hi : (s₁.memories.set p.memory.id p.memory).get? i = none := hi
      rw [Dict.get?_set] at hi
      by_cases heq : i = p.memory.id
      · rw [if_pos heq] at hi
        cases hi
      · rw [if_neg heq] at hi
        exact h.grows i hi
    -- what is live now was live before, or comes from this record
    · intro i m hm
      replace hm : (s₁.memories.set p.memory.id p.memory).get? i = some m := hm
      rw [Dict.get?_set] at hm
      by_cases heq : i = p.memory.id
      · rw [if_pos heq] at hm
        cases hm
        refine .inr ⟨?_, heq.symm, record, hrecord, hmemory⟩
        rw [heq]
        exact h.grows _ habsent
      · rw [if_neg heq] at hm
        exact h.origin i m hm

theorem prepared_memory {svc : MemoryApplicationService R}
    {records prepared : List (MemoryRecordDto R)} (h : List.Forall₂ (Prepared svc) records prepared) :
    ∀ p ∈ prepared, ∃ record ∈ records, record.memory = p.memory := by
  intro p hp
  obtain ⟨record, hrecord, hprepared⟩ := prepared_of_mem h hp
  refine ⟨record, hrecord, ?_⟩
  cases hprepared <;> rfl

/-- An import of new keys keeps the law. -/
theorem KeyIndex.imported {call : Call R} {o : String} {records : List (MemoryRecordDto R)}
    (h : KeyIndex s) (hnew : KeysNew s call) (hreq : call.request = .importMemories o records)
    (himported : Imported call.service o records s s') : KeyIndex s' ∧ KeysKept s s' := by
  obtain ⟨hvalid, prepared, s₁, hprepared, -, hstores, hsame⟩ := himported
  have howner : ∀ record ∈ records, record.memory.ownerId = o := by
    intro record hrecord
    obtain ⟨ids, u, hrun⟩ := hvalid record hrecord
    exact (validateImportRecord_ok hrun).owner
  have hstart : Halfway s records s :=
    ⟨h, keysKept_refl s, fun _ hi => hi, fun _ _ hm => .inl hm⟩
  have hend : Halfway s records s₁ := by
    refine Reaches.kept hstores ?_ hstart
    intro s₂ s₃ hstep hhalf
    exact hhalf.stores hnew hreq howner (prepared_memory hprepared) hstep
  exact ⟨hend.index.alike hsame, hend.kept.alike hsame⟩

theorem KeyIndex.call {call : Call R} (h : KeyIndex s) (hk : s.Keyed) (hfresh : call.DrawsFresh s)
    (hnew : KeysNew s call) : KeyIndex (call.attempt s).2 ∧ KeysKept s (call.attempt s).2 := by
  rcases Call.effect_or_imported hk hfresh with heffect | ⟨o, records, hreq, himported⟩
  · exact h.effect heffect
  · exact h.imported hnew hreq himported

/-! ## Replays of writes -/

theorem create_replayed {m : Memory R} {fp : String} {vector : List R} {r : WriteMemoryResult R}
    (h : (InMemoryMemoryRepository.create m fp vector).run s = .ok (r, s'))
    (hr : r.created = false) :
    ∃ k, m.idempotencyKey = some k ∧ s.fingerprints.get? (m.ownerId, k) = some fp ∧
      s.firstWithKey m.ownerId k = some r.memory := by
  rcases InMemoryMemoryRepository.create_ok h with ⟨rfl, -, -⟩ | ⟨k, hk, hfp, hfirst, -⟩
  · cases hr
  · exact ⟨k, hk, hfp, hfirst⟩

/-- A write that reports no creation answers with the first memory of its key. -/
theorem write_replayed {svc : MemoryApplicationService R} {c : WriteMemoryCommand R}
    {r : WriteMemoryResult R} (h : (svc.write (inMemoryUnitOfWork R) c).run s = .ok (r, s'))
    (hr : r.created = false) :
    ∃ k, c.idempotencyKey = some k ∧
      s.fingerprints.get? (c.ownerId, k) = some (fingerprintWriteCommand c) ∧
      s.firstWithKey c.ownerId k = some r.memory := by
  -- `create` looks the key up itself
  have hnew : ∀ timestamp, (svc.writeNew (inMemoryUnitOfWork R) c timestamp
      (fingerprintWriteCommand c)).run s = .ok (r, s') → ∃ k, c.idempotencyKey = some k ∧
        s.fingerprints.get? (c.ownerId, k) = some (fingerprintWriteCommand c) ∧
        s.firstWithKey c.ownerId k = some r.memory := by
    intro timestamp hnew
    simp only [writeNew, Txn.bind_ok, Txn.ofExcept_ok, inMemoryUnitOfWork] at hnew
    obtain ⟨vector, _, hvec, descriptor, _, ⟨-, rfl⟩, m, _, ⟨hm, rfl⟩, hcreate⟩ := hnew
    obtain ⟨-, -, rfl⟩ := embedChecked_ok hvec
    obtain ⟨-, howner, -, -, hkey, -⟩ := Memory.create_ok hm
    obtain ⟨k, hk, hfp, hfirst⟩ := create_replayed hcreate hr
    rw [howner] at hfp hfirst
    exact ⟨k, hkey.symm.trans hk, hfp, hfirst⟩
  simp only [write, Txn.bind_ok, Txn.ofExcept_ok] at h
  obtain ⟨_, _, ⟨-, rfl⟩, timestamp, _, hat, h⟩ := h
  obtain ⟨-, rfl⟩ := now_ok hat
  -- with a key, the prior memory is compared by its fingerprint
  cases hkey : truthyKey c.idempotencyKey with
  | none =>
    rw [hkey] at h
    exact hnew timestamp h
  | some k =>
    rw [hkey] at h
    obtain ⟨prior, _, hfind, h⟩ := Txn.bind_ok.mp h
    obtain ⟨rfl, ⟨rfl, -⟩ | ⟨l, rfl, hfp, hfirst⟩⟩ :=
      InMemoryMemoryRepository.findByIdempotencyKey_ok hfind
    · exact hnew timestamp h
    · simp only [Txn.bind_ok, raiseIf_ok, Txn.pure_ok] at h
      obtain ⟨_, _, ⟨hsame, -⟩, rfl, -⟩ := h
      have hsame : l.fingerprint = fingerprintWriteCommand c := by simpa using hsame
      exact ⟨k, (truthyKey_eq_some.mp hkey).1, hsame ▸ hfp, hfirst⟩

/-! ## The law along runs -/

/-- The call that made the memory under `i` appear left the fingerprint under its owner and
key. -/
def RecordedBy (may : InMemoryStore R → Call R → Prop) (calls : List (Call R)) (i : UUID)
    (o k fingerprint : String) : Prop :=
  ∃ call s₀ m₀, Made may calls call s₀ ∧ s₀.memories.get? i = none ∧
    (call.attempt s₀).2.memories.get? i = some m₀ ∧ m₀.ownerId = o ∧
    m₀.idempotencyKey = some k ∧
    (call.attempt s₀).2.fingerprints.get? (o, k) = some fingerprint

/-- What the keys of a run give: no two live memories of an owner share one, the fingerprint
of each is the one that its creation recorded, and a replayed write answers with the memory
whose creation recorded its fingerprint. -/
structure KeyLaw (may : InMemoryStore R → Call R → Prop) (calls : List (Call R))
    (s : InMemoryStore R) : Prop where
  unique : ∀ i j m m' k, s.memories.get? i = some m → s.memories.get? j = some m' →
    m.ownerId = m'.ownerId → m.idempotencyKey = some k → m'.idempotencyKey = some k → i = j
  recorded : ∀ i m k, s.memories.get? i = some m → m.idempotencyKey = some k →
    ∃ fp, s.fingerprints.get? (m.ownerId, k) = some fp ∧ RecordedBy may calls i m.ownerId k fp
  replayed : ∀ (svc : MemoryApplicationService R) (c : WriteMemoryCommand R)
    (r : WriteMemoryResult R) (s' : InMemoryStore R),
    (svc.write (inMemoryUnitOfWork R) c).run s = .ok (r, s') → r.created = false →
    ∃ k, c.idempotencyKey = some k ∧ s.memories.get? r.memory.id = some r.memory ∧
      RecordedBy may calls r.memory.id c.ownerId k (fingerprintWriteCommand c)

variable {calls : List (Call R)}

theorem keyIndex_of_played (h : Played KeysNew calls s) : KeyIndex s := by
  induction h with
  | start => exact ⟨fun _ _ _ _ _ hm => (by cases hm), fun _ _ _ hm => by cases hm⟩
  | next before fresh allowed ih => exact (ih.call before.inv.keyed fresh allowed).1

/-- The fingerprint of a live memory's key is the one its creation recorded. -/
theorem recordedBy_of_played (h : Played KeysNew calls s) {i : UUID} {m : Memory R} {k : String}
    (hm : s.memories.get? i = some m) (hk : m.idempotencyKey = some k) :
    ∃ fp, s.fingerprints.get? (m.ownerId, k) = some fp ∧
      RecordedBy KeysNew calls i m.ownerId k fp := by
  induction h generalizing m with
  | start => cases hm
  | @next calls s call before fresh allowed ih =>
    obtain ⟨hindex, hkept⟩ := (keyIndex_of_played before).call before.inv.keyed fresh allowed
    cases hs : s.memories.get? i with
    | none =>
      -- the memory appeared with this call
      obtain ⟨fp, hfp⟩ := (Dict.contains_iff _ _).mp (hindex.recorded i m k hm hk)
      exact ⟨fp, hfp, call, s, m, ⟨calls, [], rfl, before, fresh, allowed⟩, hs, hm, rfl, hk, hfp⟩
    | some m₀ =>
      obtain ⟨howner, hk₀, hfp⟩ := hkept i m₀ m k hs hm hk
      obtain ⟨fp, hfp₀, call', s₀, m₁, hmade, hrest⟩ := ih hs hk₀
      rw [howner] at hfp₀ hrest
      exact ⟨fp, hfp.trans hfp₀, call', s₀, m₁, hmade.later call, hrest⟩

/-- In a run whose imports bring new keys only, the keys are unique and replays faithful. -/
theorem keys_law (h : Played KeysNew calls s) : KeyLaw KeysNew calls s := by
  refine ⟨(keyIndex_of_played h).unique, fun i m k hm hk => recordedBy_of_played h hm hk, ?_⟩
  intro svc c r s' hrun hr
  obtain ⟨k, hkey, hfp, hfirst⟩ := write_replayed hrun hr
  obtain ⟨⟨i, hi⟩, howner, hk⟩ := firstWithKey_eq_some hfirst
  have hid : r.memory.id = i := h.inv.keyed i r.memory hi
  rw [← hid] at hi
  obtain ⟨fp, hfp', hrecorded⟩ := recordedBy_of_played h hi hk
  rw [howner] at hfp' hrecorded
  rw [hfp] at hfp'
  cases hfp'
  exact ⟨k, hkey, hi, hrecorded⟩

/-- A record of `alice` under the key `k1`, with one of two ids. -/
def keyedMemory (id : Fin (2 ^ 128)) (h : id = 7 ∨ id = 8) : Memory ℚ where
  id := ⟨id⟩
  ownerId := "alice"
  content := "tea at five"
  memoryType := .fact
  importance := 1 / 2
  confidence := 1 / 2
  state := .active
  version := 1
  createdAt := day2026 1
  updatedAt := day2026 1
  occurredAt := none
  space := none
  provenance := typedByUser
  embedding := some hashDescriptor
  idempotencyKey := some "k1"
  checked := by rcases h with rfl | rfl <;> decide +kernel

def keyedRecord (id : Fin (2 ^ 128)) (h : id = 7 ∨ id = 8) : MemoryRecordDto ℚ where
  memory := keyedMemory id h
  history := [(keyedMemory id h).snapshot "created"]
  relations := []
  embedding := some [1]
  writeFingerprint := some "0000000000000000000000000000000000000000000000000000000000000000"

/-- An import of one of the records, or of both. -/
def importKeyed (records : List (MemoryRecordDto ℚ)) : Call ℚ where
  service := serviceOn 2 9
  request := .importMemories "alice" records

theorem keys_law_one_record :
    ((importKeyed [keyedRecord 7 (.inl rfl)]).attempt {}).2.fingerprints.contains ("alice", "k1")
        = true ∧
      KeyLaw KeysNew [importKeyed [keyedRecord 7 (.inl rfl)]]
        ((importKeyed [keyedRecord 7 (.inl rfl)]).attempt {}).2 := by
  have hnew : KeysNew {} (importKeyed [keyedRecord 7 (.inl rfl)]) := by
    intro o records hreq record hrecord _ k _
    cases hreq
    constructor
    · intro _ _ hm
      cases hm
    · intro record' hrecord' _ _
      rw [List.mem_singleton.mp hrecord, List.mem_singleton.mp hrecord']
  exact ⟨by decide +kernel, keys_law (.next .start (fun h => by cases h) hnew)⟩

/-- A package may hold two records of one key, and both are stored. -/
theorem import_shares_key :
    ¬∀ (calls : List (Call ℚ)) (s : InMemoryStore ℚ), Played (fun _ _ => True) calls s →
      KeyLaw (fun _ _ => True) calls s := by
  intro hclaim
  let both := importKeyed [keyedRecord 7 (.inl rfl), keyedRecord 8 (.inr rfl)]
  have hplayed : Played (fun _ _ => True) [both] (both.attempt {}).2 :=
    .next .start (fun h => by cases h) trivial
  have hseven : ((both.attempt {}).2.memories.get? ⟨7⟩).map (fun m => (m.ownerId, m.idempotencyKey))
      = some ("alice", some "k1") := by decide +kernel
  have height : ((both.attempt {}).2.memories.get? ⟨8⟩).map (fun m => (m.ownerId, m.idempotencyKey))
      = some ("alice", some "k1") := by decide +kernel
  obtain ⟨m, hm, hkey⟩ := Option.map_eq_some_iff.mp hseven
  obtain ⟨m', hm', hkey'⟩ := Option.map_eq_some_iff.mp height
  obtain ⟨howner, hk⟩ := Prod.mk.inj hkey
  obtain ⟨howner', hk'⟩ := Prod.mk.inj hkey'
  have hsame := (hclaim _ _ hplayed).unique _ _ m m' "k1" hm hm' (howner.trans howner'.symm) hk hk'
  exact absurd hsame (by decide)

end InMemoryStore

end OpenMemory
