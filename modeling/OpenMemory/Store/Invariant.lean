import OpenMemory.Store.Changes
import OpenMemory.Application.Reference

/-!
# The representation invariant of the store

`Inv` ties the seven maps together: which keys they share, what a history is a
history of, between what a relation may stand, which memory a write key stands for,
and that no ledger entry is left half done.

Each elementary change keeps it (`Inv.change`), hence each call and each run does
(`Reachable.inv`), rollbacks and multi-record imports included. Two exceptions of
the code are thereby dead: `next(...)` without a default always finds its memory,
and a claim never meets an operation in progress.
-/

namespace OpenMemory

open Lib MemoryApplicationService InMemoryMemoryAdminRepository

namespace InMemoryStore

variable {R : Type} [Python R] {s s' : InMemoryStore R} {o : String} {package : List (Memory R)}

/-- The representation invariant. -/
structure Inv (s : InMemoryStore R) : Prop where
  keyed : s.Keyed
  vectors : ∀ i, s.vectors.contains i = s.memories.contains i
  histories : ∀ i, s.historyByMemory.contains i = s.memories.contains i
  versions : ∀ i m history, s.memories.get? i = some m → s.historyByMemory.get? i = some history →
    history.map MemoryVersion.version = versionRange m.version ∧ ∀ v ∈ history, v.memoryId = i
  relations : ∀ key r, s.relations.get? key = some r → key = r.key ∧ r.sourceId ≠ r.targetId ∧
    (s.lookup r.ownerId r.sourceId none).isSome ∧ (s.lookup r.ownerId r.targetId none).isSome
  fingerprints : ∀ o k fp, s.fingerprints.get? (o, k) = some fp →
    ∃ i m, s.memories.get? i = some m ∧ m.ownerId = o ∧ m.idempotencyKey = some k
  ledger : ∀ key entry, s.idempotencyOperations.get? key = some entry → entry.status = .completed

/-- The empty store. -/
theorem inv_empty : Inv ({} : InMemoryStore R) where
  keyed _ _ h := nomatch h
  vectors _ := rfl
  histories _ := rfl
  versions _ _ _ h := nomatch h
  relations _ _ h := nomatch h
  fingerprints _ _ _ h := nomatch h
  ledger _ _ h := nomatch h

/-! ## Small facts -/

theorem versionRange_succ {v : Int} (hv : 1 ≤ v) :
    versionRange (v + 1) = versionRange v ++ [v + 1] := by
  unfold versionRange
  have hnat : (v + 1).toNat = v.toNat + 1 := by omega
  rw [hnat, List.range_succ, List.map_append]
  simp
  omega

/-- A lookup that survives: the memory is still there under the same owner. -/
theorem lookup_isSome_of {i : UUID} {s' : InMemoryStore R}
    (hkeep : ∀ m, s.memories.get? i = some m → m.ownerId = o →
      ∃ m', s'.memories.get? i = some m' ∧ m'.ownerId = o)
    (h : (s.lookup o i none).isSome) : (s'.lookup o i none).isSome := by
  obtain ⟨m, hm⟩ := Option.isSome_iff_exists.mp h
  obtain ⟨hget, howner, -⟩ := lookup_eq_some.mp hm
  obtain ⟨m', hget', howner'⟩ := hkeep m hget howner
  exact Option.isSome_iff_exists.mpr ⟨m', lookup_eq_some.mpr ⟨hget', howner', .inl rfl⟩⟩

/-! ## New memories -/

/-- Storing a memory under an absent id, with its vector and a well-formed history,
by whatever path (`create` or a restored record). -/
theorem Inv.store {m : Memory R} {vector : List R} {history : List (MemoryVersion R)}
    {fingerprints : Dict (String × String) String} (hinv : Inv s)
    (habsent : s.memories.get? m.id = none)
    (hversions : history.map MemoryVersion.version = versionRange m.version)
    (hids : ∀ v ∈ history, v.memoryId = m.id)
    (hfp : ∀ o k fp, fingerprints.get? (o, k) = some fp →
      s.fingerprints.get? (o, k) = some fp ∨ (m.ownerId = o ∧ m.idempotencyKey = some k)) :
    Inv { s with
      memories := s.memories.set m.id m
      vectors := s.vectors.set m.id vector
      historyByMemory := s.historyByMemory.set m.id history
      fingerprints := fingerprints } where
  -- the new memory stands under its own id
  keyed i m' h := by
    dsimp only at h
    rw [Dict.get?_set] at h
    by_cases hi : i = m.id
    · rw [if_pos hi] at h
      cases h
      exact hi.symm
    · rw [if_neg hi] at h
      exact hinv.keyed i m' h
  vectors i := by rw [Dict.contains_set, Dict.contains_set, hinv.vectors]
  histories i := by rw [Dict.contains_set, Dict.contains_set, hinv.histories]
  -- and has its whole history
  versions i m' history' hm hh := by
    dsimp only at hm hh
    rw [Dict.get?_set] at hm hh
    by_cases hi : i = m.id
    · rw [if_pos hi] at hm hh
      cases hm
      cases hh
      rw [hi]
      exact ⟨hversions, hids⟩
    · rw [if_neg hi] at hm hh
      exact hinv.versions i m' history' hm hh
  -- relations are between other memories
  relations key r h := by
    obtain ⟨hkey, hne, hsource, htarget⟩ := hinv.relations key r h
    refine ⟨hkey, hne, lookup_isSome_of ?_ hsource, lookup_isSome_of ?_ htarget⟩
    all_goals
      intro m' hget howner
      refine ⟨m', ?_, howner⟩
      rw [Dict.get?_set_of_ne _ _ ?_]
      · exact hget
      · intro heq
        rw [heq, habsent] at hget
        cases hget
  -- a fingerprint is an old one, or that of the new memory
  fingerprints o k fp h := by
    rcases hfp o k fp h with hold | ⟨howner, hkey⟩
    · obtain ⟨i, m', hget, howner, hkey⟩ := hinv.fingerprints o k fp hold
      refine ⟨i, m', ?_, howner, hkey⟩
      rw [Dict.get?_set_of_ne _ _ ?_]
      · exact hget
      · intro heq
        rw [heq, habsent] at hget
        cases hget
    · exact ⟨m.id, m, Dict.get?_set_self _ _ _, howner, hkey⟩
  ledger := hinv.ledger

/-- A new memory starts with its first snapshot. -/
theorem Inv.putNew {m : Memory R} {fp : String} {vector : List R} (hinv : Inv s)
    (hversion : m.version = 1) (habsent : s.memories.get? m.id = none) :
    Inv (s.putNew m fp vector) := by
  refine hinv.store habsent ?_ ?_ ?_
  · show [m.version] = _
    rw [hversion]
    rfl
  · intro v hv
    rw [List.mem_singleton.mp hv]
    rfl
  -- an empty key records no fingerprint
  · intro o k fp' h
    cases hkey : m.idempotencyKey with
    | none =>
      rw [hkey] at h
      exact .inl h
    | some key =>
      rw [hkey] at h
      dsimp only at h
      by_cases hempty : key = ""
      · rw [if_pos hempty] at h
        exact .inl h
      · rw [if_neg hempty, Dict.get?_set] at h
        by_cases hk : (o, k) = (m.ownerId, key)
        · cases hk
          exact .inr ⟨rfl, rfl⟩
        · rw [if_neg hk] at h
          exact .inl h

/-- A valid record is stored with its whole history. -/
theorem Inv.storeRecord {record : MemoryRecordDto R} {vector : List R} (hinv : Inv s)
    (hvalid : ValidRecord o record) (habsent : s.memories.get? record.memory.id = none) :
    Inv (storeRecord s record vector) := by
  refine hinv.store habsent hvalid.versions hvalid.ids ?_
  intro o' k fp h
  cases hkey : record.memory.idempotencyKey with
  | none =>
    rw [hkey] at h
    exact .inl h
  | some key =>
    rw [hkey] at h
    dsimp only at h
    rw [Dict.get?_set] at h
    by_cases hk : (o', k) = (record.memory.ownerId, key)
    · cases hk
      exact .inr ⟨rfl, rfl⟩
    · rw [if_neg hk] at h
      exact .inl h

/-! ## New versions -/

/-- A next version is stored with the next snapshot. -/
theorem Inv.putVersion {m m' : Memory R} {history : List (MemoryVersion R)} {reason : String}
    {vector : List R} (hinv : Inv s) (hlive : s.memories.get? m.id = some m)
    (hsame : m.SameIdentity m') (hnext : m'.version = m.version + 1)
    (hpast : s.historyByMemory.get? m.id = some history) :
    Inv (s.putVersion m' history (m'.snapshot reason) vector) := by
  have hid : m'.id = m.id := hsame.id
  have hcontains : s.memories.contains m'.id = true :=
    (Dict.contains_iff _ _).mpr ⟨m, hid ▸ hlive⟩
  -- the new record stands where the old one stood, under the same owner
  have hkeep : ∀ i m₀ o', s.memories.get? i = some m₀ → m₀.ownerId = o' →
      ∃ m₁, (s.memories.set m'.id m').get? i = some m₁ ∧ m₁.ownerId = o' ∧
        m₁.idempotencyKey = m₀.idempotencyKey := by
    intro i m₀ o' hget howner
    rw [Dict.get?_set]
    by_cases hi : i = m'.id
    · rw [hi, hid, hlive] at hget
      cases hget
      exact ⟨m', if_pos hi, hsame.ownerId.trans howner, hsame.idempotencyKey⟩
    · exact ⟨m₀, (if_neg hi).trans hget, howner, rfl⟩
  constructor
  case keyed =>
    intro i m₁ h
    replace h : (s.memories.set m'.id m').get? i = some m₁ := h
    rw [Dict.get?_set] at h
    by_cases hi : i = m'.id
    · rw [if_pos hi] at h
      cases h
      exact hi.symm
    · rw [if_neg hi] at h
      exact hinv.keyed i m₁ h
  case vectors =>
    intro i
    show (s.vectors.set _ _).contains i = (s.memories.set _ _).contains i
    rw [Dict.contains_set, Dict.contains_set, hinv.vectors]
  case histories =>
    intro i
    show (s.historyByMemory.set _ _).contains i = (s.memories.set _ _).contains i
    rw [Dict.contains_set, Dict.contains_set, hinv.histories]
  case versions =>
    intro i m₁ history₁ hm hh
    replace hm : (s.memories.set m'.id m').get? i = some m₁ := hm
    replace hh : (s.historyByMemory.set m'.id (history ++ [m'.snapshot reason])).get? i
      = some history₁ := hh
    rw [Dict.get?_set] at hm hh
    by_cases hi : i = m'.id
    · rw [if_pos hi] at hm hh
      cases hm
      cases hh
      obtain ⟨hvers, hids⟩ := hinv.versions m.id m history hlive hpast
      have hshot : (m'.snapshot reason).version = m.version + 1 := hnext
      constructor
      · rw [List.map_append, hvers, List.map_singleton, hshot, hnext,
          versionRange_succ m.one_le_version]
      · intro v hv
        rcases List.mem_append.mp hv with hv | hv
        · rw [hids v hv, hi, hid]
        · rw [List.mem_singleton.mp hv, hi]
          rfl
    · rw [if_neg hi] at hm hh
      exact hinv.versions i m₁ history₁ hm hh
  case relations =>
    intro key r h
    obtain ⟨hkey, hne, hsource, htarget⟩ := hinv.relations key r h
    refine ⟨hkey, hne, lookup_isSome_of ?_ hsource, lookup_isSome_of ?_ htarget⟩
    all_goals
      intro m₀ hget howner
      obtain ⟨m₁, hget₁, howner₁, -⟩ := hkeep _ m₀ _ hget howner
      exact ⟨m₁, hget₁, howner₁⟩
  case fingerprints =>
    intro o' k fp h
    obtain ⟨i, m₀, hget, howner, hkey⟩ := hinv.fingerprints o' k fp h
    obtain ⟨m₁, hget₁, howner₁, hkey₁⟩ := hkeep i m₀ o' hget howner
    exact ⟨i, m₁, hget₁, howner₁, hkey₁.trans hkey⟩
  case ledger => exact hinv.ledger

/-! ## Removals -/

/-- A memory is removed with its history and relations. -/
theorem Inv.remove {m : Memory R} {i : UUID} (hinv : Inv s) (hlive : s.memories.get? i = some m)
    (howner : m.ownerId = o) : Inv (s.remove o m i) := by
  constructor
  case keyed =>
    intro j m' h
    replace h : (s.memories.pop i).get? j = some m' := h
    rw [Dict.get?_pop] at h
    by_cases hj : j = i
    · rw [if_pos hj] at h
      cases h
    · rw [if_neg hj] at h
      exact hinv.keyed j m' h
  case vectors =>
    intro j
    show (s.vectors.pop i).contains j = (s.memories.pop i).contains j
    rw [Dict.contains_pop, Dict.contains_pop, hinv.vectors]
  case histories =>
    intro j
    show (s.historyByMemory.pop i).contains j = (s.memories.pop i).contains j
    rw [Dict.contains_pop, Dict.contains_pop, hinv.histories]
  case versions =>
    intro j m' history hm hh
    replace hm : (s.memories.pop i).get? j = some m' := hm
    replace hh : (s.historyByMemory.pop i).get? j = some history := hh
    rw [Dict.get?_pop] at hm hh
    by_cases hj : j = i
    · rw [if_pos hj] at hm
      cases hm
    · rw [if_neg hj] at hm hh
      exact hinv.versions j m' history hm hh
  case relations =>
    intro key r h
    obtain ⟨hget, hout⟩ := Dict.get?_filter_eq_some.mp h
    obtain ⟨hkey, hne, hsource, htarget⟩ := hinv.relations key r hget
    simp only [Bool.and_eq_true, decide_eq_true_eq] at hout
    refine ⟨hkey, hne, lookup_isSome_of ?_ hsource, lookup_isSome_of ?_ htarget⟩
    · exact fun m₀ hget₀ howner₀ => ⟨m₀, (Dict.get?_pop_of_ne _ hout.1).trans hget₀, howner₀⟩
    · exact fun m₀ hget₀ howner₀ => ⟨m₀, (Dict.get?_pop_of_ne _ hout.2).trans hget₀, howner₀⟩
  case fingerprints =>
    intro o' k fp h
    -- the entry of the removed memory's own key is gone, so another memory carries `k`
    have hold : s.fingerprints.get? (o', k) = some fp ∧
        (m.ownerId = o' → m.idempotencyKey ≠ some k) := by
      unfold InMemoryStore.remove at h
      dsimp only at h
      cases hkey : m.idempotencyKey with
      | none =>
        rw [hkey] at h
        exact ⟨h, fun _ hk => by cases hk⟩
      | some key =>
        rw [hkey] at h
        dsimp only at h
        have hempty : key ≠ "" := by
          rintro rfl
          exact m.idempotencyKey_ne_empty hkey
        rw [if_neg hempty, Dict.get?_pop] at h
        by_cases hk : (o', k) = (o, key)
        · rw [if_pos hk] at h
          cases h
        · rw [if_neg hk] at h
          refine ⟨h, ?_⟩
          rintro rfl ⟨⟩
          exact hk (by rw [howner])
    obtain ⟨j, m₀, hget, howner₀, hkey₀⟩ := hinv.fingerprints o' k fp hold.1
    refine ⟨j, m₀, ?_, howner₀, hkey₀⟩
    show (s.memories.pop i).get? j = some m₀
    rw [Dict.get?_pop_of_ne]
    · exact hget
    · rintro rfl
      rw [hlive] at hget
      cases hget
      exact hold.2 howner₀ hkey₀
  case ledger => exact hinv.ledger

/-! ## Relations and ledger entries -/

/-- A relation is added between live memories of its owner. -/
theorem Inv.addRelation {r : Relation} (hinv : Inv s) (hable : s.Relatable r) :
    Inv (s.addRelation r) where
  keyed := hinv.keyed
  vectors := hinv.vectors
  histories := hinv.histories
  versions := hinv.versions
  relations key r' h := by
    replace h : (s.relations.set r.key r).get? key = some r' := h
    rw [Dict.get?_set] at h
    by_cases hk : key = r.key
    · rw [if_pos hk] at h
      cases h
      exact ⟨hk, r.source_ne_target, hable.source, hable.target⟩
    · rw [if_neg hk] at h
      exact hinv.relations key r' h
  fingerprints := hinv.fingerprints
  ledger := hinv.ledger

theorem Inv.record {key : OperationKey} {entry : StoredIdempotencyOperation} (hinv : Inv s)
    (hstatus : entry.status = .completed) : Inv (s.record key entry) where
  keyed := hinv.keyed
  vectors := hinv.vectors
  histories := hinv.histories
  versions := hinv.versions
  relations := hinv.relations
  fingerprints := hinv.fingerprints
  ledger key' entry' h := by
    replace h : (s.idempotencyOperations.set key entry).get? key' = some entry' := h
    rw [Dict.get?_set] at h
    by_cases hk : key' = key
    · rw [if_pos hk] at h
      cases h
      exact hstatus
    · rw [if_neg hk] at h
      exact hinv.ledger key' entry' h

/-! ## Calls and runs -/

/-- Every elementary change keeps the invariant. -/
theorem Inv.change (hinv : Inv s) (h : Change o package s s') : Inv s' := by
  cases h with
  | created _ hversion hfresh _ => exact hinv.putNew hversion hfresh.1
  | versioned hlive _ hsame hnext hpast => exact hinv.putVersion hlive hsame hnext hpast
  | removed _ hlive howner => exact hinv.remove hlive howner
  | related _ hable => exact hinv.addRelation hable
  | restored _ hvalid habsent _ => exact hinv.storeRecord hvalid habsent
  | recorded _ _ hstatus => exact hinv.record hstatus

/-- The changes of a call keep the invariant. -/
theorem Inv.changes (hinv : Inv s) (h : Changes o package s s') : Inv s' :=
  Reaches.kept h (fun _ _ hchange hinv => hinv.change hchange) hinv

/-- Every call keeps the invariant, whether it succeeds or raises. -/
theorem Inv.attempt {call : Call R} (hinv : Inv s) (hfresh : call.DrawsFresh s) :
    Inv (call.attempt s).2 :=
  hinv.changes (Call.attempt_changes hinv.keyed hfresh)

/-- So does a whole run. -/
theorem Inv.run {may : InMemoryStore R → Call R → Prop} (hinv : Inv s) (h : Run may s s') :
    Inv s' := by
  refine Reaches.kept h ?_ hinv
  rintro s₁ s₂ ⟨call, hfresh, -, rfl⟩ hinv₁
  exact hinv₁.attempt hfresh

/-- It holds of every reachable store. -/
theorem Reachable.inv (h : Reachable s) : Inv s := inv_empty.run h

/-! ## Exceptions that are never raised -/

/-- The `next(...)` of a recorded key always finds a memory. -/
theorem Inv.firstWithKey_isSome {k fp : String} (hinv : Inv s)
    (h : s.fingerprints.get? (o, k) = some fp) : (s.firstWithKey o k).isSome := by
  obtain ⟨i, m, hget, howner, hkey⟩ := hinv.fingerprints o k fp h
  by_contra hnone
  rw [Option.not_isSome_iff_eq_none] at hnone
  exact firstWithKey_eq_none.mp hnone i m hget howner hkey

theorem Inv.findByIdempotencyKey_ne_stopIteration (hinv : Inv s) (k : String) :
    (InMemoryMemoryRepository.findByIdempotencyKey o k).run s ≠ .error .stopIteration := by
  show InMemoryMemoryRepository.findByIdempotencyKey o k s ≠ _
  unfold InMemoryMemoryRepository.findByIdempotencyKey
  cases hfp : s.fingerprints.get? (o, k) with
  | none => simp
  | some fp =>
    obtain ⟨m, hm⟩ := Option.isSome_iff_exists.mp (hinv.firstWithKey_isSome hfp)
    simp [hm]

theorem Inv.create_ne_stopIteration (hinv : Inv s) (m : Memory R) (fp : String)
    (vector : List R) :
    (InMemoryMemoryRepository.create m fp vector).run s ≠ .error .stopIteration := by
  show InMemoryMemoryRepository.create m fp vector s ≠ _
  unfold InMemoryMemoryRepository.create
  cases truthyKey m.idempotencyKey with
  | none => simp
  | some k =>
    cases hfp : s.fingerprints.get? (m.ownerId, k) with
    | none => simp [hfp]
    | some prior =>
      obtain ⟨m₀, hm₀⟩ := Option.isSome_iff_exists.mp (hinv.firstWithKey_isSome hfp)
      by_cases heq : prior = fp <;> simp [hfp, hm₀, heq]

theorem Inv.claim_ne_inProgress (hinv : Inv s) (op : IdempotencyOperationType)
    (k fp message : String) :
    (InMemoryIdempotencyRepository.claim o op k fp).run s
      ≠ .error (.omp .idempotencyInProgressError message) := by
  show InMemoryIdempotencyRepository.claim o op k fp s ≠ _
  unfold InMemoryIdempotencyRepository.claim
  cases hprior : s.idempotencyOperations.get? (o, op, k) with
  | none => simp [hprior]
  | some prior =>
    have hstatus := hinv.ledger _ _ hprior
    by_cases heq : prior.fingerprint = fp <;> simp [hprior, hstatus, heq]

/-- Every store that calls can produce, failed ones and imports among them, satisfies
the representation invariant; in it no `next(...)` lookup runs dry and no claim finds
an operation in progress. -/
theorem reachable_representation (h : Reachable s) :
    Inv s ∧
      (∀ o k, (InMemoryMemoryRepository.findByIdempotencyKey o k).run s ≠ .error .stopIteration) ∧
      (∀ m fp vector, (InMemoryMemoryRepository.create m fp vector).run s
        ≠ .error .stopIteration) ∧
      ∀ o op k fp message, (InMemoryIdempotencyRepository.claim o op k fp).run s
        ≠ .error (.omp .idempotencyInProgressError message) :=
  ⟨h.inv, fun _ k => h.inv.findByIdempotencyKey_ne_stopIteration k, h.inv.create_ne_stopIteration,
    fun _ op k fp message => h.inv.claim_ne_inProgress op k fp message⟩

/-- The call that writes a first note under a key. -/
def firstNote : Call ℚ where
  service := serviceOn 1 7
  request := .write (noteCommand "alice" "tea at five" (some "k1") none)

theorem reachable_representation_firstNote :
    (firstNote.attempt {}).2.fingerprints.contains ("alice", "k1") = true ∧
      Inv (firstNote.attempt {}).2 := by
  refine ⟨by decide +kernel, (reachable_representation (.single ⟨firstNote, ?_, trivial, rfl⟩)).1⟩
  exact fun _ => ⟨rfl, fun _ _ h => by simp at h⟩

end InMemoryStore

end OpenMemory
