import OpenMemory.Store.Deletion

/-!
# Replays

What a call gets back when its idempotency key was used before.

- A replayed *write* returns the memory its key stands for. Key and fingerprint leave
  the tenant out, so that memory need not be the caller's: `write_tenant_bound_iff`
  says exactly when it is.
- A replayed *update, confirm or pin* rebuilds the recorded version from the current
  record and a history snapshot. Over runs without imports every history grows at its
  end only and its snapshots are faithful (`Faithful`, `Descends`), so the rebuilt
  memory is the one first returned, up to the embedding descriptor
  (`mutation_replays`).
-/

namespace OpenMemory

open Lib MemoryApplicationService

variable {R : Type}

/-! ## Snapshots in a history -/

/-- The first snapshot with a version keeps its place when the history grows. -/
theorem find?_of_prefix {h h' : List (MemoryVersion R)} {v : Int} {snapshot : MemoryVersion R}
    (hextends : h <+: h') (hfind : (h.find? fun w => decide (w.version = v)) = some snapshot) :
    (h'.find? fun w => decide (w.version = v)) = some snapshot := by
  obtain ⟨rest, rfl⟩ := hextends
  rw [List.find?_append, hfind]
  rfl

/-- Versions `1..n` are distinct, so the last of them is found at the end. -/
theorem find?_last {past : List (MemoryVersion R)} {last : MemoryVersion R}
    (hversions : (past ++ [last]).map MemoryVersion.version = versionRange last.version) :
    ((past ++ [last]).find? fun w => decide (w.version = last.version)) = some last := by
  have hnodup : ((past ++ [last]).map MemoryVersion.version).Nodup := by
    rw [hversions]
    refine List.Nodup.map (fun a b h => ?_) List.nodup_range
    omega
  rw [List.find?_append]
  have hnone : (past.find? fun w => decide (w.version = last.version)) = none := by
    rw [List.find?_eq_none]
    intro w hw heq
    rw [List.map_append, List.nodup_append] at hnodup
    exact hnodup.2.2 w.version (List.mem_map_of_mem hw) last.version (by simp)
      (by simpa using heq)
  rw [hnone]
  simp

/-- A found snapshot's version is one of the history's. -/
theorem version_le_of_find? {h : List (MemoryVersion R)} {v n : Int} {snapshot : MemoryVersion R}
    (hversions : h.map MemoryVersion.version = versionRange n)
    (hfind : (h.find? fun w => decide (w.version = v)) = some snapshot) : v ≤ n := by
  have hv : snapshot.version = v := by simpa using List.find?_some hfind
  have hmem : v ∈ versionRange n := by
    rw [← hversions, ← hv]
    exact List.mem_map_of_mem (List.mem_of_find?_eq_some hfind)
  unfold versionRange at hmem
  obtain ⟨k, hk, rfl⟩ := List.mem_map.mp hmem
  have := List.mem_range.mp hk
  omega

variable [Python R]

/-! ## Writes -/

namespace InMemoryStore

variable {s s' : InMemoryStore R}

/-- A write returns a memory of its own owner and tenant if and only if the memory its
key already stands for, if any, is one. -/
theorem write_tenant_bound_iff {svc : MemoryApplicationService R} {c : WriteMemoryCommand R}
    {r : WriteMemoryResult R} (h : (svc.write (inMemoryUnitOfWork R) c).run s = .ok (r, s')) :
    (r.memory.ownerId = c.ownerId ∧ r.memory.tenantId = c.tenantId) ↔
      ∀ k m, c.idempotencyKey = some k → s.fingerprints.contains (c.ownerId, k) = true →
        s.firstWithKey c.ownerId k = some m → m.tenantId = c.tenantId := by
  cases write_ok h with
  -- a reread: the record of the key is the answer
  | reread isKey same first =>
    obtain ⟨-, howner, -⟩ := firstWithKey_eq_some first
    constructor
    · rintro ⟨-, htenant⟩ k m hk - hm
      rw [isKey] at hk
      cases hk
      rw [first] at hm
      cases hm
      exact htenant
    · intro hall
      exact ⟨howner, hall _ _ isKey ((Dict.contains_iff _ _).mpr ⟨_, same⟩) first⟩
  -- a write: the key had no fingerprint before
  | wrote drawn owner tenant isKey created unused =>
    obtain ⟨-, howner, htenant, -, hkey, -⟩ := Memory.create_ok created
    have howner : r.memory.ownerId = c.ownerId := howner.trans owner
    refine iff_of_true ⟨howner, htenant.trans tenant⟩ fun k m hk hcontains _ => ?_
    have hnone := unused k (by rw [hkey, isKey, hk])
    obtain ⟨fp, hfp⟩ := (Dict.contains_iff _ _).mp hcontains
    rw [howner, hfp] at hnone
    cases hnone

/-- The first note of `alice`, written by `acme` under a key. -/
def keyedNote (tenantId : String) : WriteMemoryCommand ℚ :=
  noteCommand "alice" "tea at five" (some "k1") (some tenantId)

/-- A first write under a tenant binds the tenant of its command. -/
theorem write_tenant_bound_iff_first :
    ∃ r s', ((serviceOn 1 7).write (inMemoryUnitOfWork ℚ) (keyedNote "acme")).run {}
      = .ok (r, s') ∧ r.memory.tenantId = some "acme" := by
  obtain ⟨r, hrun, -⟩ := Txn.run_of_attempt_map
    (x := (serviceOn 1 7).write (inMemoryUnitOfWork ℚ) (keyedNote "acme")) (s := {})
    (f := WriteMemoryResult.created) (b := true) (by decide +kernel)
  refine ⟨r, _, hrun, ((write_tenant_bound_iff hrun).mpr ?_).2⟩
  intro k m _ hcontains
  cases hcontains

/-- Tenant `other` repeats the write of `acme` and receives the memory of `acme`. -/
theorem write_replay_crosses_tenants :
    ¬∀ (s s' : InMemoryStore ℚ) (svc : MemoryApplicationService ℚ) (c : WriteMemoryCommand ℚ)
      (r : WriteMemoryResult ℚ), Reachable s →
      (svc.write (inMemoryUnitOfWork ℚ) c).run s = .ok (r, s') →
      r.memory.ownerId = c.ownerId ∧ r.memory.tenantId = c.tenantId := by
  intro hclaim
  let first : Call ℚ := ⟨serviceOn 1 7, .write (keyedNote "acme")⟩
  have hreach : Reachable (first.attempt {}).2 :=
    .single ⟨first, fun _ => ⟨rfl, fun _ _ h => by simp at h⟩, trivial, rfl⟩
  obtain ⟨r, hrun, htenant⟩ := Txn.run_of_attempt_map
    (x := (serviceOn 2 8).write (inMemoryUnitOfWork ℚ) (keyedNote "other"))
    (s := (first.attempt {}).2) (f := fun r => r.memory.tenantId) (b := some "acme")
    (by decide +kernel)
  have hbound := (hclaim _ _ _ _ _ hreach hrun).2
  rw [htenant] at hbound
  exact absurd hbound (by decide)

end InMemoryStore

/-! ## Histories without imports -/

namespace InMemoryStore

variable {s s' : InMemoryStore R} {o : String} {i : UUID}

/-- The call does not import. -/
def NoImport (_ : InMemoryStore R) (call : Call R) : Prop :=
  ∀ o records, call.request ≠ .importMemories o records

/-- Only an import brings a package. -/
theorem package_of_noImport {call : Call R} (h : NoImport s call) :
    call.request.package = [] := by
  unfold NoImport at h
  cases hreq : call.request with
  | importMemories o records => exact absurd hreq (h o records)
  | write | capture | listInbox | confirmCandidate | pin | discardCandidate | «recall» | search
  | update | forget | relate | exportMemories => rfl

/-- The last snapshot of every history was taken of the current record. -/
def Faithful (s : InMemoryStore R) : Prop :=
  ∀ i m history, s.memories.get? i = some m → s.historyByMemory.get? i = some history →
    ∃ past reason, history = past ++ [m.snapshot reason]

/-- A change made without a package keeps the last snapshots current. -/
theorem Faithful.change (hf : Faithful s) (h : Change o [] s s') : Faithful s' := by
  intro j m history hm hh
  cases h with
  -- the history of a new memory is its first snapshot
  | @created m' _ _ _ _ _ _ =>
    replace hm : (s.memories.set m'.id m').get? j = some m := hm
    replace hh : (s.historyByMemory.set m'.id [m'.snapshot "created"]).get? j = some history := hh
    rw [Dict.get?_set] at hm hh
    by_cases hj : j = m'.id
    · rw [if_pos hj] at hm hh
      cases hm
      cases hh
      exact ⟨[], "created", rfl⟩
    · rw [if_neg hj] at hm hh
      exact hf j m history hm hh
  -- a next version appends its snapshot
  | @versioned m₀ m' past reason _ _ _ _ _ _ =>
    replace hm : (s.memories.set m'.id m').get? j = some m := hm
    replace hh : (s.historyByMemory.set m'.id (past ++ [m'.snapshot reason])).get? j
      = some history := hh
    rw [Dict.get?_set] at hm hh
    by_cases hj : j = m'.id
    · rw [if_pos hj] at hm hh
      cases hm
      cases hh
      exact ⟨past, reason, rfl⟩
    · rw [if_neg hj] at hm hh
      exact hf j m history hm hh
  -- a removed memory goes with its history
  | @removed m₀ i₀ _ _ _ =>
    replace hm : (s.memories.pop i₀).get? j = some m := hm
    replace hh : (s.historyByMemory.pop i₀).get? j = some history := hh
    rw [Dict.get?_pop] at hm hh
    by_cases hj : j = i₀
    · rw [if_pos hj] at hm
      cases hm
    · rw [if_neg hj] at hm hh
      exact hf j m history hm hh
  | related => exact hf j m history hm hh
  -- nothing is restored without a package
  | restored hmember => cases hmember
  | recorded => exact hf j m history hm hh

/-- What has become of the memory `m` with history `h` under `i`: it is gone for good,
or a record of the same identity stands there, whose history continues `h`. -/
def Descends (m : Memory R) (h : List (MemoryVersion R)) (i : UUID) (s : InMemoryStore R) :
    Prop :=
  s.Gone m.ownerId i ∨
    ∃ m' h', s.memories.get? i = some m' ∧ s.historyByMemory.get? i = some h' ∧
      m.SameIdentity m' ∧ h <+: h' ∧ (m' = m ∨ m.version < m'.version)

/-- Whatever changes, a memory is continued or gone for good. -/
theorem Descends.change {m : Memory R} {h : List (MemoryVersion R)}
    (hd : Descends m h i s) (hch : Change o [] s s') : Descends m h i s' := by
  rcases hd with hgone | ⟨m₁, h₁, hget, hhist, hsame, hextends, hversion⟩
  · exact .inl (hgone.change hch fun _ _ hm => absurd hm List.not_mem_nil)
  -- a change elsewhere leaves the memory and its history
  have hother : ∀ {memories : Dict UUID (Memory R)} {histories}
      (hs : s'.memories = memories) (hs' : s'.historyByMemory = histories),
      memories.get? i = s.memories.get? i → histories.get? i = s.historyByMemory.get? i →
      Descends m h i s' := by
    rintro _ _ rfl rfl h₁ h₂
    exact .inr ⟨m₁, _, h₁.trans hget, h₂.trans hhist, hsame, hextends, hversion⟩
  cases hch with
  | @created m' _ _ _ _ hfresh _ =>
    have hne : i ≠ m'.id := by
      rintro rfl
      rw [hfresh.1] at hget
      cases hget
    exact hother rfl rfl (Dict.get?_set_of_ne _ _ hne) (Dict.get?_set_of_ne _ _ hne)
  | @versioned m₀ m' past reason _ hlive _ hsame' hnext hpast =>
    by_cases hi : i = m'.id
    · -- the record itself evolved: one more snapshot at the end
      have hi₀ : i = m₀.id := hi.trans hsame'.id
      rw [hi₀, hlive] at hget
      rw [hi₀, hpast] at hhist
      obtain rfl := Option.some.inj hget
      obtain rfl := Option.some.inj hhist
      refine .inr ⟨m', past ++ [m'.snapshot reason], ?_, ?_, hsame.trans hsame',
        hextends.trans (List.prefix_append _ _), .inr ?_⟩
      · rw [hi]
        exact Dict.get?_set_self _ _ _
      · rw [hi]
        exact Dict.get?_set_self _ _ _
      · rcases hversion with rfl | hlt
        · omega
        · omega
    · exact hother rfl rfl (Dict.get?_set_of_ne _ _ hi) (Dict.get?_set_of_ne _ _ hi)
  -- the record itself was removed, and its tombstone stays
  | @removed m₀ i₀ _ hlive howner =>
    by_cases hi : i = i₀
    · refine .inl ⟨?_, ?_⟩
      · rw [hi, hlive] at hget
        obtain rfl := Option.some.inj hget
        refine ⟨m₀.tenantId, ?_⟩
        rw [← hsame.ownerId, howner, hi]
        exact Finset.mem_insert_self _ _
      · rintro ⟨m', hm', -⟩
        replace hm' : (s.memories.pop i₀).get? i = some m' := hm'
        rw [hi, Dict.get?_pop_self] at hm'
        cases hm'
    · exact hother rfl rfl (Dict.get?_pop_of_ne _ hi) (Dict.get?_pop_of_ne _ hi)
  | related => exact hother rfl rfl rfl rfl
  | restored hmember => cases hmember
  | recorded => exact hother rfl rfl rfl rfl

/-- Completed ledger entries are permanent. -/
theorem Completed.change {key : OperationKey} {fp : String} {prior : StoredIdempotencyOperation}
    {package : List (Memory R)} (hc : s.Completed key fp prior) (h : Change o package s s') :
    s'.Completed key fp prior := by
  cases h with
  | @recorded key' entry _ hnew _ =>
    refine ⟨?_, hc.fingerprint, hc.status⟩
    have hne : key ≠ key' := by
      rintro rfl
      rw [hc.entry] at hnew
      cases hnew
    exact (Dict.get?_set_of_ne _ _ hne).trans hc.entry
  | created | versioned | removed | related | restored => exact ⟨hc.entry, hc.fingerprint, hc.status⟩

/-! ### Along runs -/

/-- A property that every change without a package keeps, given the invariant, is kept
by every run without imports. -/
theorem kept_of_noImport {I : InMemoryStore R → Prop} (hinv : Inv s) (hs : I s)
    (hchange : ∀ o s₁ s₂, Inv s₁ → Change o [] s₁ s₂ → I s₁ → I s₂)
    (h : Run NoImport s s') : I s' := by
  have hboth : Inv s' ∧ I s' := by
    refine Reaches.kept (I := fun s₁ => Inv s₁ ∧ I s₁) h ?_ ⟨hinv, hs⟩
    rintro s₁ s₂ ⟨call, hfresh, hno, rfl⟩ ⟨hinv₁, hs₁⟩
    have hch := Call.attempt_changes hinv₁.keyed hfresh
    rw [package_of_noImport hno] at hch
    refine Reaches.kept (I := fun s₂ => Inv s₂ ∧ I s₂) hch ?_ ⟨hinv₁, hs₁⟩
    rintro s₂ s₃ hone ⟨hinv₂, hs₂⟩
    exact ⟨hinv₂.change hone, hchange _ _ _ hinv₂ hone hs₂⟩
  exact hboth.2

/-- Without imports the last snapshots are always current. -/
theorem faithful_of_noImport (h : Run NoImport {} s) : Faithful s :=
  kept_of_noImport inv_empty (fun _ _ _ hm => nomatch hm) (fun _ _ _ _ hch hf => hf.change hch) h

/-- The invariant of the store holds along such a run. -/
theorem inv_of_noImport (h : Run NoImport {} s) : Inv s := inv_empty.run h

/-! ### Reading a version later -/

/-- The two ways a version is read: off the record, or rebuilt from its history. -/
theorem versionAt_eq_some {v : Int} {t : Option String} {m : Memory R}
    (h : s.versionAt o i v t = .ok (some m)) :
    ∃ current, s.lookup o i t = some current ∧
      ((current.version = v ∧ m = current) ∨
        (current.version ≠ v ∧ ∃ snapshot,
          (((s.historyByMemory.get? i).getD []).find? fun w => decide (w.version = v))
            = some snapshot ∧ current.rebuild snapshot = .ok m)) := by
  unfold versionAt at h
  cases hl : s.lookup o i t with
  | none =>
    rw [hl] at h
    cases h
  | some current =>
    rw [hl] at h
    dsimp only at h
    refine ⟨current, rfl, ?_⟩
    by_cases hv : current.version = v
    · rw [if_pos hv] at h
      cases h
      exact .inl ⟨hv, rfl⟩
    -- another version is rebuilt from its snapshot
    · rw [if_neg hv] at h
      cases hf : ((s.historyByMemory.get? i).getD []).find? fun w => decide (w.version = v) with
      | none =>
        rw [hf] at h
        cases h
      | some snapshot =>
        rw [hf] at h
        cases hr : current.rebuild snapshot with
        | error e => simp [hr, Except.map] at h
        | ok m' =>
          simp only [hr, Except.map, Except.ok.injEq, Option.some.injEq] at h
          exact .inr ⟨hv, snapshot, rfl, h ▸ hr⟩

/-- `version_at` gives the current record at its own version. -/
theorem versionAt_of_current {v : Int} {t : Option String} {m : Memory R}
    (hl : s.lookup o i t = some m) (hv : m.version = v) :
    s.versionAt o i v t = .ok (some m) := by
  unfold versionAt
  rw [hl]
  exact if_pos hv

/-- At another version it is rebuilt from the snapshot found. -/
theorem versionAt_of_snapshot {v : Int} {t : Option String} {current m : Memory R}
    {snapshot : MemoryVersion R} (hl : s.lookup o i t = some current) (hv : current.version ≠ v)
    (hf : (((s.historyByMemory.get? i).getD []).find? fun w => decide (w.version = v))
      = some snapshot) (hr : current.rebuild snapshot = .ok m) :
    s.versionAt o i v t = .ok (some m) := by
  unfold versionAt
  rw [hl]
  dsimp only
  rw [if_neg hv, hf]
  simp [hr, Except.map]

/-- Whatever `version_at` gives has the id and the owner asked for. -/
theorem versionAt_id {v : Int} {t : Option String} {m : Memory R} (hk : s.Keyed)
    (h : s.versionAt o i v t = .ok (some m)) : m.id = i ∧ m.ownerId = o := by
  obtain ⟨current, hl, hcases⟩ := versionAt_eq_some h
  obtain ⟨hget, howner, -⟩ := lookup_eq_some.mp hl
  rcases hcases with ⟨-, rfl⟩ | ⟨-, snapshot, -, hr⟩
  · exact ⟨hk i _ hget, howner⟩
  · obtain ⟨hid, ho, -, -⟩ := Memory.rebuild_ok hr
    exact ⟨hid.trans (hk i _ hget), ho.trans howner⟩

/-- A version read once reads the same later, the descriptor apart, as long as the
memory is there. -/
theorem versionAt_later {v : Int} {t : Option String} {m : Memory R} (hinv : Inv s)
    (hf : Faithful s) (h : s.versionAt o i v t = .ok (some m)) (hrun : Run NoImport s s')
    (hlive : s'.Holds o i) :
    ∃ m', s'.versionAt o i v t = .ok (some m') ∧ m.EqUpToEmbedding m' := by
  obtain ⟨current, hl, hcases⟩ := versionAt_eq_some h
  obtain ⟨hget, howner, htenant⟩ := lookup_eq_some.mp hl
  obtain ⟨history, hhist⟩ : ∃ history, s.historyByMemory.get? i = some history := by
    rw [← Dict.contains_iff, hinv.histories]
    exact (Dict.contains_iff _ _).mpr ⟨current, hget⟩
  rw [hhist, Option.getD_some] at hcases
  -- at the start nothing has become of the memory
  have hstart : Descends current history i s :=
    .inr ⟨current, history, hget, hhist, .refl _, List.prefix_refl _, .inl rfl⟩
  have hlater : Descends current history i s' :=
    kept_of_noImport hinv hstart (fun _ _ _ _ hch hd => hd.change hch) hrun
  rcases hlater with hgone | ⟨m', h', hget', hhist', hsame, hextends, hversion⟩
  · rw [howner] at hgone
    exact absurd hlive hgone.2
  have hl' : s'.lookup o i t = some m' :=
    lookup_eq_some.mpr ⟨hget', hsame.ownerId.trans howner,
      htenant.imp_right hsame.tenantId.trans⟩
  obtain ⟨hversions, -⟩ := hinv.versions i current history hget hhist
  rcases hcases with ⟨hv, rfl⟩ | ⟨hv, snapshot, hfind, hr⟩
  · rcases hversion with rfl | hlt
    · exact ⟨m', versionAt_of_current hl' hv, rfl⟩
    · -- the record moved on: its old self is the last snapshot of the old history
      obtain ⟨past, reason, rfl⟩ := hf i m history hget hhist
      have hlast : _ = some (m.snapshot reason) := find?_last hversions
      have hfind' : ((s'.historyByMemory.get? i).getD []).find?
          (fun w => decide (w.version = v)) = some (m.snapshot reason) := by
        rw [hhist', Option.getD_some, ← hv]
        exact find?_of_prefix hextends hlast
      obtain ⟨r, hr, heq⟩ := Memory.rebuild_of_sameIdentity hsame (m.rebuild_self reason)
      exact ⟨r, versionAt_of_snapshot hl' (by omega) hfind' hr, heq⟩
  -- the snapshot is still in the longer history
  · have hle := version_le_of_find? hversions hfind
    have hfind' : ((s'.historyByMemory.get? i).getD []).find?
        (fun w => decide (w.version = v)) = some snapshot := by
      rw [hhist', Option.getD_some]
      exact find?_of_prefix hextends hfind
    have hv' : m'.version ≠ v := by
      rcases hversion with rfl | hlt
      · exact hv
      · omega
    obtain ⟨r, hr', heq⟩ := Memory.rebuild_of_sameIdentity hsame hr
    exact ⟨r, versionAt_of_snapshot hl' hv' hfind' hr', heq⟩

end InMemoryStore

/-! ## Versioned mutations -/

/-- The operations that answer a replay with a recorded version. -/
inductive Mutation (R : Type)
  | update (command : UpdateMemoryCommand R)
  | confirm (command : ConfirmCandidateCommand)
  | pin (command : PinMemoryCommand)

namespace Mutation

/-- Run the operation in one unit of work. -/
def exec (svc : MemoryApplicationService R) : Mutation R → StoreTxn R (Memory R)
  | update c => svc.update (inMemoryUnitOfWork R) c
  | confirm c => svc.confirmCandidate (inMemoryUnitOfWork R) c
  | pin c => svc.pin (inMemoryUnitOfWork R) c

def ownerId : Mutation R → String
  | update c => c.ownerId
  | confirm c => c.ownerId
  | pin c => c.ownerId

def operationType : Mutation R → IdempotencyOperationType
  | update _ => .update
  | confirm _ => .confirm
  | pin _ => .pin

/-- The idempotency key, if the call has one. -/
def idempotencyKey : Mutation R → Option String
  | update c => truthyKey c.idempotencyKey
  | confirm c => some c.idempotencyKey
  | pin c => some c.idempotencyKey

def fingerprint : Mutation R → String
  | update c => fingerprintUpdateCommand c
  | confirm c => fingerprintConfirmCommand R c
  | pin c => fingerprintPinCommand R c

def memoryId : Mutation R → UUID
  | update c => c.memoryId
  | confirm c => c.memoryId
  | pin c => c.memoryId

def expectedVersion : Mutation R → Int
  | update c => c.expectedVersion
  | confirm c => c.expectedVersion
  | pin c => c.expectedVersion

/-- The tenant the memory is looked up under. -/
def tenantId : Mutation R → Option String
  | update _ => none
  | confirm c => some c.tenantId
  | pin c => some c.tenantId

/-- The connection checks that confirm and pin make before they touch the store. -/
def Admitted : Mutation R → Prop
  | update _ => True
  | confirm c => "memory:write" ∈ c.scopes ∧ isBlank c.tenantId = false ∧ c.connectionRevoked = false
  | pin c => "memory:write" ∈ c.scopes ∧ isBlank c.tenantId = false ∧ c.connectionRevoked = false

variable {mutation : Mutation R} {key : String} {svc : MemoryApplicationService R}
  {s s' : InMemoryStore R}

/-- The ledger key of a mutation under `key`. -/
def ledgerKey (mutation : Mutation R) (key : String) : OperationKey :=
  (mutation.ownerId, mutation.operationType, key)

/-- The ledger and the store still tell what the mutation returned. -/
def Recorded (mutation : Mutation R) (key : String) (m : Memory R) (s : InMemoryStore R) : Prop :=
  ∃ prior, s.Completed (mutation.ledgerKey key) mutation.fingerprint prior ∧
    s.versionAt mutation.ownerId (prior.memoryId.getD mutation.memoryId)
      (replayedVersion prior mutation.expectedVersion) mutation.tenantId = .ok (some m)

/-- The mutation as a request. -/
def request : Mutation R → Request R
  | update c => .update c
  | confirm c => .confirmCandidate c
  | pin c => .pin c

open InMemoryStore

/-- What was recorded stays recorded, the descriptor apart, while the memory lives. -/
theorem Recorded.later {m : Memory R} (hinv : Inv s) (hf : Faithful s)
    (h : mutation.Recorded key m s) (hrun : Run NoImport s s')
    (hlive : s'.Holds mutation.ownerId m.id) :
    ∃ m', mutation.Recorded key m' s' ∧ m.EqUpToEmbedding m' := by
  obtain ⟨prior, hprior, hversion⟩ := h
  have hid := (versionAt_id hinv.keyed hversion).1
  rw [hid] at hlive
  obtain ⟨m', hversion', heq⟩ := versionAt_later hinv hf hversion hrun hlive
  have hprior' : s'.Completed (mutation.ledgerKey key) mutation.fingerprint prior :=
    kept_of_noImport (I := fun s₁ => s₁.Completed (mutation.ledgerKey key) mutation.fingerprint
      prior) hinv hprior (fun _ _ _ _ hch hc => hc.change hch) hrun
  exact ⟨m', ⟨prior, hprior', hversion'⟩, heq⟩

end Mutation

end OpenMemory
