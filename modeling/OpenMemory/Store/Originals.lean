import OpenMemory.Application.Parametric
import OpenMemory.Store.Agreement
import OpenMemory.Store.Contradiction
import OpenMemory.Store.Keys
import OpenMemory.Store.Recall

/-!
# Replays of write and capture

A write or capture whose key is in use is not looked up in the ledger: it answers with the live
memory of that key, as it is now. The first answer was version 1, so the replay repeats it only as
long as the memory has not been revised, and only for a command with the same fingerprint.

- `Stands`: a memory and the fingerprint of its key are where the creation left them, at some
  version. `Stands.run`: runs without imports keep this until the memory is forgotten.
- `Stands.find`: what the lookup by key then answers.
- `replays_original_iff` is the result.
-/

namespace OpenMemory

open Lib MemoryApplicationService InMemoryMemoryRepository

variable {R : Type} [Python R]

/-- Equal writes, as Python compares them. -/
structure WriteMemoryCommand.Equal (c c' : WriteMemoryCommand R) : Prop extends c.Agrees c' where
  idempotencyKey : c.idempotencyKey = c'.idempotencyKey

/-- Equal captures. -/
structure CaptureMemoryCommand.Equal (c c' : CaptureMemoryCommand R) : Prop
    extends c.Agrees c' where
  idempotencyKey : c.idempotencyKey = c'.idempotencyKey
  capturePolicy : c.capturePolicy = c'.capturePolicy
  connectionRevoked : c.connectionRevoked = c'.connectionRevoked
  scopes : c.scopes = c'.scopes

namespace InMemoryStore

variable {s s' s₀ s₁ : InMemoryStore R} {calls : List (Call R)} {m : Memory R} {k fp : String}

/-! ## What stands of a creation -/

/-- What stands of the memory `m`, with one snapshot, written under the key `k`: its record has not
been replaced by another one, and the fingerprint of the key is `fp` as long as it is live. -/
structure Stands (m : Memory R) (history : List (MemoryVersion R)) (k fp : String)
    (s : InMemoryStore R) : Prop where
  index : KeyIndex s
  descends : Descends m history m.id s
  recorded : s.Holds m.ownerId m.id → s.fingerprints.get? (m.ownerId, k) = some fp

theorem keysNew_of_noImport {call : Call R} (h : NoImport s call) : KeysNew s call :=
  fun o records hreq => absurd hreq (h o records)

theorem keyIndex_of_noImport (h : Run NoImport {} s) : KeyIndex s := by
  have hboth : Inv s ∧ KeyIndex s := by
    refine Reaches.kept (I := fun s => Inv s ∧ KeyIndex s) h ?_
      ⟨inv_empty, fun _ _ _ _ _ hm => (by cases hm), fun _ _ _ hm => by cases hm⟩
    rintro s₂ s₃ ⟨call, hfresh, hno, rfl⟩ ⟨hinv, hindex⟩
    exact ⟨hinv.attempt hfresh, (hindex.call hinv.keyed hfresh (keysNew_of_noImport hno)).1⟩
  exact hboth.2

/-- The record of a live memory that stands. -/
theorem Stands.record {history : List (MemoryVersion R)} (h : Stands m history k fp s)
    (hlive : s.Holds m.ownerId m.id) : ∃ m', s.memories.get? m.id = some m' ∧ m.SameIdentity m' ∧
      (m' = m ∨ m.version < m'.version) := by
  rcases h.descends with hgone | ⟨m', _, hget, -, hsame, -, hversion⟩
  · exact absurd hlive hgone.2
  · exact ⟨m', hget, hsame, hversion⟩

/-- One call keeps what stands of a memory. -/
theorem Stands.call {call : Call R} {history : List (MemoryVersion R)}
    (h : Stands m history k fp s) (hkey : m.idempotencyKey = some k) (hinv : Inv s)
    (hfresh : call.DrawsFresh s) (hno : NoImport s call) :
    Stands m history k fp (call.attempt s).2 := by
  obtain ⟨hindex, hkept⟩ := h.index.call hinv.keyed hfresh (keysNew_of_noImport hno)
  have hdescends : Descends m history m.id (call.attempt s).2 :=
    kept_of_noImport hinv h.descends (fun _ _ _ _ hch hd => hd.change hch)
      (.single ⟨call, hfresh, hno, rfl⟩)
  refine ⟨hindex, hdescends, fun hlive => ?_⟩
  rcases hdescends with hgone' | ⟨m', _, hget', -, hsame', -, -⟩
  · exact absurd hlive hgone'.2
  rcases h.descends with hgone | ⟨m₀, _, hget, -, hsame, -, -⟩
  · -- what is gone does not come back without an import
    have hchanges := Call.attempt_changes hinv.keyed hfresh
    rw [package_of_noImport hno] at hchanges
    exact absurd hlive (hgone.changes hchanges fun _ _ hmem => absurd hmem List.not_mem_nil).2
  · obtain ⟨-, -, hfp⟩ := hkept m.id m₀ m' k hget hget' (hsame'.idempotencyKey.trans hkey)
    rw [hsame'.ownerId] at hfp
    exact hfp.trans (h.recorded ⟨m₀, hget, hsame.ownerId⟩)

/-- So does a run without imports. -/
theorem Stands.run {history : List (MemoryVersion R)} (h : Stands m history k fp s)
    (hkey : m.idempotencyKey = some k) (hinv : Inv s) (hrun : Run NoImport s s') :
    Inv s' ∧ Stands m history k fp s' := by
  refine Reaches.kept (I := fun s => Inv s ∧ Stands m history k fp s) hrun ?_ ⟨hinv, h⟩
  rintro s₂ s₃ ⟨call, hfresh, hno, rfl⟩ ⟨hinv₂, hstands⟩
  exact ⟨hinv₂.attempt hfresh, hstands.call hkey hinv₂ hfresh hno⟩

/-- The lookup by key answers with the memory as it is now. -/
theorem Stands.find {history : List (MemoryVersion R)} {m' : Memory R}
    (h : Stands m history k fp s) (hkey : m.idempotencyKey = some k)
    (hget : s.memories.get? m.id = some m') (hsame : m.SameIdentity m') :
    (findByIdempotencyKey m.ownerId k).run s
      = .ok (some { memory := m', fingerprint := fp }, s) := by
  have hfirst : s.firstWithKey m.ownerId k = some m' := by
    cases hf : s.firstWithKey m.ownerId k with
    | none =>
      have hnone := firstWithKey_eq_none.mp hf m.id m' hget hsame.ownerId
      exact absurd (hsame.idempotencyKey.trans hkey) hnone
    | some m₁ =>
      obtain ⟨⟨i, hi⟩, howner, hk₁⟩ := firstWithKey_eq_some hf
      obtain rfl := h.index.unique i m.id m₁ m' k hi hget (howner.trans hsame.ownerId.symm) hk₁
        (hsame.idempotencyKey.trans hkey)
      exact hi.symm.trans hget
  show findByIdempotencyKey m.ownerId k s = _
  unfold findByIdempotencyKey
  rw [h.recorded ⟨m', hget, hsame.ownerId⟩]
  dsimp only
  rw [hfirst]

/-- A new memory stands. -/
theorem stands_of_creation {svc : MemoryApplicationService R} {o : String} {t : Option String}
    {r : WriteMemoryResult R} (hinv : Inv s) (hindex : KeyIndex s)
    (hcases : WriteCases svc s o t (some k) fp r s')
    (hnew : s.memories.get? r.memory.id = none) : r.memory.ownerId = o ∧
      r.memory.idempotencyKey = some k ∧ r.memory.version = 1 ∧
      Stands r.memory [r.memory.snapshot "created"] k fp s' := by
  cases hcases with
  | reread isKey same first =>
    obtain ⟨⟨i, hi⟩, -, -⟩ := firstWithKey_eq_some first
    rw [hinv.keyed i r.memory hi, hi] at hnew
    cases hnew
  | @wrote args vector drawn owner tenant isKey created unused =>
    obtain ⟨-, howner, -, hversion, hkey, -⟩ := Memory.create_ok created
    rw [isKey] at hkey
    have hunused : ∀ k', r.memory.idempotencyKey = some k' → s.KeyUnused r.memory.ownerId k' := by
      intro k' hk' j m' hm' howner' hk
      obtain ⟨fp', hfp'⟩ := (Dict.contains_iff _ _).mp (hindex.recorded j m' k' hm' hk)
      rw [howner', unused k' hk'] at hfp'
      cases hfp'
    have hfps := putNew_fingerprints s r.memory fp vector
    refine ⟨howner.trans owner, hkey, hversion, (hindex.store hnew hunused rfl hfps).1,
      .inr ⟨r.memory, _, Dict.get?_set_self _ _ _, Dict.get?_set_self _ _ _, .refl _,
        List.prefix_refl _, .inl rfl⟩, fun _ => ?_⟩
    rw [hfps, recordKey, hkey]
    exact Dict.get?_set_self _ _ _

/-! ## Replays -/

/-- The same memory and no creation. -/
def replayOf (m : Memory R) : WriteMemoryResult R := { memory := m, created := false }

theorem reread_run_iff {fp' message : String} {m₀ m' : Memory R} :
    (do
      raiseIf (decide (fp ≠ fp')) (.omp .idempotencyConflictError message)
      pure { memory := m', created := false } : StoreTxn R (WriteMemoryResult R)).run s
        = .ok (replayOf m₀, s) ↔ fp = fp' ∧ m' = m₀ := by
  simp only [Txn.bind_ok, raiseIf_ok, Txn.pure_ok, replayOf]
  constructor
  · rintro ⟨_, _, ⟨hsame, -⟩, hmemory, -⟩
    cases hmemory
    exact ⟨by simpa using hsame, rfl⟩
  · rintro ⟨rfl, rfl⟩
    exact ⟨(), s, ⟨by simp, rfl⟩, rfl, rfl⟩

/-- A write whose key is found. -/
theorem write_found_iff {svc : MemoryApplicationService R} {c : WriteMemoryCommand R}
    {m₀ m' : Memory R} (howner : ∃ o, validateOwnerId c.ownerId = .ok o)
    (hkey : truthyKey c.idempotencyKey = some k)
    (hfind : (findByIdempotencyKey c.ownerId k).run s
      = .ok (some { memory := m', fingerprint := fp }, s)) :
    (svc.write (inMemoryUnitOfWork R) c).run s = .ok (replayOf m₀, s) ↔
      (∃ t, ensureAware (svc.clock 0) "now" = .ok t) ∧ fp = fingerprintWriteCommand c ∧
        m' = m₀ := by
  obtain ⟨o, ho⟩ := howner
  unfold write
  rw [Txn.run_bind_of_ok (Txn.ofExcept_ok.mpr ⟨ho, rfl⟩)]
  dsimp only
  constructor
  · intro h
    obtain ⟨t, _, hnow, h⟩ := Txn.bind_ok.mp h
    obtain ⟨ht, rfl⟩ := now_ok hnow
    rw [hkey] at h
    replace h := (Txn.run_bind_of_ok hfind).symm.trans h
    exact ⟨⟨t, ht⟩, reread_run_iff.mp h⟩
  · rintro ⟨⟨t, ht⟩, hsame⟩
    rw [Txn.run_bind_of_ok (now_run ht s), hkey]
    exact (Txn.run_bind_of_ok hfind).trans (reread_run_iff.mpr hsame)

/-- A capture whose key is found. -/
theorem capture_found_iff {svc : MemoryApplicationService R} {c : CaptureMemoryCommand R}
    {m₀ m' : Memory R} (hvalid : (validateCapture c : StoreTxn R Unit).run s = .ok ((), s))
    (hfind : (findByIdempotencyKey c.ownerId c.idempotencyKey).run s
      = .ok (some { memory := m', fingerprint := fp }, s)) :
    (svc.capture (inMemoryUnitOfWork R) c).run s = .ok (replayOf m₀, s) ↔
      fp = fingerprintCaptureCommand c ∧ m' = m₀ := by
  unfold capture
  rw [Txn.run_bind_of_ok hvalid]
  dsimp only
  constructor
  · intro h
    exact reread_run_iff.mp ((Txn.run_bind_of_ok hfind).symm.trans h)
  · intro hsame
    exact (Txn.run_bind_of_ok hfind).trans (reread_run_iff.mpr hsame)

/-- The checks of a capture read only what equal commands have in common. -/
theorem validateCapture_of_equal {c c' : CaptureMemoryCommand R} (h : c.Equal c')
    (hvalid : ∃ s₀ s₁ : InMemoryStore R,
      (validateCapture c : StoreTxn R Unit).run s₀ = .ok ((), s₁)) (s : InMemoryStore R) :
    (validateCapture c' : StoreTxn R Unit).run s = .ok ((), s) := by
  have hsame : (validateCapture c' : StoreTxn R Unit) = validateCapture c := by
    obtain ⟨hmode, -, hreason, -, -⟩ := CaptureConsent.pyEq_iff.mp h.consent
    unfold validateCapture
    rw [h.scopes, h.tenantId, h.connectionId, h.ownerId, h.connectionRevoked, h.capturePolicy,
      hmode, hreason, Provenance.eq_of_pyEq h.provenance]
  obtain ⟨s₀, s₁, hvalid⟩ := hvalid
  obtain ⟨out, h₀, hs⟩ := validateCapture_related (MonadRel.readsAlike s₀ s) c
  rw [hsame, hs]
  cases out with
  | error e => cases h₀.symm.trans hvalid
  | ok u => rfl

theorem inv_of_exec (call : Call R) {response : Response R} (hinv : Inv s)
    (hfresh : call.DrawsFresh s)
    (h : (call.request.exec call.service).run s = .ok (response, s')) : Inv s' := by
  have hattempt : call.attempt s = (.ok response, s') := Txn.attempt_ok.mpr h
  have hinv' := hinv.attempt hfresh
  rw [hattempt] at hinv'
  exact hinv'

/-- Later, the memory is the first one exactly when it is still at its first version. -/
theorem original_iff {m' : Memory R} (hversion : m.version = 1)
    (hget : s.memories.get? m.id = some m')    (hcases : m' = m ∨ m.version < m'.version) :
    m' = m ↔ (s.memories.get? m.id).map (fun m => m.version) = some 1 := by
  rw [hget]
  constructor
  · rintro rfl
    exact congrArg some hversion
  · intro h
    have hone : m'.version = 1 := Option.some.inj h
    rcases hcases with rfl | hlt
    · rfl
    · omega

/-- A later equal write or capture answers with the first memory again exactly when the memory is
still at its first version and the fingerprints are equal (and, for a write, the clock is aware). -/
theorem replays_original_iff {svc : MemoryApplicationService R} (hplayed : Played NoImport calls s₀)
    (hfresh : s₀.Fresh svc.uuid4) :
    (∀ (c : WriteMemoryCommand R) (r : WriteMemoryResult R) (s₁ : InMemoryStore R) (k : String),
      (svc.write (inMemoryUnitOfWork R) c).run s₀ = .ok (r, s₁) →
      s₀.memories.get? r.memory.id = none → c.idempotencyKey = some k →
      ∀ s, Run NoImport s₁ s → s.Holds c.ownerId r.memory.id →
      ∀ (later : MemoryApplicationService R) (c' : WriteMemoryCommand R), c.Equal c' →
        ((later.write (inMemoryUnitOfWork R) c').run s = .ok (replayOf r.memory, s) ↔
          (∃ t, ensureAware (later.clock 0) "now" = .ok t) ∧
            fingerprintWriteCommand c = fingerprintWriteCommand c' ∧
            (s.memories.get? r.memory.id).map (fun m => m.version) = some 1)) ∧
    ∀ (c : CaptureMemoryCommand R) (r : WriteMemoryResult R) (s₁ : InMemoryStore R),
      (svc.capture (inMemoryUnitOfWork R) c).run s₀ = .ok (r, s₁) →
      s₀.memories.get? r.memory.id = none →
      ∀ s, Run NoImport s₁ s → s.Holds c.ownerId r.memory.id →
      ∀ (later : MemoryApplicationService R) (c' : CaptureMemoryCommand R), c.Equal c' →
        ((later.capture (inMemoryUnitOfWork R) c').run s = .ok (replayOf r.memory, s) ↔
          fingerprintCaptureCommand c = fingerprintCaptureCommand c' ∧
            (s.memories.get? r.memory.id).map (fun m => m.version) = some 1) := by
  have hindex := keyIndex_of_noImport hplayed.run
  constructor
  · intro c r s₁ k h hnew hkey s hrun hlive later c' hequal
    have hcases := write_ok h
    rw [hkey] at hcases
    obtain ⟨howner, hmkey, hversion, hstands⟩ := stands_of_creation hplayed.inv hindex hcases hnew
    have hinv₁ : Inv s₁ := inv_of_exec ⟨svc, .write c⟩ hplayed.inv (fun _ => hfresh)
      (Txn.map_ok.mpr ⟨r, h, rfl⟩)
    obtain ⟨-, hlater⟩ := hstands.run hmkey hinv₁ hrun
    rw [← howner] at hlive
    obtain ⟨m', hget, hsame, hcases⟩ := hlater.record hlive
    have hfind := hlater.find hmkey hget hsame
    have hkey' : truthyKey c'.idempotencyKey = some k := by
      refine truthyKey_eq_some.mpr ⟨hequal.idempotencyKey.symm.trans hkey, ?_⟩
      rintro rfl
      exact r.memory.idempotencyKey_ne_empty hmkey
    have hvalid : ∃ o, validateOwnerId c'.ownerId = .ok o := by
      obtain ⟨o, _, ho, -⟩ := Txn.bind_ok.mp h
      exact ⟨o, hequal.ownerId ▸ (Txn.ofExcept_ok.mp ho).1⟩
    rw [howner, hequal.ownerId] at hfind
    rw [write_found_iff hvalid hkey' hfind, original_iff hversion hget hcases]
  · intro c r s₁ h hnew s hrun hlive later c' hequal
    obtain ⟨howner, hmkey, hversion, hstands⟩ :=
      stands_of_creation hplayed.inv hindex (capture_ok h) hnew
    have hinv₁ : Inv s₁ := inv_of_exec ⟨svc, .capture c⟩ hplayed.inv (fun _ => hfresh)
      (Txn.map_ok.mpr ⟨r, h, rfl⟩)
    obtain ⟨-, hlater⟩ := hstands.run hmkey hinv₁ hrun
    rw [← howner] at hlive
    obtain ⟨m', hget, hsame, hcases⟩ := hlater.record hlive
    have hfind := hlater.find hmkey hget hsame
    rw [howner, hequal.ownerId, hequal.idempotencyKey] at hfind
    obtain ⟨_, s₂, hvalid, -⟩ := Txn.bind_ok.mp h
    rw [capture_found_iff (validateCapture_of_equal hequal ⟨_, _, hvalid⟩ s) hfind,
      original_iff hversion hget hcases]

theorem equal_self (c : CaptureMemoryCommand R) : c.Equal c where
  tenantId := rfl
  ownerId := rfl
  connectionId := rfl
  content := rfl
  memoryType := rfl
  space := rfl
  provenance := decide_eq_true rfl
  consent := c.consent.pyEq_self
  importance := Python.numEq_self _
  confidence := Python.numEq_self _
  idempotencyKey := rfl
  capturePolicy := rfl
  connectionRevoked := rfl
  scopes := rfl

/-- The capture that `noteAtHome` makes. -/
def homeCommand : CaptureMemoryCommand ℚ :=
  { captureCommand "acme" "alice" "tea at five" "k1" with
    memoryType := .mentalNote, space := some "home" }

theorem replays_original_iff_twice : ∃ r s₁,
    ((serviceOn 1 7).capture (inMemoryUnitOfWork ℚ) homeCommand).run {} = .ok (r, s₁) ∧
    ((serviceOn 2 8).capture (inMemoryUnitOfWork ℚ) homeCommand).run s₁
      = .ok (replayOf r.memory, s₁) := by
  obtain ⟨r, h, hread⟩ := Txn.run_of_attempt_map
    (x := (serviceOn 1 7).capture (inMemoryUnitOfWork ℚ) homeCommand) (s := {})
    (f := fun r => (r.memory.id, r.memory.ownerId)) (b := (⟨7⟩, "alice")) (by decide +kernel)
  obtain ⟨hid, howner⟩ := Prod.mk.inj hread
  have hlive : ((((serviceOn 1 7).capture (inMemoryUnitOfWork ℚ) homeCommand).attempt
      {}).2.memories.get? ⟨7⟩).map (fun m => (m.ownerId, m.version)) = some ("alice", 1) := by
    decide +kernel
  obtain ⟨m, hm, heq⟩ := Option.map_eq_some_iff.mp hlive
  obtain ⟨hmowner, hversion⟩ := Prod.mk.inj heq
  have hfresh : ({} : InMemoryStore ℚ).Fresh (serviceOn 1 7).uuid4 :=
    InMemoryStore.fresh_of_no_tombstone rfl rfl
  refine ⟨r, _, h, ((replays_original_iff .start hfresh).2 homeCommand r _ h rfl _ .refl ⟨m, ?_, hmowner⟩
    (serviceOn 2 8) homeCommand (equal_self homeCommand)).mpr ⟨rfl, ?_⟩⟩
  · rw [hid]
    exact hm
  · rw [hid, hm]
    exact congrArg some hversion

/-- The store after the capture and its confirmation. -/
def confirmedAtHome : InMemoryStore ℚ := (confirmNoteAtHome.attempt (noteAtHome.attempt {}).2).2

/-- The capture created version 1; repeated after the confirmation, it answers with version 2. -/
theorem replay_after_confirmation :
    noteAtHome = ⟨serviceOn 1 7, .capture homeCommand⟩ ∧
    Played NoImport [noteAtHome, confirmNoteAtHome] confirmedAtHome ∧
    confirmedAtHome.Holds "alice" ⟨7⟩ ∧
    (((serviceOn 1 7).capture (inMemoryUnitOfWork ℚ) homeCommand).attempt {}).1.map
      (fun r => (r.created, r.memory.version)) = .ok (true, 1) ∧
    (((serviceOn 3 9).capture (inMemoryUnitOfWork ℚ) homeCommand).attempt confirmedAtHome).1.map
      (fun r => (r.created, r.memory.version)) = .ok (false, 2) := by
  have hfirst : Played NoImport [noteAtHome] (noteAtHome.attempt {}).2 :=
    .next .start (fun _ => ⟨rfl, fun _ _ h => by simp at h⟩) fun _ _ h => by cases h
  have hboth : Played NoImport [noteAtHome, confirmNoteAtHome] confirmedAtHome :=
    .next hfirst (fun h => absurd h (by decide)) fun _ _ h => by cases h
  exact ⟨rfl, hboth, by decide +kernel⟩

end InMemoryStore

end OpenMemory
