import OpenMemory.Store.Invariant

/-!
# Migration 0008 (`migrations/versions/0008_m1_local_memory_contract.py`)

The migration to the M1 contract rewrites the stored rows once: every `active` memory and
snapshot becomes `confirmed`, a missing source client becomes `legacy-v0`, and a missing
consent is filled in as unverified. Identity, content and versions stay, so the
representation invariant does.
-/

namespace OpenMemory

open Lib

variable {R : Type} [Python R]

/-- `SET state = 'confirmed' WHERE state = 'active'`. -/
def migrateState (state : MemoryState) : MemoryState :=
  if state = .active then .confirmed else state

/-- `jsonb_set(provenance, '{source_client}', '"legacy-v0"')` where there is none. -/
def migrateProvenance (p : Provenance) : Provenance :=
  if h : p.sourceClient = none then
    { p.toProvenanceFields with
      sourceClient := some "legacy-v0"
      checked := by
        have hp := p.checked
        simp only [ProvenanceFields.postInit, except_bind_ok, except_pure_ok] at hp ⊢
        obtain ⟨at_, hat, _, h₁, _, h₂, _, h₃, _, -, _, h₅, _, h₆, _, h₇, _, h₈, heq⟩ := hp
        refine ⟨at_, hat, _, h₁, _, h₂, _, h₃, (), by decide, _, h₅, _, h₆, _, h₇, _, h₈, ?_⟩
        have hcaptured : p.capturedAt = at_ := congrArg ProvenanceFields.capturedAt heq
        rw [hcaptured] }
  else p

/-- The consent that the migration fills in. -/
def legacyConsent (id : UUID) (at_ : DateTime) : ConsentFields where
  mode := .legacyUnverified
  consentId := "legacy-v0-" ++ id.str
  reasonCode := .importAuthorized
  policyVersion := "v0-compat"
  grantedAt := at_

/-- Rows hold aware times only; a naive one would leave the consent missing. -/
def migrateConsent (id : UUID) (at_ : DateTime) (consent : Option CaptureConsent) :
    Option CaptureConsent :=
  consent.or (CaptureConsent.make (legacyConsent id at_)).toOption

/-- `UPDATE memories`, the three statements on one row. -/
def migrateMemory (m : Memory R) : Memory R where
  toMemoryFields := { m.toMemoryFields with
    state := migrateState m.state
    provenance := migrateProvenance m.provenance
    captureConsent := migrateConsent m.id m.createdAt m.captureConsent }
  checked := Memory.postInit_unread (migrateState m.state) (migrateProvenance m.provenance)
    m.embedding (migrateConsent m.id m.createdAt m.captureConsent) m.checked

/-- `UPDATE memory_versions`, the three statements on one row. -/
def migrateVersion (v : MemoryVersion R) : MemoryVersion R :=
  { v with
    state := migrateState v.state
    provenance := migrateProvenance v.provenance
    captureConsent := migrateConsent v.memoryId v.changedAt v.captureConsent }

namespace InMemoryStore

/-- `upgrade()` on the rows of a store. -/
def migrate0008 (s : InMemoryStore R) : InMemoryStore R :=
  { s with
    memories := s.memories.mapValues fun _ => migrateMemory
    historyByMemory := s.historyByMemory.mapValues fun _ => List.map migrateVersion }

variable {s s' : InMemoryStore R}

theorem lookup_migrate0008 (o : String) (i : UUID) (t : Option String) :
    s.migrate0008.lookup o i t = (s.lookup o i t).map migrateMemory := by
  unfold lookup migrate0008
  rw [Dict.get?_mapValues]
  cases s.memories.get? i with
  | none => rfl
  | some m =>
    rw [Option.map_some, Option.filter_some, Option.filter_some]
    show (if addressable o t m = true then some (migrateMemory m) else none) = _
    split <;> rfl

/-- The migration keeps the representation invariant. -/
theorem Inv.migrate0008 (hinv : Inv s) : Inv s.migrate0008 where
  keyed i m h := by
    obtain ⟨m₀, hm₀, rfl⟩ := Dict.get?_mapValues_eq_some.mp h
    exact hinv.keyed i m₀ hm₀
  vectors i := by
    show s.vectors.contains i = (s.memories.mapValues _).contains i
    rw [Dict.contains_mapValues]
    exact hinv.vectors i
  histories i := by
    show (s.historyByMemory.mapValues _).contains i = (s.memories.mapValues _).contains i
    rw [Dict.contains_mapValues, Dict.contains_mapValues]
    exact hinv.histories i
  versions i m history hm hh := by
    obtain ⟨m₀, hm₀, rfl⟩ := Dict.get?_mapValues_eq_some.mp hm
    obtain ⟨history₀, hh₀, rfl⟩ := Dict.get?_mapValues_eq_some.mp hh
    obtain ⟨hversions, hids⟩ := hinv.versions i m₀ history₀ hm₀ hh₀
    refine ⟨?_, fun v hv => ?_⟩
    · rw [List.map_map]
      exact hversions
    · obtain ⟨v₀, hv₀, rfl⟩ := List.mem_map.mp hv
      exact hids v₀ hv₀
  relations key r h := by
    obtain ⟨hkey, hne, hsource, htarget⟩ := hinv.relations key r h
    refine ⟨hkey, hne, ?_, ?_⟩
    · rw [lookup_migrate0008, Option.isSome_map]
      exact hsource
    · rw [lookup_migrate0008, Option.isSome_map]
      exact htarget
  fingerprints o k fp h := by
    obtain ⟨i, m, hm, howner, hkey⟩ := hinv.fingerprints o k fp h
    exact ⟨i, migrateMemory m, Dict.get?_mapValues_eq_some.mpr ⟨m, hm, rfl⟩, howner, hkey⟩
  ledger := hinv.ledger

/-- A call, or the migration. -/
def MigrationStep (s s' : InMemoryStore R) : Prop :=
  Step (fun _ _ => True) s s' ∨ s' = s.migrate0008

/-- The stores that calls and the migration leave, starting empty. -/
def MigratedReachable (s : InMemoryStore R) : Prop := Reaches MigrationStep {} s

theorem MigratedReachable.inv (h : MigratedReachable s) : Inv s := by
  refine Reaches.kept h ?_ inv_empty
  rintro s₁ s₂ (⟨call, hfresh, -, rfl⟩ | rfl) hinv
  · exact hinv.attempt hfresh
  · exact hinv.migrate0008

end InMemoryStore

end OpenMemory
