import OpenMemory.Store.Keys
import OpenMemory.Store.Reimport

/-!
# Histories and their records

A memory and its last snapshot are written by separate statements. Every write, capture,
confirmation, pin and update takes the snapshot of the memory it stores, so the last
snapshot of a history tells what the record tells (`SameStory`).

An import takes both from its package. `_validate_import_record` compares their ids and
version numbers and nothing else, so a package may bring a record whose snapshot tells
something else (`import_tells_two_stories`). `histories_agree_iff` proves that this is the only way:
after a run whose imports are consistent all histories agree, and the next call that
completes keeps that exactly if it is no import of an inconsistent new record.
-/

namespace OpenMemory

open Lib MemoryApplicationService InMemoryStore

variable {R : Type} [Python R]

/-! ## Agreement -/

/-- `snapshot == memory.snapshot(change_reason=snapshot.change_reason)`. -/
def Memory.Tells (m : Memory R) (last : MemoryVersion R) : Prop :=
  last.pyEq (m.snapshot last.changeReason) = true

theorem Memory.tells_snapshot (m : Memory R) (reason : String) : m.Tells (m.snapshot reason) :=
  MemoryVersion.pyEq_self _

theorem Memory.Tells.version {m : Memory R} {last : MemoryVersion R} (h : m.Tells last) :
    last.version = m.version := by
  simp only [Memory.Tells, MemoryVersion.pyEq, Bool.and_eq_true, decide_eq_true_eq] at h
  exact h.1.1.1.1.1.1.1.1.1.1.1.2

theorem Memory.Tells.content {m : Memory R} {last : MemoryVersion R} (h : m.Tells last) :
    last.content = m.content := by
  simp only [Memory.Tells, MemoryVersion.pyEq, Bool.and_eq_true, decide_eq_true_eq] at h
  exact h.1.1.1.1.1.1.1.1.1.1.2

namespace InMemoryStore

variable {s s' : InMemoryStore R} {call : Call R}

/-- The history under `i` ends with `last`, which tells what the record `m` tells: reading the
version of `last` gives `m` itself. -/
structure SameStory (s : InMemoryStore R) (i : UUID) (m : Memory R) (last : MemoryVersion R) :
    Prop where
  ends : (s.historyByMemory.get? i).bind List.getLast? = some last
  tells : m.Tells last
  read : s.versionAt m.ownerId i last.version m.tenantId = .ok (some m)

/-- Every history tells the story of its record. -/
def HistoryAgrees (s : InMemoryStore R) : Prop :=
  ∀ i m, s.memories.get? i = some m → ∃ last, s.SameStory i m last

/-- The current version is read off the record, so the two agree once the last snapshot does. -/
theorem sameStory_of_ends {i : UUID} {m : Memory R} {last : MemoryVersion R}
    (hget : s.memories.get? i = some m)
    (hends : (s.historyByMemory.get? i).bind List.getLast? = some last) (htells : m.Tells last) :
    s.SameStory i m last := by
  have hlookup : s.lookup m.ownerId i m.tenantId = some m :=
    lookup_eq_some.mpr ⟨hget, rfl, .inr rfl⟩
  exact ⟨hends, htells, versionAt_of_current hlookup htells.version.symm⟩

/-- Where record and history stay, the story stays. -/
theorem SameStory.same {i : UUID} {m : Memory R} {last : MemoryVersion R}
    (h : s.SameStory i m last) (hget : s'.memories.get? i = some m)
    (hhistory : s'.historyByMemory.get? i = s.historyByMemory.get? i) : s'.SameStory i m last :=
  sameStory_of_ends hget (by rw [hhistory]; exact h.ends) h.tells

/-- A history that ends with a snapshot of its record. -/
theorem sameStory_of_snapshot {i : UUID} {m : Memory R} {past : List (MemoryVersion R)}
    {reason : String} (hget : s.memories.get? i = some m)
    (hhistory : s.historyByMemory.get? i = some (past ++ [m.snapshot reason])) :
    s.SameStory i m (m.snapshot reason) := by
  refine sameStory_of_ends hget ?_ (m.tells_snapshot reason)
  rw [hhistory]
  exact List.getLast?_concat

theorem HistoryAgrees.effect (h : HistoryAgrees s) (heffect : call.Effect s s') :
    HistoryAgrees s' := by
  intro i m hm
  cases heffect.effectAt i with
  | same memory history =>
    obtain ⟨last, hlast⟩ := h i m (memory.symm.trans hm)
    exact ⟨last, hlast.same hm history⟩
  | appeared _ _ _ memory history =>
    rw [memory] at hm
    cases hm
    have hhistory : s'.historyByMemory.get? i = some ([] ++ [m.snapshot "created"]) := history
    exact ⟨_, sameStory_of_snapshot memory hhistory⟩
  | revised _ _ _ memory history _ =>
    rw [memory] at hm
    cases hm
    exact ⟨_, sameStory_of_snapshot memory history⟩
  | vanished _ memory _ _ =>
    rw [memory] at hm
    cases hm

end InMemoryStore

/-! ## Imports -/

/-- The last snapshot of the record's history tells what its memory tells. -/
def MemoryRecordDto.Consistent (record : MemoryRecordDto R) : Prop :=
  ∃ last, record.history.getLast? = some last ∧ record.memory.Tells last

namespace InMemoryStore

variable {s s' : InMemoryStore R} {call : Call R}

/-- The records that an import brings in for ids not in use are consistent. -/
def ConsistentImport (s : InMemoryStore R) (call : Call R) : Prop :=
  ∀ o records, call.request = .importMemories o records →
    ∀ record ∈ records, s.memories.get? record.memory.id = none → record.Consistent

/-- After an import the histories agree exactly when the new records do. -/
theorem historyAgrees_landed_iff {o : String} {records : List (MemoryRecordDto R)}
    (h : HistoryAgrees s) (hlanded : Landed s s' o records) :
    HistoryAgrees s' ↔
      ∀ record ∈ records, s.memories.get? record.memory.id = none → record.Consistent := by
  constructor
  · intro hafter record hrecord hnew
    obtain ⟨hmemory, hhistory, -⟩ := hlanded.stored record hrecord hnew
    obtain ⟨last, hlast⟩ := hafter _ _ hmemory
    have hends := hlast.ends
    rw [hhistory] at hends
    exact ⟨last, hends, hlast.tells⟩
  · intro hconsistent i m hm
    by_cases hi : i ∈ records.map fun record => record.memory.id
    · obtain ⟨record, hrecord, rfl⟩ := List.mem_map.mp hi
      cases hs : s.memories.get? record.memory.id with
      | none =>
        -- the record was stored as the package has it
        obtain ⟨hmemory, hhistory, -⟩ := hlanded.stored record hrecord hs
        obtain ⟨last, hends, htells⟩ := hconsistent record hrecord hs
        rw [hmemory] at hm
        cases hm
        exact ⟨last, sameStory_of_ends hmemory (by rw [hhistory]; exact hends) htells⟩
      | some m₀ =>
        obtain ⟨-, hmemory, hhistory, -⟩ := hlanded.kept record hrecord m₀ hs
        rw [hmemory] at hm
        cases hm
        obtain ⟨last, hlast⟩ := h _ _ hs
        exact ⟨last, hlast.same hmemory hhistory⟩
    · obtain ⟨hmemory, hhistory, -⟩ := hlanded.others i hi
      obtain ⟨last, hlast⟩ := h i m (hmemory.symm.trans hm)
      exact ⟨last, hlast.same hm hhistory⟩

/-- A call that completes keeps the agreement exactly if it is no import of an inconsistent
new record. -/
theorem HistoryAgrees.completes_iff {response : Response R} (h : HistoryAgrees s) (hinv : Inv s)
    (hfresh : call.DrawsFresh s) (hdone : call.attempt s = (.ok response, s')) :
    HistoryAgrees s' ↔ ConsistentImport s call := by
  by_cases hno : NoImport s call
  · have heffect := Call.effect hinv.keyed hfresh hno
    rw [hdone] at heffect
    exact iff_of_true (h.effect heffect) fun o records hreq => absurd hreq (hno o records)
  · unfold NoImport at hno
    push Not at hno
    obtain ⟨o, records, hreq⟩ := hno
    have hrun := Txn.attempt_ok.mp hdone
    rw [hreq] at hrun
    obtain ⟨result, himport, -⟩ := Txn.map_ok.mp hrun
    rw [historyAgrees_landed_iff h (landed_of_import himport)]
    constructor
    · intro hall o' records' hreq'
      rw [hreq] at hreq'
      cases hreq'
      exact hall
    · exact fun hall => hall o records hreq

/-! ## Runs -/

theorem HistoryAgrees.attempt (h : HistoryAgrees s) (hinv : Inv s) (hfresh : call.DrawsFresh s)
    (hconsistent : ConsistentImport s call) : HistoryAgrees (call.attempt s).2 := by
  cases hdone : call.attempt s with
  | mk outcome s' =>
    cases outcome with
    | ok response => exact (h.completes_iff hinv hfresh hdone).mpr hconsistent
    | error e =>
      -- a call that raises leaves the store as it was
      obtain ⟨-, rfl⟩ := Txn.attempt_error.mp hdone
      exact h

theorem historyAgrees_of_played {calls : List (Call R)} (h : Played ConsistentImport calls s) :
    HistoryAgrees s := by
  induction h with
  | start =>
    intro i m hm
    cases hm
  | next before fresh consistent ih => exact ih.attempt before.inv fresh consistent

/-- After a run whose imports are consistent every history tells the story of its record, and the
next call that completes keeps that exactly if it is consistent too. -/
theorem histories_agree_iff {calls : List (Call R)} (h : Played ConsistentImport calls s) :
    HistoryAgrees s ∧
      ∀ (call : Call R) (response : Response R) (s' : InMemoryStore R), call.DrawsFresh s →
        call.attempt s = (.ok response, s') → (HistoryAgrees s' ↔ ConsistentImport s call) :=
  ⟨historyAgrees_of_played h, fun _ _ _ hfresh hdone =>
    (historyAgrees_of_played h).completes_iff h.inv hfresh hdone⟩

theorem histories_agree_iff_one_record :
    ((importKeyed [keyedRecord 7 (.inl rfl)]).attempt {}).2.memories.contains ⟨7⟩ = true ∧
      HistoryAgrees ((importKeyed [keyedRecord 7 (.inl rfl)]).attempt {}).2 := by
  have hconsistent : ConsistentImport {} (importKeyed [keyedRecord 7 (.inl rfl)]) := by
    intro o records hreq record hrecord _
    cases hreq
    rw [List.mem_singleton.mp hrecord]
    exact ⟨_, rfl, Memory.tells_snapshot _ _⟩
  have hplayed : Played ConsistentImport [importKeyed [keyedRecord 7 (.inl rfl)]]
      ((importKeyed [keyedRecord 7 (.inl rfl)]).attempt {}).2 :=
    .next .start (fun h => by cases h) hconsistent
  exact ⟨by decide +kernel, (histories_agree_iff hplayed).1⟩

theorem seven_listed : (7 : Fin (2 ^ 128)) = 7 ∨ (7 : Fin (2 ^ 128)) = 8 := .inl rfl

/-- A record at version 1 whose only snapshot remembers something else. -/
def twoStoriesRecord : MemoryRecordDto ℚ :=
  { keyedRecord 7 seven_listed with
    history := [{ (keyedMemory 7 seven_listed).snapshot "created" with
      content := "coffee at nine" }] }

/-- The import stores it, and the history contradicts the record from then on. -/
theorem import_tells_two_stories :
    ¬∀ (calls : List (Call ℚ)) (s : InMemoryStore ℚ), Played (fun _ _ => True) calls s →
      HistoryAgrees s := by
  intro hclaim
  let call := importKeyed [twoStoriesRecord]
  have hplayed : Played (fun _ _ => True) [call] (call.attempt {}).2 :=
    .next .start (fun h => by cases h) trivial
  have hmemory : ((call.attempt {}).2.memories.get? ⟨7⟩).map (fun m => m.content)
      = some "tea at five" := by decide +kernel
  have hhistory : (((call.attempt {}).2.historyByMemory.get? ⟨7⟩).bind List.getLast?).map
      (fun last => last.content) = some "coffee at nine" := by decide +kernel
  obtain ⟨m, hm, hcontent⟩ := Option.map_eq_some_iff.mp hmemory
  obtain ⟨last, hlast⟩ := hclaim _ _ hplayed _ m hm
  rw [hlast.ends] at hhistory
  have hsame : last.content = m.content := hlast.tells.content
  have hcoffee : last.content = "coffee at nine" := Option.some.inj hhistory
  rw [hcontent, hcoffee] at hsame
  exact absurd hsame (by decide)

end InMemoryStore

end OpenMemory
