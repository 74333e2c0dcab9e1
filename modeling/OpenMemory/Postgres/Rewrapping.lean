import OpenMemory.Postgres.Discard
import OpenMemory.Postgres.Envelopes

/-!
# Key rotation, among other transactions

`rewrap_envelopes` reads all rows of a tenant in one `SELECT`, and writes back each of them by its
key: nothing compares the row with the one that was read. A content that another transaction
commits between the `SELECT` and the write of its row is lost (`rewrap_loses_update`). That is the
only way: in every run in which no transaction commits another content for a row that a rotation
has read and not yet rewrapped, all rows hold what the last transaction other than a rotation
wrote to them (`rewrap_keeps_content`).
-/

namespace OpenMemory.Postgres

open Lib Lib.Prog
open MonadExcept (ofExcept)
open PostgresMemoryRepository

variable {R : Type} [Python R]

/-! ## Contents -/

/-- Content and provenance of a row, as they are read. -/
abbrev Opened := Except PyError (String × Provenance)

/-- What the payload of a row holds; the content of a memory is normalised on every read. -/
def RowKey.opens (R : Type) [Python R] (encryptor : Option TenantEnvelopeEncryptor) (k : RowKey)
    (tenantId : Option UUID) (payload : Payload) : Option Opened :=
  let session := Session.sequential R tenantId encryptor
  match k with
  | .memory i => some ((session.openPayload tenantId i payload).map fun opened =>
      (collapse opened.1, opened.2))
  | .version i _ => some (session.openPayload tenantId i payload)
  | _ => none

/-- What the database holds under a key of `memories` or `memory_versions`. -/
def Database.openedAt (encryptor : Option TenantEnvelopeEncryptor) (db : Database R) (k : RowKey) :
    Option Opened :=
  match k with
  | .memory i => (db.memories.get? i).bind fun row => k.opens R encryptor row.tenantId row.payload
  | .version i v => (db.versions.get? (i, v)).bind fun row =>
      k.opens R encryptor row.tenantId row.payload
  | _ => none

variable {encryptor : Option TenantEnvelopeEncryptor} {tenant : Option UUID}

theorem openedAt_congr {db db' : Database R} {k : RowKey} (h : db.SameAt db' k) :
    db.openedAt encryptor k = db'.openedAt encryptor k := by
  cases k with
  | memory i =>
    replace h : db.memories.get? i = db'.memories.get? i := h
    unfold Database.openedAt
    dsimp only
    rw [h]
  | version i v =>
    replace h : db.versions.get? (i, v) = db'.versions.get? (i, v) := h
    unfold Database.openedAt
    dsimp only
    rw [h]
  | _ => rfl

/-- The row is ciphertext. -/
def Payload.sealed : Payload → Bool
  | .plain _ _ => false
  | .cipher _ _ => true

/-- What a bulk read finds to be rewrapped. -/
def Statement.listing (encryptor : Option TenantEnvelopeEncryptor) (tenant : Option UUID)
    (db : Database R) : Statement R → List (RowKey × Option Opened)
  | .selectTenantMemories =>
    (db.memories.items.filter fun e => decide (e.2.tenantId = tenant) && e.2.payload.sealed).map
      fun e => (.memory e.1, db.openedAt encryptor (.memory e.1))
  | .selectTenantVersions =>
    (db.versions.items.filter fun e => decide (e.2.tenantId = tenant) && e.2.payload.sealed).map
      fun e => (.version e.1.1 e.1.2, db.openedAt encryptor (.version e.1.1 e.1.2))
  | _ => []

/-- A rotation has read what the row held. -/
def ReadAs (encryptor : Option TenantEnvelopeEncryptor) (tenant : Option UUID) (trace : Trace R)
    (k : RowKey) (o : Option Opened) : Prop :=
  ∃ e ∈ trace, (k, o) ∈ e.1.listing encryptor tenant e.2

theorem ReadAs.mono {trace trace' : Trace R} {k : RowKey} {o : Option Opened}
    (h : ReadAs encryptor tenant trace k o) (hsub : ∀ e ∈ trace, e ∈ trace') :
    ReadAs encryptor tenant trace' k o := by
  obtain ⟨e, he, hlisted⟩ := h
  exact ⟨e, hsub e he, hlisted⟩

/-- A bulk read lists what it sees. -/
theorem openedAt_of_listing {q : Statement R} {db : Database R} {k : RowKey} {o : Option Opened}
    (h : (k, o) ∈ q.listing encryptor tenant db) : o = db.openedAt encryptor k := by
  cases q with
  | selectTenantMemories | selectTenantVersions =>
    obtain ⟨e, -, heq⟩ := List.mem_map.mp h
    obtain ⟨rfl, rfl⟩ := Prod.mk.inj heq
    rfl
  | _ => cases h

/-! ## The body of a rotation -/

/-- The row that a statement writes back, with its new payload. -/
def Statement.rewraps : Statement R → Option (RowKey × Payload)
  | .rewrapMemory i payload => some (.memory i, payload)
  | .rewrapVersion i v payload => some (.version i v, payload)
  | _ => none

/-- What a rotation may issue: reads, and writes of what it has read under a key. -/
inductive RewrapIssues (encryptor : Option TenantEnvelopeEncryptor) (tenant : Option UUID)
    (trace : Trace R) : Statement R → Prop
  | reads {q : Statement R} (h : q.kinds = []) : RewrapIssues encryptor tenant trace q
  | rewraps {q : Statement R} {k : RowKey} {payload : Payload} (h : q.rewraps = some (k, payload))
      (read : ReadAs encryptor tenant trace k (k.opens R encryptor tenant payload)) :
      RewrapIssues encryptor tenant trace q

/-- The effect of a write: the row now holds what the payload opens to, or it was not there. -/
theorem run_rewraps (encryptor : Option TenantEnvelopeEncryptor) {q : Statement R} {k : RowKey}
    {payload : Payload} {db db' : Database R} {r : q.Result} (hq : q.rewraps = some (k, payload))
    (h : q.run tenant db = .ok (r, db')) :
    (q.locks tenant db = [] ∧ db' = db) ∨
      (q.locks tenant db = [k] ∧ (db.openedAt encryptor k).isSome = true ∧
        db'.openedAt encryptor k = k.opens R encryptor tenant payload) := by
  cases q with
  -- the row is absent or another tenant's, or it is locked and opens to the new payload
  | rewrapMemory i payload' =>
    obtain ⟨rfl, rfl⟩ := Prod.mk.inj (Option.some.inj hq)
    obtain ⟨-, rfl⟩ := Prod.mk.inj (Except.ok.inj h)
    have hlocks : Statement.locks tenant (.rewrapMemory i payload') db =
        Statement.awaits tenant (.rewrapMemory i payload') db := rfl
    rw [hlocks]
    simp only [Statement.awaits, Database.rewrapMemory]
    cases hrow : db.visible tenant i with
    | none => exact .inl ⟨rfl, rfl⟩
    | some row =>
      obtain ⟨hget, htenant⟩ := Option.filter_eq_some_iff.mp hrow
      refine .inr ⟨rfl, ?_, ?_⟩
      · unfold Database.openedAt
        dsimp only
        rw [hget]
        rfl
      · unfold Database.openedAt
        dsimp only
        rw [Dict.get?_set_self, ← of_decide_eq_true htenant]
        rfl
  | rewrapVersion i v payload' =>
    obtain ⟨rfl, rfl⟩ := Prod.mk.inj (Option.some.inj hq)
    obtain ⟨-, rfl⟩ := Prod.mk.inj (Except.ok.inj h)
    have hlocks : Statement.locks tenant (.rewrapVersion i v payload') db =
        Statement.awaits tenant (.rewrapVersion i v payload') db := rfl
    rw [hlocks]
    simp only [Statement.awaits, Database.rewrapVersion]
    cases hrow : (db.versions.get? (i, v)).filter fun row => decide (row.tenantId = tenant) with
    | none => exact .inl ⟨rfl, rfl⟩
    | some row =>
      obtain ⟨hget, htenant⟩ := Option.filter_eq_some_iff.mp hrow
      refine .inr ⟨rfl, ?_, ?_⟩
      · unfold Database.openedAt
        dsimp only
        rw [hget]
        rfl
      · unfold Database.openedAt
        dsimp only
        rw [Dict.get?_set_self, ← of_decide_eq_true htenant]
        rfl
  | _ => cases hq

section Body

variable {e : TenantEnvelopeEncryptor} {trace : Trace R} {keyVersion : Int}

/-- What a memory that is read is written back as. -/
theorem opens_rewrappedMemory (hopens : e.Opens) {i : UUID} {row : MemoryRow R} {memory : Memory R}
    {payload : Payload}
    (hread : (Session.interleaved R tenant (some e)).memoryFromRow i row = .ok memory)
    (hpayload : (Session.interleaved R tenant (some e)).cloudFields memory.id memory.content
      memory.provenance keyVersion = .ok payload) :
    memory.id = i ∧ (RowKey.memory i).opens R (some e) tenant payload =
      (RowKey.memory i).opens R (some e) row.tenantId row.payload := by
  obtain ⟨hid, hopened⟩ := openPayload_of_memoryFromRow hread
  refine ⟨hid, congrArg some ?_⟩
  have hnew := openPayload_cloudFields rfl hopens hpayload
  rw [hid] at hnew
  calc ((Session.interleaved R tenant (some e)).openPayload tenant i payload).map
        (fun opened => (collapse opened.1, opened.2))
      = .ok (collapse memory.content, memory.provenance) := congrArg _ hnew
    _ = .ok (memory.content, memory.provenance) := by rw [memory.collapse_content]
    _ = _ := hopened.symm

theorem opens_rewrappedVersion (hopens : e.Opens) {i : UUID} {v : Int} {row : VersionRow R}
    {version : MemoryVersion R} {payload : Payload}
    (hread : (Session.interleaved R tenant (some e)).versionFromRow i v row = .ok version)
    (hpayload : (Session.interleaved R tenant (some e)).cloudFields version.memoryId version.content
      version.provenance keyVersion = .ok payload) :
    version.memoryId = i ∧ version.version = v ∧
      (RowKey.version i v).opens R (some e) tenant payload =
        (RowKey.version i v).opens R (some e) row.tenantId row.payload := by
  obtain ⟨hid, hversion, hopened⟩ := openPayload_of_versionFromRow hread
  refine ⟨hid, hversion, congrArg some ?_⟩
  have hnew := openPayload_cloudFields rfl hopens hpayload
  rw [hid] at hnew
  exact hnew.trans hopened.symm

theorem meets_rewrapMemories (hopens : e.Opens) {rows : List (UUID × MemoryRow R)}
    (hread : ∀ i row, (i, row) ∈ rows → row.payload.sealed = true → ReadAs (some e) tenant trace
      (.memory i) ((RowKey.memory i).opens R (some e) row.tenantId row.payload)) :
    Meets (fun q => q.run tenant) (RewrapIssues (some e) tenant) (fun _ _ => True) trace
      (rewrapMemories (Session.interleaved R tenant (some e)) keyVersion rows) := by
  induction rows generalizing trace with
  | nil => exact meets_pure.mpr trivial
  | cons first rest ih =>
    obtain ⟨i, row⟩ := first
    have hrest := fun j row' hmem => hread j row' (List.mem_cons_of_mem _ hmem)
    unfold rewrapMemories
    cases hcase : row.payload with
    | plain => exact ih hrest
    | cipher =>
      refine meets_ofExcept_bind (fun _ _ => trivial) fun memory hmemory => ?_
      refine meets_ofExcept_bind (fun _ _ => trivial) fun payload hpayload => ?_
      obtain ⟨rfl, hopened⟩ := opens_rewrappedMemory hopens hmemory hpayload
      have hfirst := hread _ row List.mem_cons_self (by rw [hcase]; rfl)
      rw [← hopened] at hfirst
      refine meets_statement_bind (.rewraps rfl hfirst) fun s _ s' _ => ?_
      refine (ih fun j row' hmem hsealed => ?_).bind (fun _ _ _ => meets_pure.mpr trivial)
        fun _ _ _ => trivial
      exact (hrest j row' hmem hsealed).mono fun x hx => List.mem_append_left _ hx

theorem meets_rewrapVersions (hopens : e.Opens) {rows : List ((UUID × Int) × VersionRow R)}
    (hread : ∀ i v row, ((i, v), row) ∈ rows → row.payload.sealed = true → ReadAs (some e) tenant
      trace (.version i v) ((RowKey.version i v).opens R (some e) row.tenantId row.payload)) :
    Meets (fun q => q.run tenant) (RewrapIssues (some e) tenant) (fun _ _ => True) trace
      (rewrapVersions (Session.interleaved R tenant (some e)) keyVersion rows) := by
  induction rows generalizing trace with
  | nil => exact meets_pure.mpr trivial
  | cons first rest ih =>
    obtain ⟨⟨i, v⟩, row⟩ := first
    have hrest := fun j w row' hmem => hread j w row' (List.mem_cons_of_mem _ hmem)
    unfold rewrapVersions
    cases hcase : row.payload with
    | plain => exact ih hrest
    | cipher =>
      refine meets_ofExcept_bind (fun _ _ => trivial) fun version hversion => ?_
      refine meets_ofExcept_bind (fun _ _ => trivial) fun payload hpayload => ?_
      obtain ⟨rfl, rfl, hopened⟩ := opens_rewrappedVersion hopens hversion hpayload
      have hfirst := hread _ _ row List.mem_cons_self (by rw [hcase]; rfl)
      rw [← hopened] at hfirst
      refine meets_statement_bind (.rewraps rfl hfirst) fun s _ s' _ => ?_
      refine ih fun j w row' hmem hsealed => ?_
      exact (hrest j w row' hmem hsealed).mono fun x hx => List.mem_append_left _ hx

/-- A rotation only writes back what it has read. -/
theorem meets_rewrapEnvelopes (hopens : ∀ e, encryptor = some e → e.Opens) :
    Meets (fun q => q.run tenant) (RewrapIssues encryptor tenant) (fun _ _ => True) []
      (rewrapEnvelopes (Session.interleaved R tenant encryptor) keyVersion) := by
  refine meets_raiseIf_bind (fun _ => trivial) fun _ => ?_
  refine meets_raiseIf_bind (fun _ => trivial) fun hencryptor => ?_
  refine meets_raiseIf_bind (fun _ => trivial) fun _ => ?_
  -- without an encryptor the rotation is refused
  cases encryptor with
  | none => cases hencryptor
  | some e =>
    refine meets_statement_bind (.reads rfl) fun s rows s' hrun => ?_
    obtain ⟨rfl, -⟩ := Prod.mk.inj (Except.ok.inj hrun)
    refine Meets.bind (Ψ := fun _ _ => True) ?_ ?_ fun _ _ _ => trivial
    -- what is rewrapped was listed, and opens to what it held
    · refine meets_rewrapMemories (hopens e rfl) fun i row hmem hsealed => ?_
      obtain ⟨hmem, htenant⟩ := List.mem_filter.mp hmem
      refine ⟨_, List.mem_append_right _ (List.mem_singleton_self _), ?_⟩
      refine List.mem_map.mpr ⟨(i, row), List.mem_filter.mpr ⟨hmem, ?_⟩, ?_⟩
      · rw [hsealed, Bool.and_true]
        exact htenant
      · have hget := (Dict.mem_items_iff _ _ _).mp hmem
        simp only [Database.openedAt, hget]
        rfl
    · intro t migrated _
      refine meets_statement_bind (.reads rfl) fun s₂ rows s₃ hrun => ?_
      obtain ⟨rfl, -⟩ := Prod.mk.inj (Except.ok.inj hrun)
      refine Meets.bind (Ψ := fun _ _ => True) ?_ (fun _ _ _ => meets_pure.mpr trivial)
        fun _ _ _ => trivial
      refine meets_rewrapVersions (hopens e rfl) fun i v row hmem hsealed => ?_
      obtain ⟨hmem, htenant⟩ := List.mem_filter.mp hmem
      refine ⟨_, List.mem_append_right _ (List.mem_singleton_self _), ?_⟩
      refine List.mem_map.mpr ⟨((i, v), row), List.mem_filter.mpr ⟨hmem, ?_⟩, ?_⟩
      · rw [hsealed, Bool.and_true]
        exact htenant
      · have hget := (Dict.mem_items_iff _ _ _).mp hmem
        simp only [Database.openedAt, hget]
        rfl

end Body

/-! ## Runs -/

/-- The rows that a rotation has read and does not hold yet, with what they held. -/
def unwrapped (encryptor : Option TenantEnvelopeEncryptor) (p : Participant R) :
    List (RowKey × Option Opened) :=
  p.trace.flatMap fun e => (e.1.listing encryptor p.agent.tenant e.2).filter fun x =>
    decide (x.1 ∉ p.held)

/-- No transaction commits another content for a row that a rotation has read and not yet
rewrapped. -/
def unrevised (encryptor : Option TenantEnvelopeEncryptor) (cl : Cluster R) :
    Action (Transaction R) → Bool
  | .finish n =>
    match cl.processes[n]? with
    | none => true
    | some p => !commits p || cl.processes.all fun p' => !p'.isRunning ||
        (unwrapped encryptor p').all fun x =>
          match (p.view (engine R) cl.committed).openedAt encryptor x.1 with
          | none => true
          | some o => decide (some o = x.2)
  | _ => true

theorem openedAt_of_unrevised {cl : Cluster R} {n m : Nat} {p p' : Participant R}
    {outcome : Outcome R} {k : RowKey} {o : Option Opened}
    (h : unrevised encryptor cl (.finish n) = true) (hp : cl.processes[n]? = some p)
    (hstatus : p.status = .running (.done (.ok outcome))) (hp' : cl.processes[m]? = some p')
    (hrunning : p'.isRunning = true) (hread : ReadAs encryptor p'.agent.tenant p'.trace k o)
    (hheld : k ∉ p'.held)
    (hthere : ((p.view (engine R) cl.committed).openedAt encryptor k).isSome = true) :
    (p.view (engine R) cl.committed).openedAt encryptor k = o := by
  simp only [unrevised, hp] at h
  rw [commits_iff.mpr ⟨_, hstatus⟩, Bool.not_true, Bool.false_or, List.all_eq_true] at h
  have hp'' := h p' (List.mem_of_getElem? hp')
  rw [hrunning, Bool.not_true, Bool.false_or, List.all_eq_true] at hp''
  obtain ⟨e, he, hlisted⟩ := hread
  have hk := hp'' (k, o) (List.mem_flatMap.mpr ⟨e, he, List.mem_filter.mpr ⟨hlisted,
    decide_eq_true hheld⟩⟩)
  obtain ⟨o', ho'⟩ := Option.isSome_iff_exists.mp hthere
  rw [ho'] at hk ⊢
  exact of_decide_eq_true hk

/-- What holds of a rotation in progress: a row that it has read holds what was read, if it is
still there, and a row that it holds has the content that is committed. -/
structure RewrapInv (encryptor : Option TenantEnvelopeEncryptor) (c : Database R)
    (p : Participant R) : Prop where
  meets : ∀ program, p.status = .running program →
    Meets (fun q => q.run p.agent.tenant) (RewrapIssues encryptor p.agent.tenant) (fun _ _ => True)
      p.trace program
  asRead : p.isRunning = true → ∀ k o, ReadAs encryptor p.agent.tenant p.trace k o →
    (c.openedAt encryptor k).isSome = true → c.openedAt encryptor k = o
  asCommitted : p.isRunning = true → ∀ k ∈ p.held,
    p.own.openedAt encryptor k = c.openedAt encryptor k

/-- The rotation sees the committed contents. -/
theorem RewrapInv.view {c : Database R} {p : Participant R} (h : RewrapInv encryptor c p)
    (hrunning : p.isRunning = true) (k : RowKey) :
    (p.view (engine R) c).openedAt encryptor k = c.openedAt encryptor k := by
  by_cases hk : k ∈ p.held
  · have hown : (p.view (engine R) c).SameAt p.own k := view_of_mem hk
    rw [openedAt_congr hown]
    exact h.asCommitted hrunning k hk
  · have hsame : (p.view (engine R) c).SameAt c k := view_of_not_mem hk
    exact openedAt_congr hsame

theorem RewrapInv.start (hopens : ∀ e, encryptor = some e → e.Opens) (c : Database R)
    {t : Transaction R} {keyVersion : Int} (hwork : t.work = .rotation keyVersion) :
    RewrapInv encryptor c (.start t (t.program encryptor) c) where
  meets program hprogram := by
    obtain rfl := Status.running.inj hprogram
    show Meets _ _ _ [] (t.body (Session.interleaved R t.tenant encryptor))
    unfold Transaction.body
    rw [hwork]
    exact (meets_rewrapEnvelopes hopens).map fun _ _ _ => trivial
  asRead _ k o hread := by
    obtain ⟨e, he, -⟩ := hread
    cases he
  asCommitted _ k hk := by cases hk

/-- A statement of a rotation leaves the committed contents in its view. -/
theorem openedAt_of_issues {q : Statement R} {c : Database R} {p : Participant R} {r : q.Result}
    {after : Database R} (h : RewrapInv encryptor c p) (hrunning : p.isRunning = true)
    (hissues : RewrapIssues encryptor p.agent.tenant p.trace q)
    (hrun : q.run p.agent.tenant (p.view (engine R) c) = .ok (r, after)) (k : RowKey) :
    after.openedAt encryptor k = c.openedAt encryptor k := by
  have hsame : k ∉ q.locks p.agent.tenant (p.view (engine R) c) →
      after.openedAt encryptor k = c.openedAt encryptor k := by
    intro hk
    rw [openedAt_congr (run_sameAt hrun hk)]
    exact h.view hrunning k
  cases hissues with
  | reads hkinds =>
    refine hsame (not_mem_locks ?_)
    rw [hkinds]
    exact List.not_mem_nil
  | @rewraps k₀ payload hq hread =>
    -- no row is hit, or the one that was read
    rcases run_rewraps encryptor hq hrun with ⟨hlocks, rfl⟩ | ⟨hlocks, hthere, hnew⟩
    · exact h.view hrunning k
    · by_cases hk : k = k₀
      · -- the row is still as it was read, so that the new payload opens to what it held
        subst hk
        rw [h.view hrunning] at hthere
        rw [hnew]
        exact (h.asRead hrunning k _ hread hthere).symm
      · refine hsame ?_
        rw [hlocks, List.mem_singleton]
        exact hk

theorem RewrapInv.advance {c : Database R} {p : Participant R} {q : Statement R}
    {next : Except PyError q.Result → DbProg R (Outcome R)} {r : q.Result} {after : Database R}
    (h : RewrapInv encryptor c p) (hstatus : p.status = .running (.exec q next))
    (hrun : q.run p.agent.tenant (p.view (engine R) c) = .ok (r, after)) :
    RewrapInv encryptor c (p.advance (engine R) q (p.view (engine R) c) after (next (.ok r))) := by
  obtain ⟨hissues, hnext⟩ := meets_exec.mp (h.meets _ hstatus)
  have hrunning : p.isRunning = true := Process.isRunning_iff.mpr ⟨_, hstatus⟩
  constructor
  · intro program hprogram
    obtain rfl := Status.running.inj hprogram
    exact hnext _ _ _ hrun
  · rintro - k o ⟨e, he, hlisted⟩ hthere
    rcases List.mem_append.mp he with he | he
    · exact h.asRead hrunning k o ⟨e, he, hlisted⟩ hthere
    · obtain rfl := List.mem_singleton.mp he
      rw [openedAt_of_listing hlisted]
      exact (h.view hrunning k).symm
  · intro _ k _
    exact openedAt_of_issues h hrunning hissues hrun k

/-- A commit of another transaction. -/
theorem RewrapInv.commit {cl : Cluster R} {n m : Nat} {p p' : Participant R} {outcome : Outcome R}
    (h : RewrapInv encryptor cl.committed p') (hok : unrevised encryptor cl (.finish n) = true)
    (hex : cl.Exclusive) (hnm : m ≠ n) (hp : cl.processes[n]? = some p)
    (hstatus : p.status = .running (.done (.ok outcome))) (hp' : cl.processes[m]? = some p') :
    RewrapInv encryptor (p.view (engine R) cl.committed) p' := by
  have hcommits : p.isRunning = true := Process.isRunning_iff.mpr ⟨_, hstatus⟩
  have hsame : ∀ k, k ∉ p.held → (p.view (engine R) cl.committed).openedAt encryptor k =
      cl.committed.openedAt encryptor k := by
    intro k hk
    have hview : (p.view (engine R) cl.committed).SameAt cl.committed k := view_of_not_mem hk
    exact openedAt_congr hview
  refine ⟨h.meets, ?_, ?_⟩
  · intro hrunning k o hread hthere
    by_cases hk : k ∈ p.held
    · have hheld : k ∉ p'.held := hex n m p p' hnm.symm hp hp' hcommits hrunning k hk
      exact openedAt_of_unrevised hok hp hstatus hp' hrunning hread hheld hthere
    · rw [hsame k hk] at hthere ⊢
      exact h.asRead hrunning k o hread hthere
  · intro hrunning k hk
    have hheld : k ∉ p.held := hex m n p' p hnm hp' hp hrunning hcommits k hk
    rw [hsame k hheld]
    exact h.asCommitted hrunning k hk

theorem rewrap_stable (hopens : ∀ e, encryptor = some e → e.Opens) :
    System.Stable (engine R) (Transaction.program encryptor)
      (fun cl action => unrevised encryptor cl action = true) (fun _ => True)
      (fun c p => ∀ keyVersion, p.agent.work = .rotation keyVersion → RewrapInv encryptor c p) where
  begin cl t _ _ keyVersion hwork := .start hopens _ hwork
  execute cl n p q next r after _ _ hp hstatus _ hrun hinv keyVersion hwork :=
    (hinv n p hp keyVersion hwork).advance hstatus hrun
  ended c p status _ hends _ keyVersion _ :=
    { meets := fun program hprogram => absurd hprogram (hends.ne_running program)
      asRead := fun hrunning => absurd hrunning hends.not_running
      asCommitted := fun hrunning => absurd hrunning hends.not_running }
  commit cl n p outcome hok hex _ hp hstatus hinv := by
    refine ⟨trivial, ?_, ?_⟩
    · intro keyVersion hwork
      constructor
      · intro program hprogram
        cases hprogram
      · intro hrunning
        cases hrunning
      · intro hrunning
        cases hrunning
    · intro m p' hm hp' keyVersion hwork
      exact (hinv m p' hp' keyVersion hwork).commit hok hex hm hp hstatus hp'

/-! ## What was written -/

/-- The unit of work is a rotation. -/
def Transaction.rotates (t : Transaction R) : Bool :=
  match t.work with
  | .rotation _ => true
  | _ => false

/-- What the transactions other than rotations have written, each at its commit. -/
def written (w : Database R) (cl : Cluster R) : Action (Transaction R) → Database R
  | .finish n =>
    match cl.processes[n]? with
    | none => w
    | some p => if commits p && !p.agent.rotates then w.overlay p.own p.held else w
  | _ => w

theorem written_of_not_commits {w : Database R} {cl : Cluster R} {action : Action (Transaction R)}
    (h : ∀ (n : Nat) p outcome, action = .finish n → cl.processes[n]? = some p →
      p.status ≠ .running (.done (.ok outcome))) : written w cl action = w := by
  cases action with
  | finish n =>
    cases hp : cl.processes[n]? with
    | none => simp only [written, hp]
    | some p =>
      simp only [written, hp]
      cases hcommits : commits p with
      | false => rfl
      | true =>
        obtain ⟨outcome, hstatus⟩ := commits_iff.mp hcommits
        exact absurd hstatus (h n p outcome rfl hp)
  | _ => rfl

/-- In every run, from any database and with any other transactions, in which no transaction
commits another content for a row that a rotation has read and not yet rewrapped: every row of
`memories` and `memory_versions` opens to the content and provenance that the last committed
transaction other than a rotation wrote. -/
theorem rewrap_keeps_content (hopens : ∀ e, encryptor = some e → e.Opens) {db w : Database R}
    {cl : Cluster R} (hrun : Reaches (System.Chronicled (engine R) (Transaction.program encryptor)
      (fun cl action => unrevised encryptor cl action = true) written) (.start db, db) (cl, w))
    (k : RowKey) : cl.committed.openedAt encryptor k = w.openedAt encryptor k := by
  refine ((rewrap_stable hopens).chronicled (G := fun cl w => ∀ k,
    cl.committed.openedAt encryptor k = w.openedAt encryptor k) ?_ trivial (fun _ => rfl) hrun).2 k
  intro cl action cl' w hholds hstep hsame k
  rcases System.committed_of_step hstep with ⟨n, p, outcome, rfl, hp, hstatus, hcommitted⟩ |
    ⟨hcommitted, hnone⟩
  · rw [hcommitted]
    -- a rotation commits content that it did not change
    unfold written
    simp only [hp, commits_iff.mpr ⟨_, hstatus⟩, Bool.true_and]
    cases hrotates : p.agent.rotates with
    | true =>
      obtain ⟨keyVersion, hwork⟩ : ∃ keyVersion, p.agent.work = .rotation keyVersion := by
        unfold Transaction.rotates at hrotates
        split at hrotates
        · exact ⟨_, by assumption⟩
        · cases hrotates
      have hinv := hholds.2.2 n p hp keyVersion hwork
      exact (hinv.view (Process.isRunning_iff.mpr ⟨_, hstatus⟩) k).trans (hsame k)
    -- any other commit writes the same rows in both databases
    | false =>
      show (cl.committed.overlay p.own p.held).openedAt encryptor k =
        (w.overlay p.own p.held).openedAt encryptor k
      by_cases hk : k ∈ p.held
      · rw [openedAt_congr (Database.overlay_of_mem hk),
          openedAt_congr (Database.overlay_of_mem hk)]
      · rw [openedAt_congr (Database.overlay_of_not_mem hk),
          openedAt_congr (Database.overlay_of_not_mem hk)]
        exact hsame k
  · rw [hcommitted]
    rw [written_of_not_commits hnone]
    exact hsame k

/-! ### Two schedules -/

def acmeUser : String :=
  "cloud:00000000-0000-0000-0000-000000000001:00000000-0000-0000-0000-000000000002"

/-- One memory of a tenant, under the first version of its key. -/
def sealedNote : Database ℚ :=
  afterAll (some labelling) [{
    service := constantService 64 1 7
    tenant := some ⟨1⟩
    work := .request (.write (noteCommand acmeUser "likes tea" none none)) }]

def rotationToSecond : Transaction ℚ where
  service := constantService 64 2 0
  tenant := some ⟨1⟩
  work := .rotation 2

def updateOfNote : Transaction ℚ where
  service := constantService 64 2 0
  tenant := some ⟨1⟩
  work := .request (.update
    { ownerId := acmeUser, memoryId := ⟨7⟩, expectedVersion := 1, content := some "likes coffee" })

/-- The content of the memory. -/
def noteContent (db : Database ℚ) : Option String :=
  match db.openedAt (some labelling) (.memory ⟨7⟩) with
  | some (.ok (content, _)) => some content
  | _ => none

/-- What is stored and what was written, once all transactions have ended. -/
def contentsAtEnd (x : Cluster ℚ × Database ℚ) : Option (Option String × Option String) :=
  if x.1.processes.all fun p => !p.isRunning then some (noteContent x.1.committed, noteContent x.2)
  else none

/-- The update reads the memory, waits until the rotation has committed, and goes on. -/
def rewrappedFirst : List (Action (Transaction ℚ)) :=
  [.begin rotationToSecond, .begin updateOfNote] ++ executes 1 1 ++ executes 0 4 ++ [.finish 0] ++
    executes 1 3 ++ [.finish 1]

theorem rewrap_keeps_update :
    (∃ cl w, Reaches (System.Chronicled (engine ℚ) (Transaction.program (some labelling))
        (fun cl action => unrevised (some labelling) cl action = true) written)
        (.start sealedNote, sealedNote) (cl, w) ∧ noteContent w = some "likes coffee" ∧
      ∀ k, cl.committed.openedAt (some labelling) k = w.openedAt (some labelling) k) := by
  have hrun : ((System.chronicle (engine ℚ) (Transaction.program (some labelling))
      (unrevised (some labelling)) written (.start sealedNote, sealedNote) rewrappedFirst).bind
        contentsAtEnd) = some (some "likes coffee", some "likes coffee") := by
    decide +kernel
  obtain ⟨⟨cl, w⟩, hchronicle, hcontents⟩ := Option.bind_eq_some_iff.mp hrun
  have hreaches := System.reaches_of_chronicle hchronicle
  refine ⟨cl, w, hreaches, ?_, rewrap_keeps_content (fun e he => ?_) hreaches⟩
  · unfold contentsAtEnd at hcontents
    split at hcontents
    · exact (Prod.mk.inj (Option.some.inj hcontents)).2
    · cases hcontents
  · obtain rfl := Option.some.inj he
    exact labelling_opens

/-- The update commits between the rotation's `SELECT` and its write of the row. -/
def updatedMeanwhile : List (Action (Transaction ℚ)) :=
  [.begin rotationToSecond, .begin updateOfNote] ++ executes 0 1 ++ executes 1 4 ++ [.finish 1] ++
    executes 0 4 ++ [.finish 0]

/-- Rotations, updates, confirmations, pins and deletions of one tenant. -/
def ofTenant (tenantId : UUID) (_ : Cluster R) : Action (Transaction R) → Bool
  | .begin t => decide (t.tenant = some tenantId) &&
    match t.work with
    | .rotation _ => true
    | .request (.update _) => true
    | .request (.confirmCandidate _) => true
    | .request (.pin _) => true
    | .request (.forget _) => true
    | _ => false
  | _ => true

theorem rewrap_loses_update :
    ¬ ∀ (e : TenantEnvelopeEncryptor) (db w : Database ℚ) (cl : Cluster ℚ), e.Opens →
      Reaches (System.Chronicled (engine ℚ) (Transaction.program (some e))
        (fun cl action => ofTenant ⟨1⟩ cl action = true) written) (.start db, db) (cl, w) →
      (cl.processes.all fun p => !p.isRunning) = true →
      ∀ k, cl.committed.openedAt (some e) k = w.openedAt (some e) k := by
  intro hclaim
  have hrun : ((System.chronicle (engine ℚ) (Transaction.program (some labelling))
      (ofTenant ⟨1⟩) written (.start sealedNote, sealedNote) updatedMeanwhile).bind
        contentsAtEnd) = some (some "likes tea", some "likes coffee") := by
    decide +kernel
  obtain ⟨⟨cl, w⟩, hchronicle, hcontents⟩ := Option.bind_eq_some_iff.mp hrun
  unfold contentsAtEnd at hcontents
  split at hcontents
  · rename_i hended
    have hsame := hclaim labelling _ w cl labelling_opens (System.reaches_of_chronicle hchronicle)
      hended (.memory ⟨7⟩)
    obtain ⟨hstored, hwritten⟩ := Prod.mk.inj (Option.some.inj hcontents)
    unfold noteContent at hstored hwritten
    rw [hsame, hwritten] at hstored
    exact absurd hstored (by decide)
  · cases hcontents

end OpenMemory.Postgres
