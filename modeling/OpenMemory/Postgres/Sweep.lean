import OpenMemory.Lib.Handler
import OpenMemory.Lib.Keyset
import OpenMemory.Postgres.ReportRuns

/-!
# What a run of the re-embedding job goes through

`EmbeddingReembeddingJob.run` over whatever provider and repository it is given (`Ports`); the run
against PostgreSQL is that over `job.ports`. The listing of the repository is a page of the eligible memories in the order of their ids (`listed`), and
`listForReembedding_listed` says so of the one in `adapters/postgres/repository.py`.

A `World` holds a set of eligible memories that nobody else writes to, and answers every embedding
and every upsert as it likes: with a vector of any length, a refusal or an exception, depending on
all that happened before. It notes what is asked of it. `run_covers`: the job goes through the
memories above its cursor, once each and in order, and its report counts them.
-/

namespace OpenMemory.Postgres

open Lib
open MonadExcept (ofExcept)
open PostgresMemoryRepository

variable {R : Type} [Python R]

namespace EmbeddingReembeddingJob

/-! ## The listing -/

/-- `list_for_reembedding` on the eligible memories. -/
def listed (memories : List (Memory R)) (afterMemoryId : Option UUID) (limit : Int) :
    List (Memory R) :=
  (listing (fun memory => memory.id.int) memories (afterMemoryId.map UUID.int)).take limit.toNat

/-- The repository lists the memories of the eligible rows so. -/
theorem listForReembedding_listed {job : EmbeddingReembeddingJob R}
    {c c' : Connection (Statement R) (Database R)} {ownerId : String} {cursor : Option UUID}
    {limit : Int} {eligible memories : List (Memory R)}
    (heligible : List.Forall₂ (fun e m => job.session.memoryFromRow e.1 e.2 = .ok m)
      (c.own.eligible job.tenant ownerId) eligible)
    (h : (job.ports.listForReembedding ownerId cursor limit).attempt c = (.ok memories, c')) :
    memories = listed eligible cursor limit := by
  obtain ⟨-, hread, -⟩ := listForReembedding_ok h
  rw [eligibleRows_eq] at hread
  have hlisted : List.Forall₂ (fun e m => job.session.memoryFromRow e.1 e.2 = .ok m)
      ((listing (fun e => e.1.int) (c.own.eligible job.tenant ownerId)
        (cursor.map UUID.int)).take limit.toNat) (listed eligible cursor limit) := by
    refine List.forall₂_take _ (listing_forall₂ (fun e m hem => ?_) heligible _)
    have hfound : (Session.sequential R job.tenant job.encryptor).memoryFromRow e.1 e.2 = .ok m :=
      hem
    rw [(memoryFromRow_ok hfound).1]
  exact List.right_unique_forall₂' (fun e m m' hm hm' => Except.ok.inj (hm.symm.trans hm'))
    hread hlisted

/-! ## A world to run in -/

/-- The embeddings and the upserts that a run asks for. -/
inductive Call
  | embed (content : String)
  | upsert (memoryId : UUID) (expectedVersion : Int)
  deriving DecidableEq

/-- The state of a world and the calls so far. -/
structure World (ω : Type) where
  state : ω
  calls : List Call := []

/-- How the provider and the repository of a world answer. -/
structure Answers (ω R : Type) where
  embed : String → ω → Except PyError (List R) × ω
  upsert : UUID → Int → EmbeddingProfile → List R → ω → Except PyError Bool × ω
  cutover : String → EmbeddingProfile → ω → Except PyError Nat × ω
  coverage : String → EmbeddingProfile → ω → Nat × Nat

variable {ω : Type}

/-- An answer of the world. -/
def ask {α : Type} (calls : List Call) (answer : ω → Except PyError α × ω) :
    Handler (World ω) PyError α :=
  fun world =>
    let (outcome, state) := answer world.state
    (outcome, { state := state, calls := world.calls ++ calls })

/-- The ports of a world with these eligible memories. Nothing that an upsert writes is listed, so
a unit of work has nothing to roll back that the job could see. -/
def Answers.ports (answers : Answers ω R) (profile : EmbeddingProfile)
    (memories : List (Memory R)) : Ports (Handler (World ω) PyError) R where
  profile := profile
  embed content := ask [.embed content] (answers.embed content)
  unitOfWork x := x
  listForReembedding _ cursor limit := pure (listed memories cursor limit)
  upsertEmbeddingProfile memoryId expectedVersion profile embedding :=
    ask [.upsert memoryId expectedVersion]
      (answers.upsert memoryId expectedVersion profile embedding)
  cutoverEmbeddingProfile ownerId profile := ask [] (answers.cutover ownerId profile)
  semanticCoverage ownerId profile := fun world =>
    (.ok (answers.coverage ownerId profile world.state), world)

/-- The calls attempt each of the memories once, in their order: its content is embedded, and then
its vector may be upserted. -/
inductive Attempted : List (Memory R) → List Call → Prop
  | nil : Attempted [] []
  | embedded {m : Memory R} {rest : List (Memory R)} {calls : List Call}
      (h : Attempted rest calls) : Attempted (m :: rest) (.embed m.content :: calls)
  | upserted {m : Memory R} {rest : List (Memory R)} {calls : List Call}
      (h : Attempted rest calls) :
      Attempted (m :: rest) (.embed m.content :: .upsert m.id m.version :: calls)

theorem Attempted.append {ms ms' : List (Memory R)} {calls calls' : List Call}
    (h : Attempted ms calls) (h' : Attempted ms' calls') :
    Attempted (ms ++ ms') (calls ++ calls') := by
  induction h with
  | nil => exact h'
  | embedded _ ih => exact .embedded ih
  | upserted _ ih => exact .upserted ih

section Run

variable (answers : Answers ω R) (profile : EmbeddingProfile) {memories : List (Memory R)}

omit [Python R] in
theorem exec_ask {α : Type} (calls : List Call) (answer : ω → Except PyError α × ω)
    (world : World ω) :
    Handler.exec (ask calls answer) world =
      ((answer world.state).1,
        { state := (answer world.state).2, calls := world.calls ++ calls }) := rfl

/-- One memory is attempted, and whatever comes of it is counted. -/
theorem exec_reembed (memories : List (Memory R)) (memory : Memory R) (world : World ω) :
    ∃ counter world' calls,
      Handler.exec ((answers.ports profile memories).reembed memory) world
        = (.ok counter, world') ∧
      world'.calls = world.calls ++ calls ∧ Attempted [memory] calls := by
  unfold Ports.reembed
  rw [Handler.exec_tryCatch, Handler.exec_bind]
  simp only [Answers.ports, exec_ask]
  rcases hembed : answers.embed memory.content world.state with ⟨x | vector, state⟩
  · exact ⟨.failed, _, [.embed memory.content], rfl, rfl, .embedded .nil⟩
  · by_cases hlength : (vector.length : Int) = profile.dimension
    · simp only [hlength, ne_eq, not_true_eq_false, decide_false, raiseIf, Bool.false_eq_true,
        if_false, pure_bind]
      rw [Handler.exec_bind, exec_ask]
      rcases hupsert : answers.upsert memory.id memory.version profile vector state
        with ⟨x | done, state'⟩
      · exact ⟨.failed, _, [.embed memory.content, .upsert memory.id memory.version], rfl,
          List.append_assoc _ _ _, .upserted .nil⟩
      · exact ⟨_, _, [.embed memory.content, .upsert memory.id memory.version], rfl,
          List.append_assoc _ _ _, .upserted .nil⟩
    · simp only [hlength, ne_eq, not_false_eq_true, decide_true, raiseIf, if_true]
      exact ⟨.failed, _, [.embed memory.content], rfl, rfl, .embedded .nil⟩

/-- So is every memory of a batch. -/
theorem exec_reembedAll (memories batch : List (Memory R)) (world : World ω) :
    ∃ counters world' calls,
      Handler.exec ((answers.ports profile memories).reembedAll batch) world
        = (.ok counters, world') ∧
      counters.length = batch.length ∧
      world'.calls = world.calls ++ calls ∧ Attempted batch calls := by
  induction batch generalizing world with
  | nil => exact ⟨[], world, [], rfl, rfl, (List.append_nil _).symm, .nil⟩
  | cons memory rest ih =>
    obtain ⟨counter, world₁, calls, hfirst, hcalls, hattempted⟩ :=
      exec_reembed answers profile memories memory world
    obtain ⟨counters, world₂, calls', hrest, hlength, hcalls', hattempted'⟩ := ih world₁
    refine ⟨counter :: counters, world₂, calls ++ calls', ?_, by simp [hlength], ?_,
      hattempted.append hattempted'⟩
    · unfold Ports.reembedAll
      rw [Handler.exec_bind_of_ok hfirst, Handler.exec_bind_of_ok hrest]
      rfl
    · rw [hcalls', hcalls, List.append_assoc]

theorem exec_turn (memories : List (Memory R)) (ownerId : String) (batchSize : Int)
    (cursor : Option UUID) (world : World ω) :
    ∃ counters world' calls,
      Handler.exec ((answers.ports profile memories).turn ownerId batchSize false cursor) world
        = (.ok (listed memories cursor batchSize, counters), world') ∧
      counters.length = (listed memories cursor batchSize).length ∧
      world'.calls = world.calls ++ calls ∧
      Attempted (listed memories cursor batchSize) calls := by
  obtain ⟨counters, world', calls, hexec, hlength, hcalls, hattempted⟩ :=
    exec_reembedAll answers profile memories (listed memories cursor batchSize) world
  refine ⟨counters, world', calls, ?_, hlength, hcalls, hattempted⟩
  unfold Ports.turn
  show Handler.exec ((answers.ports profile memories).reembedAll
    (listed memories cursor batchSize) >>= fun counters => pure (_, counters)) world = _
  rw [Handler.exec_bind_of_ok hexec]
  rfl

theorem exec_loop_succ {ownerId : String} {batchSize : Int} {p : Progress} {world world' : World ω}
    {candidates : List (Memory R)} {counters : List Counter}
    (hturn : Handler.exec ((answers.ports profile memories).turn ownerId batchSize false p.cursor)
      world = (.ok (candidates, counters), world')) (fuel : Nat) :
    Handler.exec ((answers.ports profile memories).loop ownerId batchSize false (fuel + 1) p) world
      = match candidates.getLast? with
        | none => (.ok (some p), world')
        | some last =>
          if (candidates.length : Int) < batchSize then
            (.ok (some (p.add candidates counters last)), world')
          else
            Handler.exec ((answers.ports profile memories).loop ownerId batchSize false fuel
              (p.add candidates counters last)) world' := by
  have hunit : Handler.exec ((answers.ports profile memories).unitOfWork
      ((answers.ports profile memories).turn ownerId batchSize false p.cursor)) world
        = (.ok (candidates, counters), world') := hturn
  rw [Ports.loop, Handler.exec_bind_of_ok hunit]
  dsimp only
  cases candidates.getLast? with
  | none => rfl
  | some last =>
    dsimp only
    split
    · rfl
    · rfl

/-- What is still to come after a cursor. -/
def remaining (memories : List (Memory R)) (cursor : Option UUID) : List (Memory R) :=
  listing (fun memory => memory.id.int) memories (cursor.map UUID.int)

theorem count_counters (counters : List Counter) :
    counters.count .completed + counters.count .stale + counters.count .failed
      = counters.length := by
  induction counters with
  | nil => rfl
  | cons counter rest ih => cases counter <;> simp <;> omega

section Loop

variable (hdistinct : (memories.map fun memory => memory.id.int).Nodup)

include hdistinct

/-- A page is the beginning of what is still to come, and its last memory the next cursor. -/
theorem remaining_page {cursor : Option UUID} {batchSize : Int} {last : Memory R}
    (hlast : (listed memories cursor batchSize).getLast? = some last) :
    remaining memories cursor
      = listed memories cursor batchSize ++ remaining memories (some last.id) := by
  have hrest : remaining memories (some last.id)
      = (remaining memories cursor).drop batchSize.toNat := listing_after hdistinct hlast
  rw [hrest]
  exact (List.take_append_drop _ _).symm

/-- The loop goes through what is still to come, in the order of the ids, and then ends. -/
theorem exec_loop (ownerId : String) {batchSize : Int} (hsize : 1 ≤ batchSize) (p : Progress)
    (world : World ω) :
    ∃ p' world' calls,
      (∀ fuel, (remaining memories p.cursor).length < fuel →
        Handler.exec ((answers.ports profile memories).loop ownerId batchSize false fuel p) world
          = (.ok (some p'), world')) ∧
      world'.calls = world.calls ++ calls ∧ Attempted (remaining memories p.cursor) calls ∧
      p'.eligible = p.eligible + (remaining memories p.cursor).length ∧
      p'.completed + p'.stale + p'.failed
        = p.completed + p.stale + p.failed + (remaining memories p.cursor).length ∧
      p'.cursor = ((remaining memories p.cursor).getLast?.map fun memory => memory.id).or
        p.cursor := by
  -- on how much is still to come, for every turn but the last takes a whole page off it
  induction hn : (remaining memories p.cursor).length using Nat.strong_induction_on
    generalizing p world with
  | _ n ih =>
    obtain ⟨counters, world₁, calls, hturn, hcount, hcalls, hattempted⟩ :=
      exec_turn answers profile memories ownerId batchSize p.cursor world
    have hlength : (listed memories p.cursor batchSize).length
        = min batchSize.toNat (remaining memories p.cursor).length := List.length_take
    cases hlast : (listed memories p.cursor batchSize).getLast? with
    | none =>
      -- an empty page: nothing is left
      have hempty : listed memories p.cursor batchSize = [] := List.getLast?_eq_none_iff.mp hlast
      have hnone : remaining memories p.cursor = [] := by
        rw [hempty, List.length_nil] at hlength
        exact List.length_eq_zero_iff.mp (by omega)
      rw [hempty] at hattempted
      rw [hnone, List.length_nil] at hn
      subst hn
      rw [hnone]
      refine ⟨p, world₁, calls, fun fuel hfuel => ?_, hcalls, hattempted, rfl, rfl, rfl⟩
      obtain ⟨fuel, rfl⟩ := Nat.exists_eq_add_one_of_ne_zero hfuel.ne'
      rw [exec_loop_succ answers profile hturn, hlast]
    | some last =>
      have hsplit := remaining_page hdistinct hlast
      have hrest : (remaining memories p.cursor).length
          = (listed memories p.cursor batchSize).length
            + (remaining memories (some last.id)).length := by
        conv_lhs => rw [hsplit, List.length_append]
      have hsome : (listed memories p.cursor batchSize).length ≠ 0 := by
        intro hzero
        rw [List.length_eq_zero_iff.mp hzero] at hlast
        cases hlast
      have hsum := count_counters counters
      by_cases hshort : ((listed memories p.cursor batchSize).length : Int) < batchSize
      · -- a short page is the last one
        have hnone : remaining memories (some last.id) = [] :=
          List.length_eq_zero_iff.mp (by omega)
        rw [hnone, List.append_nil] at hsplit
        refine ⟨p.add (listed memories p.cursor batchSize) counters last, world₁, calls,
          fun fuel hfuel => ?_, hcalls, hsplit ▸ hattempted, ?_, ?_, ?_⟩
        · obtain ⟨fuel, rfl⟩ := Nat.exists_eq_add_one_of_ne_zero (Nat.ne_zero_of_lt hfuel)
          rw [exec_loop_succ answers profile hturn, hlast]
          exact if_pos hshort
        · simp only [Progress.add]
          omega
        · simp only [Progress.add]
          omega
        · rw [hsplit, hlast]
          rfl
      · obtain ⟨p', world₂, calls', hloop, hcalls', hattempted', heligible, htotal, hcursor⟩ :=
          ih (remaining memories (some last.id)).length (by omega)
            (p.add (listed memories p.cursor batchSize) counters last) world₁ rfl
        refine ⟨p', world₂, calls ++ calls', fun fuel hfuel => ?_, ?_, ?_, ?_, ?_, ?_⟩
        · obtain ⟨fuel, rfl⟩ := Nat.exists_eq_add_one_of_ne_zero (Nat.ne_zero_of_lt hfuel)
          rw [exec_loop_succ answers profile hturn, hlast]
          exact (if_neg hshort).trans (hloop fuel (by omega))
        · rw [hcalls', hcalls, List.append_assoc]
        · rw [hsplit]
          exact hattempted.append hattempted'
        · simp only [Progress.add] at heligible
          omega
        · simp only [Progress.add] at htotal
          omega
        · rw [hcursor, hsplit, List.getLast?_append]
          simp only [Progress.add, hlast]
          cases (remaining memories (some last.id)).getLast? <;> rfl

/-- A run started from the last memory that another has reported repeats nothing of that. -/
theorem remaining_chained {memories' : List (Memory R)}
    (hdistinct' : (memories'.map fun memory => memory.id.int).Nodup) (cursor : Option UUID) :
    (remaining memories cursor ++ remaining memories'
        (((remaining memories cursor).getLast?.map fun memory => memory.id).or cursor)).Pairwise
      fun a b => a.id.int < b.id.int := by
  cases hlast : (remaining memories cursor).getLast? with
  | none =>
    rw [List.getLast?_eq_none_iff.mp hlast]
    exact listing_increasing hdistinct' _
  | some last => exact listing_chained hdistinct hdistinct' hlast

end Loop

/-- What a run does after its loop: it may make the cutover, and then reports. -/
theorem exec_run {ownerId owner : String} {batchSize : Int} {resumeAfter : Option UUID}
    (cutover : Bool) {world world' : World ω} {p : Progress} {fuel : Nat}
    (hdim : profile.dimension = 384) (howner : validateOwnerId ownerId = .ok owner)
    (hsize : 1 ≤ batchSize ∧ batchSize ≤ 1000)
    (hloop : Handler.exec ((answers.ports profile memories).loop ownerId batchSize false fuel
      { cursor := resumeAfter }) world = (.ok (some p), world')) :
    Handler.exec ((answers.ports profile memories).run ownerId batchSize resumeAfter false cutover
        fuel) world =
      match Handler.exec ((answers.ports profile memories).activate ownerId cutover) world' with
      | (.error x, world'') => (.error x, world'')
      | (.ok activated, world'') =>
        (.ok (some
          { ownerId := ownerId, profileId := profile.id, profileVersion := profile.version
            dryRun := false, cutover := cutover, eligible := p.eligible, completed := p.completed
            stale := p.stale, failed := p.failed, lastMemoryId := p.cursor
            activated := activated }), world'') := by
  unfold Ports.run
  rw [howner]
  have hchecked : Handler.exec (ofExcept (.ok owner) : Handler (World ω) PyError String) world
      = (.ok owner, world) := rfl
  rw [Handler.exec_bind_of_ok hchecked]
  have hprofile : (answers.ports profile memories).profile = profile := rfl
  simp only [hsize, and_self, decide_true, Bool.not_true, raiseIf, Bool.false_eq_true, if_false,
    pure_bind, hprofile, hdim, ne_eq, not_true_eq_false, decide_false]
  rw [Handler.exec_bind_of_ok hloop]
  dsimp only
  rw [Handler.exec_bind, Bool.not_false, Bool.and_true]
  rcases Handler.exec ((answers.ports profile memories).activate ownerId cutover) world'
    with ⟨x | activated, world''⟩
  · rfl
  · rfl

/-- The cutover asks for no embedding, and only it can raise. -/
theorem exec_activate (memories : List (Memory R)) (ownerId : String) (cutover : Bool)
    (world : World ω) :
    (Handler.exec ((answers.ports profile memories).activate ownerId cutover) world).2.calls
        = world.calls ∧
      (cutover = false →
        (Handler.exec ((answers.ports profile memories).activate ownerId cutover) world).1
          = .ok 0) := by
  cases cutover with
  | false => exact ⟨rfl, fun _ => rfl⟩
  | true => exact ⟨List.append_nil _, fun h => nomatch h⟩

/-- A run over a world goes through the memories above its cursor, each once and in the order of
their ids, whatever becomes of each; it ends, and its report counts them and names the last. Only
the cutover, where one is asked for, can still raise. -/
theorem run_covers {ownerId owner : String} {batchSize : Int} (resumeAfter : Option UUID)
    (cutover : Bool) (world : World ω) (hdim : profile.dimension = 384)
    (howner : validateOwnerId ownerId = .ok owner)
    (hsize : 1 ≤ batchSize ∧ batchSize ≤ 1000)
    (hdistinct : (memories.map fun memory => memory.id).Nodup) :
    ((remaining memories resumeAfter).Pairwise fun a b => a.id.int < b.id.int) ∧
      (∀ memory, memory ∈ remaining memories resumeAfter ↔
        memory ∈ memories ∧ ∀ cursor, resumeAfter = some cursor → cursor.int < memory.id.int) ∧
      ∃ outcome world' calls, ∀ fuel, (remaining memories resumeAfter).length < fuel →
        Handler.exec ((answers.ports profile memories).run ownerId batchSize resumeAfter false
            cutover fuel) world = (outcome, world') ∧
          world'.calls = world.calls ++ calls ∧
          Attempted (remaining memories resumeAfter) calls ∧
          (outcome.isOk = false → cutover = true) ∧ outcome ≠ .ok none ∧
          ∀ report, outcome = .ok (some report) →
            report.eligible = (remaining memories resumeAfter).length ∧
            report.completed + report.stale + report.failed = report.eligible ∧
            report.lastMemoryId = ((remaining memories resumeAfter).getLast?.map
              fun memory => memory.id).or resumeAfter ∧
            ∀ memories' : List (Memory R), (memories'.map fun memory => memory.id).Nodup →
              (remaining memories resumeAfter ++
                  remaining memories' report.lastMemoryId).Pairwise
                fun a b => a.id.int < b.id.int := by
  have hints {memories' : List (Memory R)} (h : (memories'.map fun memory => memory.id).Nodup) :
      (memories'.map fun memory => memory.id.int).Nodup := by
    have hmap := h.map uuid_int_injective
    rwa [List.map_map] at hmap
  refine ⟨listing_increasing (hints hdistinct) _, fun memory => ?_, ?_⟩
  · unfold remaining
    rw [mem_listing]
    cases resumeAfter <;> simp
  obtain ⟨p, world₁, calls, hloop, hcalls, hattempted, heligible, htotal, hcursor⟩ :=
    exec_loop answers profile (hints hdistinct) ownerId hsize.1 { cursor := resumeAfter } world
  simp only [Nat.zero_add] at heligible htotal
  have hactivate := exec_activate answers profile memories ownerId cutover world₁
  have hrun := fun fuel hfuel => exec_run answers profile cutover hdim howner hsize
    (hloop fuel hfuel)
  rcases hcase : Handler.exec ((answers.ports profile memories).activate ownerId cutover) world₁
    with ⟨x | activated, world₂⟩
  · rw [hcase] at hactivate
    simp only [hcase] at hrun
    refine ⟨.error x, world₂, calls, fun fuel hfuel => ⟨hrun fuel hfuel, ?_, hattempted, ?_, ?_,
      fun report h => nomatch h⟩⟩
    · rw [hactivate.1, hcalls]
    · intro _
      by_contra hfalse
      have := hactivate.2 (by simpa using hfalse)
      cases this
    · intro h
      cases h
  · rw [hcase] at hactivate
    simp only [hcase] at hrun
    refine ⟨_, _, calls, fun fuel hfuel => ⟨hrun fuel hfuel, ?_, hattempted, ?_, ?_, ?_⟩⟩
    · rw [hactivate.1, hcalls]
    · intro h
      cases h
    · intro h
      cases h
    · intro report h
      cases h
      refine ⟨heligible, ?_, hcursor, fun memories' hdistinct' => ?_⟩
      · rw [heligible]
        exact htotal
      · show (_ ++ remaining memories' p.cursor).Pairwise _
        rw [hcursor]
        exact remaining_chained (hints hdistinct) (hints hdistinct') resumeAfter

end Run

/-! ### Two notes -/

/-- One of two eligible notes. -/
def eligibleNote (id : Fin (2 ^ 128)) (h : id = 7 ∨ id = 8) : Memory ℚ where
  id := ⟨id⟩
  ownerId := "alice"
  content := if id = 7 then "likes tea" else "likes cake"
  memoryType := .fact
  importance := 1 / 2
  confidence := 1 / 2
  state := .active
  version := 1
  createdAt := day2026 1
  updatedAt := day2026 1
  occurredAt := none
  space := none
  provenance := typedByUser
  checked := by rcases h with rfl | rfl <;> decide +kernel

def eligibleNotes : List (Memory ℚ) :=
  [eligibleNote 8 (.inr rfl), eligibleNote 7 (.inl rfl)]

/-- The provider has no vector for the cake. -/
def noCake : Answers Unit ℚ where
  embed content state :=
    (if content = "likes cake" then .error .timeoutError else .ok (List.replicate 384 1), state)
  upsert _ _ _ _ state := (.ok true, state)
  cutover _ _ state := (.ok 0, state)
  coverage _ _ _ := (2, 1)

def semanticProfile : EmbeddingProfile :=
  { id := "semantic", version := "test-v1", dimension := 384 }

/-- Both notes are attempted, one after the other, and the second is the last. -/
theorem run_covers_noCake :
    ∃ report world', Handler.exec ((noCake.ports semanticProfile eligibleNotes).run "alice" 1 none
        false false 3) { state := () } = (.ok (some report), world') ∧
      report.eligible = 2 ∧ report.lastMemoryId = some ⟨8⟩ ∧
      Attempted (remaining eligibleNotes none) world'.calls := by
  have howner : validateOwnerId "alice" = .ok "alice" := by decide +kernel
  have hcount : (remaining eligibleNotes none).length = 2 := by decide +kernel
  have hlast : ((remaining eligibleNotes none).getLast?.map fun memory => memory.id)
      = some ⟨8⟩ := by
    decide +kernel
  obtain ⟨-, -, outcome, world', calls, hrun⟩ := run_covers noCake semanticProfile none false
    { state := () } rfl howner (show (1 : Int) ≤ 1 ∧ (1 : Int) ≤ 1000 by decide)
    (show (eligibleNotes.map fun memory => memory.id).Nodup by decide)
  obtain ⟨hexec, hcalls, hattempted, hok, hsome, hreport⟩ := hrun 3 (by omega)
  match outcome with
  | .error x => cases hok rfl
  | .ok none => exact absurd rfl hsome
  | .ok (some report) =>
    obtain ⟨heligible, -, hlastId, -⟩ := hreport report rfl
    refine ⟨report, world', hexec, heligible.trans hcount, ?_, ?_⟩
    · rw [hlastId, hlast]
      rfl
    · rw [hcalls]
      exact hattempted

end EmbeddingReembeddingJob

end OpenMemory.Postgres
