import OpenMemory.Postgres.Report

/-!
# Runs of the re-embedding job

The outer loop of `EmbeddingReembeddingJob.run` and what its report says. `Turned` is the invariant:
after some batches, the memories that are counted as completed are at least those whose row is
durable, and as many just when every batch so far was intact. `Turned.next` carries it over a
batch, and `report_truthful_iff` reads the report off it at the end of the listing. That the loop
reaches that end is `run_ne_none`.
-/

namespace OpenMemory.Postgres

open Lib
open MonadExcept (ofExcept)
open PostgresMemoryRepository

variable {R : Type} [Python R]

namespace EmbeddingReembeddingJob

variable {job : EmbeddingReembeddingJob R} {number : UUID × MemoryRow R → Nat}
  {rows : List (UUID × MemoryRow R)} {db : Database R}
  {c c' : Connection (Statement R) (Database R)} {e : UUID × MemoryRow R}

/-! ## The loop -/

/-- Where the loop is after some batches of the listing `rows`. -/
structure Turned (job : EmbeddingReembeddingJob R) (number : UUID × MemoryRow R → Nat)
    (db : Database R) (ownerId : String) (batchSize : Int) (rows : List (UUID × MemoryRow R))
    (turns : Nat) (p : Progress) (c : Connection (Statement R) (Database R)) : Prop where
  unit : c.unit = turns
  numbered : Numbered number 0 rows
  asked : c.asked = (rows.take (turns * batchSize.toNat)).length
  cursor : job.eligibleRows db ownerId p.cursor = rows.drop (turns * batchSize.toNat)
  memories : c.committed.memories = db.memories
  stamped : job.Stamped db c.log c.committed
  eligible : p.eligible = (rows.take (turns * batchSize.toNat)).length
  sum : p.completed + p.stale + p.failed = p.eligible
  logged : ∀ i, stored c.log job.profile i = true →
    ∃ e ∈ rows.take (turns * batchSize.toNat), e.1 = i
  le : (rows.take (turns * batchSize.toNat)).countP (fun e => stored c.log job.profile e.1) ≤
    p.completed
  eq_iff : (rows.take (turns * batchSize.toNat)).countP (fun e => stored c.log job.profile e.1) =
    p.completed ↔ ∀ k < turns, job.Intact number k (batchRows batchSize rows k)

section Loop

variable {batchSize : Int} {ownerId : String} {turns : Nat} {p : Progress}

omit [Python R] in
theorem stored_concat_listing (log : List (Statement R)) {profile : EmbeddingProfile}
    {cursor : Option UUID} {limit : Int} (i : UUID) :
    stored (log ++ [.selectForReembedding ownerId cursor limit]) profile i =
      stored log profile i := by
  rw [stored_append]
  exact Bool.or_false _

theorem eligibleRows_congr {now : Database R} (h : now.memories = db.memories) (ownerId : String)
    (cursor : Option UUID) :
    job.eligibleRows now ownerId cursor = job.eligibleRows db ownerId cursor := by
  simp only [eligibleRows, Database.eligible, Database.ownedRows, h]

/-- The end of a batch makes all of its rows durable, or none. -/
theorem closed_handled (hhandled : Handled job number rows c c') (hopen : c.aborted = false)
    (hwritten : ∀ i, stored c.written job.profile i = false) (i : UUID) :
    stored c'.closed.log job.profile i =
      (stored c.log job.profile i || job.lands number c.unit rows i) := by
  have haborted := hhandled.aborted
  rw [hopen, Bool.false_or] at haborted
  unfold Connection.closed lands
  cases hbroken : rows.any (job.breaks number c.unit) with
  | true =>
    rw [if_pos (haborted.trans hbroken)]
    change stored c'.log job.profile i = _
    rw [hhandled.log]
    simp
  | false =>
    have hwhole : c'.aborted = false := haborted.trans hbroken
    rw [if_neg (by simp [hwhole])]
    change stored (c'.log ++ c'.written) job.profile i = _
    rw [stored_append, hhandled.log, hhandled.written hwhole, hwritten i]
    simp

/-- A batch of the job: what its unit of work returns and leaves behind. -/
theorem turn_ok (hdim : job.profile.dimension = 384)
    (hmemories : c.committed.memories = db.memories)
    (hstamped : job.Stamped db c.log c.committed) {cursor : Option UUID}
    {candidates : List (Memory R)} {counted : List Counter}
    (hrows : rows = (job.eligibleRows db ownerId cursor).take batchSize.toNat)
    (hnumbered : Numbered number c.asked rows)
    (h : (job.server.unitOfWork (job.ports.turn ownerId batchSize false cursor)).attempt c =
      (.ok (candidates, counted), c')) :
    List.Forall₂ (fun e m => job.session.memoryFromRow e.1 e.2 = .ok m) rows candidates ∧
      counted = job.counters number c.unit false rows ∧ c'.unit = c.unit + 1 ∧
      c'.asked = c.asked + rows.length ∧
      (c'.committed.memories = db.memories ∧ job.Stamped db c'.log c'.committed) ∧
      ∀ i, stored c'.log job.profile i =
        (stored c.log job.profile i || job.lands number c.unit rows i) := by
  obtain ⟨c₁, hturn, rfl⟩ := Server.unitOfWork_ok h
  obtain ⟨memories, c₂, hlist, hrest⟩ := Linked.bind_ok.mp hturn
  obtain ⟨hopen, hread, rfl⟩ := listForReembedding_ok hlist
  rw [show c.opened.own = c.committed from rfl, eligibleRows_congr hmemories, ← hrows] at hread
  -- the listing is a statement of the unit of work, and stores nothing
  have htracks : Tracks job db { c.opened with
      written := c.opened.written ++ [.selectForReembedding ownerId cursor batchSize] } := by
    refine ⟨hmemories, fun i row hrow hstored => hstamped i row hrow ?_⟩
    exact (stored_concat_listing _ i).symm.trans hstored
  have hvisible : ∀ e ∈ rows, db.visible job.tenant e.1 = some e.2 := by
    intro e he
    rw [hrows] at he
    exact visible_of_mem_eligibleRows (List.mem_of_mem_take he)
  -- every row of the page is handled
  obtain ⟨c₃, hall, hhandled, htracks'⟩ :=
    reembedAll_handled hdim hread (by exact hnumbered) hvisible htracks
  obtain ⟨counters', c₄, hcounters, hpure⟩ := Linked.bind_ok.mp hrest
  obtain ⟨hcounted, rfl⟩ := Prod.mk.inj (hall.symm.trans hcounters)
  obtain rfl := Except.ok.inj hcounted
  obtain ⟨hresult, rfl⟩ := Prod.mk.inj hpure
  obtain ⟨rfl, rfl⟩ := Prod.mk.inj (Except.ok.inj hresult)
  have hlog := closed_handled hhandled rfl fun i => stored_concat_listing [] i
  refine ⟨hread, rfl, ?_, ?_, ?_, hlog⟩
  · exact (Connection.unit_closed _).trans (congrArg (· + 1) hhandled.unit)
  · exact (Connection.asked_closed _).trans hhandled.asked
  -- committed or rolled back, the memories and the stamps are those of before
  · refine Connection.closed_induct
      (P := fun log now => now.memories = db.memories ∧ job.Stamped db log now) ?_
      ⟨htracks'.memories, htracks'.stamped⟩
    rw [hhandled.committed, hhandled.log]
    exact ⟨hmemories, hstamped⟩

/-- The durable rows of a batch are at most those that it counts as completed, and as many just
when it is intact. -/
theorem landed_page (job : EmbeddingReembeddingJob R) (number : UUID × MemoryRow R → Nat)
    (turns : Nat)
    (hdistinct : ∀ e ∈ rows, ∀ e' ∈ rows, e.1 = e'.1 → e = e') :
    rows.countP (fun e => job.lands number turns rows e.1) ≤
        (job.counters number turns false rows).count .completed ∧
      (rows.countP (fun e => job.lands number turns rows e.1) =
        (job.counters number turns false rows).count .completed ↔ job.Intact number turns rows) := by
  cases hbroken : rows.any (job.breaks number turns) with
  -- a statement failed, so that nothing of the page lands
  | true =>
    have hnone : rows.countP (fun e => job.lands number turns rows e.1) = 0 := by
      simp [lands, hbroken]
    rw [hnone]
    refine ⟨Nat.zero_le _, ?_⟩
    rw [eq_comm, completed_eq_zero_iff hbroken]
    exact ⟨fun h _ => h, fun h => h hbroken⟩
  -- otherwise what lands is what is embedded
  | false =>
    have hall : rows.countP (fun e => job.lands number turns rows e.1) = rows.countP (job.embeds number) := by
      refine List.countP_congr fun e he => ?_
      rw [lands, hbroken, Bool.not_false, Bool.true_and, List.any_eq_true]
      constructor
      · rintro ⟨e', he', hsame⟩
        rw [Bool.and_eq_true, decide_eq_true_eq] at hsame
        rw [hdistinct e he e' he' hsame.1.symm]
        exact hsame.2
      · intro hembeds
        exact ⟨e, he, by simp [hembeds]⟩
    rw [hall, completed_of_unbroken hbroken]
    exact ⟨le_rfl, iff_of_true rfl fun h => by rw [hbroken] at h; cases h⟩

theorem exists_of_lands {i : UUID} (h : job.lands number turns rows i = true) : ∃ e ∈ rows, e.1 = i := by
  obtain ⟨e, he, hi⟩ := List.any_eq_true.mp (Bool.and_eq_true _ _ ▸ h).2
  rw [Bool.and_eq_true, decide_eq_true_eq] at hi
  exact ⟨e, he, hi.1⟩

theorem distinct_of_mem_eligibleRows {cursor : Option UUID}
    {e' : UUID × MemoryRow R} (he : e ∈ job.eligibleRows db ownerId cursor)
    (he' : e' ∈ job.eligibleRows db ownerId cursor) (h : e.1 = e'.1) : e = e' := by
  have hrow := visible_of_mem_eligibleRows he
  rw [h, visible_of_mem_eligibleRows he'] at hrow
  exact Prod.ext h (Option.some.inj hrow).symm

omit [Python R] in
theorem take_succ_turns (batchSize : Int) (rows : List (UUID × MemoryRow R)) (turns : Nat) :
    rows.take ((turns + 1) * batchSize.toNat) =
      rows.take (turns * batchSize.toNat) ++ batchRows batchSize rows turns := by
  rw [Nat.succ_mul, List.take_add]
  rfl

/-- What was durable before a batch stays so, and its own rows land. -/
theorem countP_next {page : List (UUID × MemoryRow R)} {log log' : List (Statement R)}
    (hapart : ∀ a ∈ rows, ∀ b ∈ page, a.1.int < b.1.int)
    (hlogged : ∀ i, stored log job.profile i = true → ∃ e ∈ rows, e.1 = i)
    (hlog : ∀ i, stored log' job.profile i = (stored log job.profile i || job.lands number turns page i)) :
    (rows ++ page).countP (fun e => stored log' job.profile e.1) =
      rows.countP (fun e => stored log job.profile e.1) +
        page.countP fun e => job.lands number turns page e.1 := by
  rw [List.countP_append]
  refine congrArg₂ (· + ·) ?_ ?_
  · refine List.countP_congr fun e he => ?_
    have hoff : job.lands number turns page e.1 = false := by
      by_contra hlands
      obtain ⟨e', he', hsame⟩ := exists_of_lands (by simpa using hlands)
      exact absurd (hapart e he e' he') (by rw [hsame]; exact lt_irrefl _)
    rw [hlog, hoff, Bool.or_false]
  · refine List.countP_congr fun e he => ?_
    have hoff : stored log job.profile e.1 = false := by
      by_contra hstored
      obtain ⟨e', he', hsame⟩ := hlogged e.1 (by simpa using hstored)
      exact absurd (hapart e' he' e he) (by rw [hsame]; exact lt_irrefl _)
    rw [hlog, hoff, Bool.false_or]

/-- A batch takes the loop one turn further. -/
theorem Turned.next {resumeAfter : Option UUID} {p' : Progress} {counted : List Counter}
    (hrows : rows = job.eligibleRows db ownerId resumeAfter)
    (hturned : Turned job number db ownerId batchSize rows turns p c) (hunit : c'.unit = c.unit + 1)
    (hasked : c'.asked = c.asked + (batchRows batchSize rows turns).length)
    (hmemories : c'.committed.memories = db.memories)
    (hstamped : job.Stamped db c'.log c'.committed)
    (hlog : ∀ i, stored c'.log job.profile i =
      (stored c.log job.profile i || job.lands number c.unit (batchRows batchSize rows turns) i))
    (hcounted : counted = job.counters number c.unit false (batchRows batchSize rows turns))
    (hcursor : job.eligibleRows db ownerId p'.cursor = rows.drop ((turns + 1) * batchSize.toNat))
    (heligible : p'.eligible = p.eligible + (batchRows batchSize rows turns).length)
    (hcompleted : p'.completed = p.completed + counted.count .completed)
    (hstale : p'.stale = p.stale + counted.count .stale)
    (hfailed : p'.failed = p.failed + counted.count .failed) :
    Turned job number db ownerId batchSize rows (turns + 1) p' c' := by
  have hsplit := take_succ_turns batchSize rows turns
  rw [hturned.unit] at hlog hcounted hunit
  have hincreasing : (rows.take (turns * batchSize.toNat) ++
      -- the rows come by their ids, each once
      batchRows batchSize rows turns).Pairwise fun a b => a.1.int < b.1.int := by
    rw [← hsplit, hrows]
    exact eligibleRows_increasing.sublist (List.take_sublist _ _)
  have hapart := (List.pairwise_append.mp hincreasing).2.2
  have hmem : ∀ e ∈ batchRows batchSize rows turns,
      e ∈ job.eligibleRows db ownerId resumeAfter := by
    intro e he
    rw [← hrows]
    exact List.mem_of_mem_drop (List.mem_of_mem_take he)
  -- what is stored after the page is what was before, and what lands
  have hcount := countP_next hapart hturned.logged hlog
  rw [← hsplit] at hcount
  obtain ⟨hle, heq⟩ := landed_page job number turns fun e he e' he' =>
    distinct_of_mem_eligibleRows (hmem e he) (hmem e' he')
  rw [← hcounted] at hle heq
  have hsum := counters_sum job number turns false (batchRows batchSize rows turns)
  rw [← hcounted] at hsum
  have hbefore := hturned.le
  have hsumBefore := hturned.sum
  refine ⟨hunit, hturned.numbered, ?_, hcursor, hmemories, hstamped, ?_, ?_, ?_, ?_, ?_⟩
  · rw [hasked, hturned.asked, hsplit, List.length_append]
  · rw [heligible, hturned.eligible, hsplit, List.length_append]
  -- the counters of the page add up
  · omega
  -- what is logged comes from a row of the pages so far
  · intro i hi
    rw [hlog, Bool.or_eq_true] at hi
    rw [hsplit]
    rcases hi with hi | hi
    · obtain ⟨e, he, hid⟩ := hturned.logged i hi
      exact ⟨e, List.mem_append_left _ he, hid⟩
    · obtain ⟨e, he, hid⟩ := exists_of_lands hi
      exact ⟨e, List.mem_append_right _ he, hid⟩
  · rw [hcount]
    omega
  · rw [hcount, Nat.forall_lt_succ_right, ← hturned.eq_iff, ← heq]
    omega

/-- The page that a turn lists. -/
theorem Turned.page (h : Turned job number db ownerId batchSize rows turns p c) :
    batchRows batchSize rows turns =
      (job.eligibleRows db ownerId p.cursor).take batchSize.toNat := by
  rw [h.cursor]
  rfl

/-- The requests of a turn are the next ones. -/
theorem Turned.numbered_page (h : Turned job number db ownerId batchSize rows turns p c) :
    Numbered number c.asked (batchRows batchSize rows turns) := by
  have hall := h.numbered
  rw [← List.take_append_drop (turns * batchSize.toNat) rows, numbered_append, Nat.zero_add] at hall
  rw [h.asked]
  have hrest := hall.2
  rw [← List.take_append_drop batchSize.toNat (rows.drop _), numbered_append] at hrest
  exact hrest.1

/-- The cursor of the next turn. -/
theorem Turned.cursor_next (h : Turned job number db ownerId batchSize rows turns p c)
    (hlast : (batchRows batchSize rows turns).getLast? = some e) :
    job.eligibleRows db ownerId (some e.1) = rows.drop ((turns + 1) * batchSize.toNat) := by
  rw [h.page] at hlast
  rw [eligibleRows_after hlast, h.cursor, List.drop_drop, Nat.succ_mul]

omit [Python R] in
theorem drop_of_short (h : (batchRows batchSize rows turns).length < batchSize.toNat) :
    rows.drop ((turns + 1) * batchSize.toNat) = [] := by
  unfold batchRows at h
  rw [List.length_take, List.length_drop] at h
  refine List.drop_eq_nil_of_le ?_
  rw [Nat.succ_mul]
  omega

/-- The last of the candidates is that of the page. -/
theorem last_of_forall₂ {candidates : List (Memory R)} {last : Memory R}
    (hread : List.Forall₂ (fun e m => job.session.memoryFromRow e.1 e.2 = .ok m) rows candidates)
    (hlast : candidates.getLast? = some last) :
    ∃ e, rows.getLast? = some e ∧ last.id = e.1 := by
  induction hread with
  | nil => cases hlast
  | @cons e m rest ms hfirst hrest ih =>
    cases hrest with
    | nil =>
      obtain rfl := Option.some.inj hlast
      have hfound : (Session.sequential R job.tenant job.encryptor).memoryFromRow e.1 e.2 = .ok m :=
        hfirst
      exact ⟨e, rfl, (memoryFromRow_ok hfound).1⟩
    | cons hsecond hmore =>
      rw [List.getLast?_cons_cons] at hlast ⊢
      exact ih hlast

/-- One turn of the loop. -/
theorem Turned.turn {resumeAfter : Option UUID} {candidates : List (Memory R)}
    {counted : List Counter} (hdim : job.profile.dimension = 384)
    (hrows : rows = job.eligibleRows db ownerId resumeAfter)
    (hturned : Turned job number db ownerId batchSize rows turns p c)
    (h : (job.server.unitOfWork (job.ports.turn ownerId batchSize false p.cursor)).attempt c =
      (.ok (candidates, counted), c')) :
    candidates.length = (batchRows batchSize rows turns).length ∧
      (candidates = [] → 1 ≤ batchSize → Turned job number db ownerId batchSize rows (turns + 1) p c' ∧
        rows.drop ((turns + 1) * batchSize.toNat) = []) ∧
      ∀ last, candidates.getLast? = some last →
        Turned job number db ownerId batchSize rows (turns + 1) (p.add candidates counted last) c' := by
  obtain ⟨hread, hcounted, hunit, hasked, ⟨hmemories, hstamped⟩, hlog⟩ :=
    turn_ok hdim hturned.memories hturned.stamped hturned.page hturned.numbered_page h
  have hlength := hread.length_eq
  refine ⟨hlength.symm, ?_, ?_⟩
  -- an empty page is the last one, and changes nothing
  · rintro rfl hpositive
    have hshort : (batchRows batchSize rows turns).length < batchSize.toNat := by
      rw [hlength, List.length_nil]
      omega
    have hend := drop_of_short hshort
    have hempty : batchRows batchSize rows turns = [] := List.length_eq_zero_iff.mp hlength
    have hnone : counted = [] := by
      rw [hcounted, hempty]
      rfl
    have hcursor : job.eligibleRows db ownerId p.cursor = [] := by
      rw [hturned.cursor]
      have hcut : (rows.drop (turns * batchSize.toNat)).take batchSize.toNat = [] := hempty
      rcases List.take_eq_nil_iff.mp hcut with hzero | hnil
      · omega
      · exact hnil
    refine ⟨hturned.next hrows hunit hasked hmemories hstamped hlog hcounted ?_ ?_ ?_ ?_ ?_, hend⟩
    · rw [hcursor, hend]
    · rw [hempty]
      rfl
    · rw [hnone]
      rfl
    · rw [hnone]
      rfl
    · rw [hnone]
      rfl
  -- the next page starts behind the last memory
  · intro last hlast
    obtain ⟨e, he, hid⟩ := last_of_forall₂ hread hlast
    refine hturned.next hrows hunit hasked hmemories hstamped hlog hcounted ?_ ?_ rfl rfl rfl
    · change job.eligibleRows db ownerId (some last.id) = _
      rw [hid]
      exact hturned.cursor_next he
    · exact congrArg (p.eligible + ·) hlength.symm

/-- The loop ends after a turn that reaches the end of the listing. -/
theorem Turned.loop {resumeAfter : Option UUID} {fuel : Nat} {p' : Progress}
    (hdim : job.profile.dimension = 384) (hpositive : 1 ≤ batchSize)
    (hrows : rows = job.eligibleRows db ownerId resumeAfter)
    (hturned : Turned job number db ownerId batchSize rows turns p c)
    (h : (job.ports.loop ownerId batchSize false fuel p).attempt c = (.ok (some p'), c')) :
    ∃ turns', Turned job number db ownerId batchSize rows turns' p' c' ∧
      rows.drop (turns' * batchSize.toNat) = [] := by
  induction fuel generalizing turns p c with
  -- without fuel the loop gives no progress
  | zero => cases congrArg Prod.fst h
  | succ fuel ih =>
    obtain ⟨⟨candidates, counted⟩, c₁, hturn, hrest⟩ := Linked.bind_ok.mp h
    obtain ⟨hlength, hempty, hnext⟩ := hturned.turn hdim hrows hturn
    dsimp only at hrest
    cases hlast : candidates.getLast? with
    | none =>
      rw [hlast] at hrest
      obtain ⟨hp, rfl⟩ := Prod.mk.inj hrest
      obtain rfl := Option.some.inj (Except.ok.inj hp)
      exact ⟨turns + 1, hempty (List.getLast?_eq_none_iff.mp hlast) hpositive⟩
    -- a short page is the last one, a full one is followed by the next
    | some last =>
      rw [hlast] at hrest
      dsimp only at hrest
      split at hrest
      next hshort =>
        obtain ⟨hp, rfl⟩ := Prod.mk.inj hrest
        obtain rfl := Option.some.inj (Except.ok.inj hp)
        refine ⟨turns + 1, hnext last hlast, drop_of_short ?_⟩
        omega
      next hfull => exact ih (hnext last hlast) hrest

/-- The loop ends: each turn but the last goes a whole batch further. -/
theorem Turned.loop_ne_none {resumeAfter : Option UUID} {fuel : Nat}
    (hdim : job.profile.dimension = 384) (hpositive : 1 ≤ batchSize)
    (hrows : rows = job.eligibleRows db ownerId resumeAfter)
    (hturned : Turned job number db ownerId batchSize rows turns p c)
    (hfuel : (rows.drop (turns * batchSize.toNat)).length < fuel) :
    (job.ports.loop ownerId batchSize false fuel p).attempt c ≠ (.ok none, c') := by
  induction fuel generalizing turns p c with
  | zero => cases hfuel
  | succ fuel ih =>
    intro h
    obtain ⟨⟨candidates, counted⟩, c₁, hturn, hrest⟩ := Linked.bind_ok.mp h
    obtain ⟨hlength, -, hnext⟩ := hturned.turn hdim hrows hturn
    dsimp only at hrest
    cases hlast : candidates.getLast? with
    | none =>
      rw [hlast] at hrest
      cases congrArg Prod.fst hrest
    | some last =>
      rw [hlast] at hrest
      dsimp only at hrest
      split at hrest
      next => cases congrArg Prod.fst hrest
      next hfull =>
        refine ih (hnext last hlast) ?_ hrest
        -- a full page takes at least one row from what is left
        have hne : candidates ≠ [] := fun hnil => by rw [hnil] at hlast; cases hlast
        have hsome := List.length_pos_of_ne_nil hne
        unfold batchRows at hlength
        rw [List.length_take, List.length_drop] at hlength
        rw [List.length_drop] at hfuel ⊢
        rw [Nat.succ_mul]
        omega

end Loop

/-! ## The report -/

section Report

variable {batchSize : Int} {ownerId : String}

omit [Python R] in
theorem raiseIf_linked {b : Bool} {x : PyError} {u : Unit}
    (h : (raiseIf b x : DbLinked R Unit).attempt c = (.ok u, c')) : b = false ∧ c' = c := by
  cases b with
  | true => cases congrArg Prod.fst h
  | false => exact ⟨rfl, (Prod.mk.inj h).2.symm⟩

/-- `semantic_coverage` reads two counts. -/
theorem semanticCoverage_linked {counts : Nat × Nat}
    (h : (semanticCoverage job.session ownerId job.profile).attempt c = (.ok counts, c')) :
    c' = { c with
      written := c.written ++ [.countEligible ownerId] ++
        [.countCovered ownerId job.profile] } := by
  obtain ⟨_, c₁, howner, h₁⟩ := Linked.bind_ok.mp h
  rw [Linked.attempt_ofExcept] at howner
  obtain ⟨-, rfl⟩ := Prod.mk.inj howner
  obtain ⟨eligible, c₂, heligible, h₂⟩ := Linked.bind_ok.mp h₁
  obtain ⟨-, own, hrun, rfl⟩ := Server.execute_ok heligible
  obtain ⟨-, rfl⟩ := Prod.mk.inj (Except.ok.inj hrun)
  obtain ⟨covered, c₃, hcovered, h₃⟩ := Linked.bind_ok.mp h₂
  obtain ⟨-, own, hrun', rfl⟩ := Server.execute_ok hcovered
  obtain ⟨-, rfl⟩ := Prod.mk.inj (Except.ok.inj hrun')
  exact (Prod.mk.inj h₃).2.symm

/-- `cutover_embedding_profile` leaves the semantic rows alone. -/
theorem cutover_linked {count : Nat}
    (h : (cutoverEmbeddingProfile job.session ownerId job.profile).attempt c = (.ok count, c')) :
    c'.committed = c.committed ∧ c'.log = c.log ∧ c'.own.semantic = c.own.semantic ∧
      ∀ i, stored c'.written job.profile i = stored c.written job.profile i := by
  obtain ⟨_, c₁, howner, h₁⟩ := Linked.bind_ok.mp h
  rw [Linked.attempt_ofExcept] at howner
  obtain ⟨-, rfl⟩ := Prod.mk.inj howner
  obtain ⟨⟨eligible, covered⟩, c₂, hcounts, h₂⟩ := Linked.bind_ok.mp h₁
  obtain rfl := semanticCoverage_linked hcounts
  dsimp only at h₂
  obtain ⟨_, c₃, hraise, h₃⟩ := Linked.bind_ok.mp h₂
  obtain ⟨-, rfl⟩ := raiseIf_linked hraise
  obtain ⟨-, own, hrun, rfl⟩ := Server.execute_ok h₃
  obtain ⟨-, rfl⟩ := Prod.mk.inj (Except.ok.inj hrun)
  refine ⟨rfl, rfl, rfl, fun i => ?_⟩
  simp [stored]

/-- What the last two units of work keep. -/
theorem unitOfWork_keeps {α : Type} {x : DbLinked R α} {a : α}
    (hx : ∀ c c' a, x.attempt c = (.ok a, c') → c'.committed = c.committed ∧ c'.log = c.log ∧
      c'.own.semantic = c.own.semantic ∧
      ∀ i, stored c'.written job.profile i = stored c.written job.profile i)
    (h : (job.server.unitOfWork x).attempt c = (.ok a, c')) :
    (∀ i, stored c'.log job.profile i = stored c.log job.profile i) ∧
      c'.committed.semantic = c.committed.semantic := by
  obtain ⟨c₁, hbody, rfl⟩ := Server.unitOfWork_ok h
  obtain ⟨hcommitted, hlog, hsemantic, hwritten⟩ := hx _ _ _ hbody
  refine Connection.closed_induct (P := fun log (now : Database R) =>
    (∀ i, stored log job.profile i = stored c.log job.profile i) ∧
      now.semantic = c.committed.semantic) ?_ ?_
  · rw [hcommitted, hlog]
    exact ⟨fun _ => rfl, rfl⟩
  · refine ⟨fun i => ?_, hsemantic⟩
    rw [stored_append, hlog, hwritten]
    exact Bool.or_false _

theorem activate_keeps {cutover : Bool} {activated : Nat}
    (h : (job.ports.activate ownerId cutover).attempt c = (.ok activated, c')) :
    (∀ i, stored c'.log job.profile i = stored c.log job.profile i) ∧
      c'.committed.semantic = c.committed.semantic := by
  cases cutover with
  | false =>
    obtain ⟨-, rfl⟩ := Prod.mk.inj h
    exact ⟨fun _ => rfl, rfl⟩
  | true => exact unitOfWork_keeps (fun _ _ _ => cutover_linked) h

theorem coverage_keeps {counts : Nat × Nat}
    (h : (job.server.unitOfWork (semanticCoverage job.session ownerId job.profile)).attempt c =
      (.ok counts, c')) :
    (∀ i, stored c'.log job.profile i = stored c.log job.profile i) ∧
      c'.committed.semantic = c.committed.semantic := by
  refine unitOfWork_keeps (fun c c' counts h' => ?_) h
  obtain rfl := semanticCoverage_linked h'
  refine ⟨rfl, rfl, rfl, fun i => ?_⟩
  simp [stored]

omit [Python R] in
/-- The rows of a listing are asked for one after the other. -/
theorem numbered_requestNumber (hrows : rows.Pairwise fun a b => a.1.int < b.1.int) :
    Numbered (requestNumber rows) 0 rows := by
  refine List.ext_getElem (by rw [List.length_map, List.length_range']) fun i hi hi' => ?_
  rw [List.getElem_map, List.getElem_range', Nat.zero_add, Nat.one_mul]
  rw [List.length_map] at hi
  unfold requestNumber
  rw [List.findIdx_eq hi]
  refine ⟨decide_eq_true rfl, fun j hj => decide_eq_false fun hsame => ?_⟩
  have hless := List.pairwise_iff_getElem.mp hrows j i (hj.trans hi) hi hj
  rw [hsame] at hless
  exact lt_irrefl _ hless

theorem turned_start (resumeAfter : Option UUID) :
    Turned job (requestNumber (job.eligibleRows db ownerId resumeAfter)) db ownerId batchSize
      (job.eligibleRows db ownerId resumeAfter) 0 { cursor := resumeAfter } (.start db) where
  unit := rfl
  numbered := numbered_requestNumber eligibleRows_increasing
  asked := by simp [Connection.start]
  cursor := by simp
  memories := rfl
  stamped _ _ _ h := by cases h
  eligible := by simp
  sum := rfl
  logged _ h := by cases h
  le := by simp
  eq_iff := by simp

/-- A run makes its checks and then the loop. -/
theorem run_checked {resumeAfter : Option UUID} {cutover : Bool} {fuel : Nat}
    {result : Option ReembeddingReport}
    (h : (job.ports.run ownerId batchSize resumeAfter false cutover fuel).attempt (.start db) =
      (.ok result, c)) :
    1 ≤ batchSize ∧ job.profile.dimension = 384 ∧ ∃ looped c₁,
      (job.ports.loop ownerId batchSize false fuel { cursor := resumeAfter }).attempt (.start db) =
        (.ok looped, c₁) ∧
      (looped = none → result = none) ∧
      ∀ p, looped = some p → ∃ report, result = some report ∧
        (report.eligible = p.eligible ∧ report.completed = p.completed ∧ report.stale = p.stale ∧
          report.failed = p.failed) ∧
        (∀ i, stored c.log job.profile i = stored c₁.log job.profile i) ∧
        c.committed.semantic = c₁.committed.semantic := by
  obtain ⟨_, c₁, howner, h₁⟩ := Linked.bind_ok.mp h
  rw [Linked.attempt_ofExcept] at howner
  obtain ⟨-, rfl⟩ := Prod.mk.inj howner
  obtain ⟨_, c₂, hraise, h₂⟩ := Linked.bind_ok.mp h₁
  obtain ⟨hsize, rfl⟩ := raiseIf_linked hraise
  obtain ⟨_, c₃, hraise', h₃⟩ := Linked.bind_ok.mp h₂
  obtain ⟨hdim, rfl⟩ := raiseIf_linked hraise'
  obtain ⟨looped, c₄, hloop, h₄⟩ := Linked.bind_ok.mp h₃
  -- the checks pass, and the loop runs
  simp only [Bool.not_eq_false', decide_eq_true_eq] at hsize
  refine ⟨hsize.1, not_not.mp (of_decide_eq_false hdim), looped, c₄, hloop, ?_, ?_⟩
  · rintro rfl
    exact (Except.ok.inj (Prod.mk.inj h₄).1).symm
  -- activating and counting write no vector
  · rintro p rfl
    dsimp only at h₄
    obtain ⟨activated, c₅, hactivate, h₅⟩ := Linked.bind_ok.mp h₄
    obtain ⟨counts, c₆, hcoverage, h₆⟩ := Linked.bind_ok.mp h₅
    obtain ⟨hreport, rfl⟩ := Prod.mk.inj h₆
    obtain ⟨hlog, hsemantic⟩ := activate_keeps hactivate
    obtain ⟨hlog', hsemantic'⟩ := coverage_keeps hcoverage
    exact ⟨_, (Except.ok.inj hreport).symm, ⟨rfl, rfl, rfl, rfl⟩,
      fun i => (hlog' i).trans (hlog i), hsemantic'.trans hsemantic⟩

/-- Beyond the listing there is nothing to break. -/
theorem intact_beyond {turns : Nat} (hend : rows.drop (turns * batchSize.toNat) = []) {k : Nat}
    (hk : turns ≤ k) : job.Intact number k (batchRows batchSize rows k) := by
  have hbeyond : rows.drop (k * batchSize.toNat) = [] := by
    refine List.drop_eq_nil_of_le ?_
    have hle := List.drop_eq_nil_iff.mp hend
    exact hle.trans (Nat.mul_le_mul_right _ hk)
  intro hany
  rw [batchRows, hbeyond, List.take_nil] at hany
  cases hany

/-- The report of a run is truthful just when every batch in which a statement fails fails already
at its first memory that is embedded; and the rows that it counts as durable are in the table. -/
theorem report_truthful_iff {resumeAfter : Option UUID} {cutover : Bool} {fuel : Nat}
    {report : ReembeddingReport}
    (h : (job.ports.run ownerId batchSize resumeAfter false cutover fuel).attempt (.start db) =
      (.ok (some report), c)) :
    job.Stamped db c.log c.committed ∧
      (Truthful job.profile (job.eligibleRows db ownerId resumeAfter) c.log report ↔
        ∀ k, job.Intact (requestNumber (job.eligibleRows db ownerId resumeAfter)) k
          (batchRows batchSize (job.eligibleRows db ownerId resumeAfter) k)) := by
  obtain ⟨hpositive, hdim, looped, c₁, hloop, hnone, hsome⟩ := run_checked h
  obtain ⟨p, rfl⟩ : ∃ p, looped = some p := by
    cases looped with
    | none => cases hnone rfl
    | some p => exact ⟨p, rfl⟩
  obtain ⟨report', hreport, ⟨heligible, hcompleted, hstale, hfailed⟩, hlog, hsemantic⟩ :=
    hsome p rfl
  obtain rfl := Option.some.inj hreport
  obtain ⟨turns, hturned, hend⟩ := (turned_start resumeAfter).loop hdim hpositive rfl hloop
  generalize hrows : job.eligibleRows db ownerId resumeAfter = rows at hturned hend ⊢
  -- at the end every eligible row has been handled
  have hall : rows.take (turns * batchSize.toNat) = rows :=
    List.take_of_length_le (List.drop_eq_nil_iff.mp hend)
  constructor
  · intro i row hrow hstored
    rw [hsemantic]
    exact hturned.stamped i row hrow ((hlog i).symm.trans hstored)
  -- the counters are those of the loop, and the log has not grown since
  · have hiff := hturned.eq_iff
    have hcount := hturned.eligible
    have hsum := hturned.sum
    rw [hall] at hiff hcount
    have hsame : rows.countP (fun e => stored c₁.log job.profile e.1) =
        rows.countP fun e => stored c.log job.profile e.1 :=
      List.countP_congr fun e _ => by rw [hlog]
    have hsplit := List.length_eq_countP_add_countP (l := rows)
      fun e => stored c.log job.profile e.1
    simp only [Bool.not_eq_true, Bool.decide_eq_false] at hsplit
    rw [hsame] at hiff
    constructor
    · intro htruthful k
      by_cases hk : k < turns
      -- pages beyond the last are empty
      · exact hiff.mp (htruthful.completed.symm.trans hcompleted) k hk
      · exact intact_beyond hend (not_lt.mp hk)
    · intro hintact
      have hcompleted' := hiff.mpr fun k _ => hintact k
      refine ⟨heligible.trans hcount, hcompleted.trans hcompleted'.symm, ?_⟩
      omega

/-- With a turn for each eligible memory and one more, the run does not stop halfway. -/
theorem run_ne_none {resumeAfter : Option UUID} {cutover : Bool} {fuel : Nat}
    (hfuel : (job.eligibleRows db ownerId resumeAfter).length < fuel) :
    (job.ports.run ownerId batchSize resumeAfter false cutover fuel).attempt (.start db) ≠
      (.ok none, c) := by
  intro h
  obtain ⟨hpositive, hdim, looped, c₁, hloop, -, hsome⟩ := run_checked h
  cases looped with
  | none =>
    exact (turned_start resumeAfter).loop_ne_none hdim hpositive rfl (by simpa using hfuel) hloop
  | some p =>
    obtain ⟨report, hreport, -⟩ := hsome p rfl
    cases hreport

end Report

/-! ### Two memories in one batch -/

/-- Two notes under the profile of 64 dimensions. -/
def twoNotes : Database ℚ :=
  afterAll none [
    { service := constantService 64 1 7
      work := .request (.write (noteCommand "alice" "likes tea" none none)) },
    { service := constantService 64 1 8
      work := .request (.write (noteCommand "alice" "likes cake" none none)) }]

/-- The job on a database where nothing fails. -/
def steadyJob : EmbeddingReembeddingJob ℚ where
  profile := (constantService 384 2 0).embeddingProvider.profile
  embed _ content := (constantService 384 2 0).embeddingProvider.embed content false

/-- The job on a database that fails to store the second note. -/
def shakyJob : EmbeddingReembeddingJob ℚ where
  profile := (constantService 384 2 0).embeddingProvider.profile
  embed _ content := (constantService 384 2 0).embeddingProvider.embed content false
  fails trip :=
    match trip with
    | .statement _ (.upsertSemantic i _ _ _) =>
      if i = ⟨8⟩ then some (.foreign "DBAPIError" none) else none
    | _ => none

/-- The counters of a run on the two notes, and how many of them have a durable row. -/
def tally (job : EmbeddingReembeddingJob ℚ) : Option (Nat × Nat × Nat × Nat) :=
  match (job.ports.run "alice" 10 none false false 3).attempt (.start twoNotes) with
  | (.ok (some report), c) => some (report.completed, report.stale, report.failed,
      (job.eligibleRows twoNotes "alice" none).countP fun e => stored c.log job.profile e.1)
  | _ => none

theorem exists_of_tally {job : EmbeddingReembeddingJob ℚ} {completed stale failed durable : Nat}
    (h : tally job = some (completed, stale, failed, durable)) :
    ∃ report c, (job.ports.run "alice" 10 none false false 3).attempt (.start twoNotes) =
        (.ok (some report), c) ∧ report.completed = completed ∧
      (job.eligibleRows twoNotes "alice" none).countP (fun e => stored c.log job.profile e.1) =
        durable := by
  unfold tally at h
  rcases hrun : (job.ports.run "alice" 10 none false false 3).attempt (.start twoNotes) with
    ⟨x | found, c⟩
  · rw [hrun] at h
    cases h
  · cases found with
    | none =>
      rw [hrun] at h
      cases h
    | some report =>
      rw [hrun] at h
      simp only [Option.some.injEq, Prod.mk.injEq] at h
      exact ⟨report, c, rfl, h.1, h.2.2.2⟩

theorem steady_report_truthful :
    (∃ report c, (steadyJob.ports.run "alice" 10 none false false 3).attempt (.start twoNotes) =
        (.ok (some report), c) ∧ report.completed = 2 ∧
      steadyJob.Stamped twoNotes c.log c.committed ∧
      Truthful steadyJob.profile (steadyJob.eligibleRows twoNotes "alice" none) c.log report) := by
  have htally : tally steadyJob = some (2, 0, 0, 2) := by decide +kernel
  obtain ⟨report, c, hrun, hcompleted, -⟩ := exists_of_tally htally
  obtain ⟨hstamped, hiff⟩ := report_truthful_iff hrun
  refine ⟨report, c, hrun, hcompleted, hstamped, hiff.mpr fun k hbroken => ?_⟩
  obtain ⟨e, -, hbreaks⟩ := List.any_eq_true.mp hbroken
  unfold breaks at hbreaks
  cases hvector : steadyJob.vectorFor (requestNumber (steadyJob.eligibleRows twoNotes "alice" none))
    e with
  | none => rw [hvector] at hbreaks; cases hbreaks
  | some found => rw [hvector] at hbreaks; cases hbreaks

/-- The first note is counted as completed, and rolled back with the batch. -/
theorem rolled_back_counted_completed :
    ¬ ∀ (job : EmbeddingReembeddingJob ℚ) (db : Database ℚ) (ownerId : String) (batchSize : Int)
      (resumeAfter : Option UUID) (cutover : Bool) (fuel : Nat) (report : ReembeddingReport)
      (c : Connection (Statement ℚ) (Database ℚ)),
      (job.ports.run ownerId batchSize resumeAfter false cutover fuel).attempt (.start db) =
        (.ok (some report), c) →
      Truthful job.profile (job.eligibleRows db ownerId resumeAfter) c.log report := by
  intro hclaim
  have htally : tally shakyJob = some (1, 0, 1, 0) := by decide +kernel
  obtain ⟨report, c, hrun, hcompleted, hdurable⟩ := exists_of_tally htally
  have htruthful := (hclaim _ _ _ _ _ _ _ _ _ hrun).completed
  omega

end EmbeddingReembeddingJob

end OpenMemory.Postgres
