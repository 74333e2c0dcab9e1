import OpenMemory.Store.Effects

/-!
# The life of a memory

Over runs without imports, every snapshot of a history can be traced to the call that
stored it (`Chronicle`): the first to the write or capture that created the memory, every
later one to a confirmation, pin or update of the version before it.

- `lifecycle_sound` reads the lifecycle off the chronicle: consecutive states follow the
  transition table, candidates come first, superseded is final, and the identity of a
  memory is the one it was created with.
- The gate in front of captured memories is not closed: `update` may name any state that
  the table allows, so it can confirm a candidate (`update_confirms_candidate`).
  `candidates_gated` proves the gate for runs in which no update does.
-/

namespace OpenMemory

open Lib MemoryApplicationService InMemoryStore

variable {R : Type} [Python R]

/-! ## One memory in one call -/

namespace Call

/-- What a call does to the memory under one id. -/
inductive EffectAt (call : Call R) (i : UUID) (s s' : InMemoryStore R) : Prop
  | same (memory : s'.memories.get? i = s.memories.get? i)
      (history : s'.historyByMemory.get? i = s.historyByMemory.get? i)
  | appeared {m : Memory R} {fingerprint : String} {vector : List R}
      (creation : call.Creation m fingerprint vector) (fresh : s.Fresh i) (id : m.id = i)
      (memory : s'.memories.get? i = some m)
      (history : s'.historyByMemory.get? i = some [m.snapshot "created"])
  | revised {m m' : Memory R} {past : List (MemoryVersion R)} {reason : String}
      (revision : call.Revision m m') (live : s.memories.get? i = some m)
      (before : s.historyByMemory.get? i = some past)
      (memory : s'.memories.get? i = some m')
      (history : s'.historyByMemory.get? i = some (past ++ [m'.snapshot reason]))
      (addressed : s.lookup call.request.ownerId i call.request.addressTenant = some m)
  | vanished {m : Memory R} (live : s.memories.get? i = some m)
      (memory : s'.memories.get? i = none) (history : s'.historyByMemory.get? i = none)
      (marked : ∃ o t, (o, t, i) ∈ s'.tombstones)

variable {call : Call R} {s s' : InMemoryStore R}

theorem Effect.effectAt (h : call.Effect s s') (i : UUID) : call.EffectAt i s s' := by
  cases h with
  | kept same => exact .same (by rw [same.memories]) (by rw [same.histories])
  -- a new memory appears under its own id
  | @created m fingerprint vector creation _ fresh _ same =>
    by_cases hi : i = m.id
    · subst hi
      refine .appeared creation fresh rfl ?_ ?_
      · rw [same.memories]
        exact Dict.get?_set_self _ _ _
      · rw [same.histories]
        exact Dict.get?_set_self _ _ _
    · refine .same ?_ ?_
      · rw [same.memories]
        exact Dict.get?_set_of_ne _ _ hi
      · rw [same.histories]
        exact Dict.get?_set_of_ne _ _ hi
  -- a next version replaces the one before
  | @versioned m m' history reason vector revision live past _ _ same =>
    obtain ⟨args, hevolve⟩ := revision.evolve
    have hid : m'.id = m.id := (Memory.evolve_ok hevolve).identity.id
    by_cases hi : i = m.id
    · subst hi
      have hmemory : s'.memories.get? m.id = some m' := by
        rw [same.memories, ← hid]
        exact Dict.get?_set_self _ _ _
      have hhistory : s'.historyByMemory.get? m.id = some (history ++ [m'.snapshot reason]) := by
        rw [same.histories, ← hid]
        exact Dict.get?_set_self _ _ _
      exact .revised revision (lookup_eq_some.mp live).1 past hmemory hhistory live
    · rw [← hid] at hi
      refine .same ?_ ?_
      · rw [same.memories]
        exact Dict.get?_set_of_ne _ _ hi
      · rw [same.histories]
        exact Dict.get?_set_of_ne _ _ hi
  -- a removed memory vanishes, and leaves a tombstone
  | @removed m j live same =>
    by_cases hi : i = j
    · subst hi
      refine .vanished (lookup_eq_some.mp live).1 ?_ ?_ ⟨call.request.ownerId, m.tenantId, ?_⟩
      · rw [same.memories]
        exact Dict.get?_pop_self _ _
      · rw [same.histories]
        exact Dict.get?_pop_self _ _
      · rw [same.tombstones]
        exact Finset.mem_insert_self _ _
    · refine .same ?_ ?_
      · rw [same.memories]
        exact Dict.get?_pop_of_ne _ hi
      · rw [same.histories]
        exact Dict.get?_pop_of_ne _ hi

/-- Tombstones are never taken back. -/
theorem Effect.tombstones (h : call.Effect s s') : s.tombstones ⊆ s'.tombstones := by
  cases h with
  | kept same => rw [same.tombstones]
  | created _ _ _ _ same =>
    rw [same.tombstones]
    exact Finset.Subset.refl _
  | versioned _ _ _ _ _ same =>
    rw [same.tombstones]
    exact Finset.Subset.refl _
  | removed _ same =>
    rw [same.tombstones]
    exact Finset.subset_insert _ _

/-- An id that was used once is never drawn again. -/
theorem Effect.not_fresh (h : call.Effect s s') {i : UUID} (hused : ¬s.Fresh i) :
    ¬s'.Fresh i := by
  rintro ⟨habsent, hunmarked⟩
  have hmarks := h.tombstones
  cases h.effectAt i with
  | same memory _ =>
    refine hused ⟨memory ▸ habsent, fun o t hmem => hunmarked o t (hmarks hmem)⟩
  | appeared _ fresh _ _ _ => exact hused fresh
  | revised _ _ _ memory _ _ =>
    rw [habsent] at memory
    cases memory
  | vanished _ _ _ marked =>
    obtain ⟨o, t, hmem⟩ := marked
    exact hunmarked o t hmem

end Call

namespace InMemoryStore

open Call

variable {may : InMemoryStore R → Call R → Prop} {calls : List (Call R)} {call : Call R}
  {s s₀ : InMemoryStore R}

/-! ## Calls of a run -/

/-- The calls determine the store. -/
theorem Played.unique {s' : InMemoryStore R} (h : Played may calls s) (h' : Played may calls s') :
    s = s' := by
  induction h generalizing s' with
  | start =>
    generalize hnil : ([] : List (Call R)) = l at h'
    cases h' with
    | start => rfl
    | next => simp at hnil
  | @next calls s call _ _ _ ih =>
    generalize hl : calls ++ [call] = l at h'
    cases h' with
    | start => simp at hl
    | next before' =>
      obtain ⟨rfl, hcall⟩ := List.append_inj' hl rfl
      obtain rfl := List.cons.inj hcall |>.1
      rw [ih before']

/-- The call was made on `s₀`, after the calls before it in the run. -/
def Made (may : InMemoryStore R → Call R → Prop) (calls : List (Call R)) (call : Call R)
    (s₀ : InMemoryStore R) : Prop :=
  ∃ before after, calls = before ++ call :: after ∧ Played may before s₀ ∧
    call.DrawsFresh s₀ ∧ may s₀ call

/-- A call made in a run is made in every longer one. -/
theorem Made.later (h : Made may calls call s₀) (call' : Call R) :
    Made may (calls ++ [call']) call s₀ := by
  obtain ⟨before, after, rfl, hbefore, hcall⟩ := h
  exact ⟨before, after ++ [call'], by simp, hbefore, hcall⟩

/-- The calls of a longer run: the last one and those made before. -/
theorem made_snoc {call' : Call R} (hplayed : Played may calls s)
    (h : Made may (calls ++ [call']) call s₀) :
    Made may calls call s₀ ∨ (call = call' ∧ s₀ = s) := by
  obtain ⟨before, after, hsplit, hbefore, hcall⟩ := h
  rcases List.eq_nil_or_concat after with rfl | ⟨rest, last, rfl⟩
  · obtain ⟨rfl, hlast⟩ := List.append_inj' hsplit rfl
    obtain rfl := (List.cons.inj hlast).1
    exact .inr ⟨rfl, hbefore.unique hplayed⟩
  · have hsplit : calls ++ [call'] = (before ++ call :: rest) ++ [last] := by
      rw [hsplit]
      simp
    obtain ⟨rfl, -⟩ := List.append_inj' hsplit rfl
    exact .inl ⟨before, rest, rfl, hbefore, hcall⟩

/-- A call made without imports has an effect of the service. -/
theorem Made.effect (h : Made NoImport calls call s₀) :
    call.Effect s₀ (call.attempt s₀).2 := by
  obtain ⟨before, after, -, hbefore, hfresh, hno⟩ := h
  exact Call.effect (inv_of_noImport hbefore.run).keyed hfresh hno

/-! ## Creation -/

variable {m₀ : Memory R}

/-- The call made the memory appear. -/
def Created (call : Call R) (s₀ : InMemoryStore R) (m₀ : Memory R) : Prop :=
  s₀.memories.get? m₀.id = none ∧ (call.attempt s₀).2.memories.get? m₀.id = some m₀

/-- A memory appears because a write or capture asked for it, with one snapshot. -/
theorem Created.creation (h : Created call s₀ m₀) (hmade : Made NoImport calls call s₀) :
    ∃ fingerprint vector, call.Creation m₀ fingerprint vector ∧
      (call.attempt s₀).2.historyByMemory.get? m₀.id = some [m₀.snapshot "created"] := by
  obtain ⟨habsent, hlive⟩ := h
  cases hmade.effect.effectAt m₀.id with
  | same memory _ =>
    rw [memory, habsent] at hlive
    cases hlive
  | appeared creation _ _ memory history =>
    rw [hlive] at memory
    cases memory
    exact ⟨_, _, creation, history⟩
  | revised _ live _ _ _ _ =>
    rw [habsent] at live
    cases live
  | vanished live _ _ _ =>
    rw [habsent] at live
    cases live

/-- A written memory starts active, a captured one as a candidate. -/
theorem creation_state {fingerprint : String} {vector : List R}
    (h : call.Creation m₀ fingerprint vector) :
    ((∃ c, call.request = .write c) ∧ m₀.state = .active) ∨
      ((∃ c, call.request = .capture c) ∧ m₀.state = .candidate) := by
  cases h with
  | @written c _ _ asked _ _ created _ =>
    obtain ⟨-, -, -, -, -, hstate⟩ := Memory.create_ok created
    exact .inl ⟨⟨c, asked⟩, hstate⟩
  | @captured c _ _ asked _ _ created _ =>
    obtain ⟨-, -, -, -, -, hstate⟩ := Memory.create_ok created
    exact .inr ⟨⟨c, asked⟩, hstate⟩

/-- What is under the id of a created memory later: nothing, or a record of its identity
whose history still starts with its first snapshot. -/
theorem created_later (hplayed : Played NoImport calls s) (hmade : Made NoImport calls call s₀)
    (hcreated : Created call s₀ m₀) :
    ¬s.Fresh m₀.id ∧ ∀ m history, s.memories.get? m₀.id = some m →
      s.historyByMemory.get? m₀.id = some history →
      m₀.SameIdentity m ∧ history.head? = some (m₀.snapshot "created") := by
  induction hplayed with
  | start =>
    obtain ⟨before, after, hsplit, -⟩ := hmade
    simp at hsplit
  | @next calls s call' hbefore hfresh hno ih =>
    have heffect : call'.Effect s (call'.attempt s).2 :=
      Call.effect (inv_of_noImport hbefore.run).keyed hfresh hno
    rcases made_snoc hbefore hmade with hearlier | ⟨rfl, rfl⟩
    -- it was there before the call, which keeps, revises or removes it
    · obtain ⟨hused, hlife⟩ := ih hearlier
      refine ⟨heffect.not_fresh hused, fun m history hm hh => ?_⟩
      cases heffect.effectAt m₀.id with
      | same memory history' =>
        rw [memory] at hm
        rw [history'] at hh
        exact hlife m history hm hh
      | appeared _ fresh _ _ _ => exact absurd fresh hused
      | @revised m₁ m₂ past reason revision live before memory history' _ =>
        rw [memory] at hm
        rw [history'] at hh
        cases hm
        cases hh
        obtain ⟨hsame, hhead⟩ := hlife m₁ past live before
        obtain ⟨args, hevolve⟩ := revision.evolve
        refine ⟨hsame.trans (Memory.evolve_ok hevolve).identity, ?_⟩
        rw [List.head?_append, hhead]
        rfl
      | vanished _ memory _ _ =>
        rw [memory] at hm
        cases hm
    -- the call created it
    · obtain ⟨-, -, -, hhist⟩ := hcreated.creation hmade
      refine ⟨fun hfresh' => ?_, fun m history hm hh => ?_⟩
      · have habsent := hfresh'.1
        rw [hcreated.2] at habsent
        cases habsent
      · rw [hcreated.2] at hm
        rw [hhist] at hh
        cases hm
        cases hh
        exact ⟨.refl _, rfl⟩

/-- Every live memory was created by a call of the run. -/
theorem exists_created (hplayed : Played NoImport calls s) {i : UUID} {m : Memory R}
    (hm : s.memories.get? i = some m) :
    ∃ call s₀ m₀, Made NoImport calls call s₀ ∧ Created call s₀ m₀ ∧ m₀.id = i := by
  induction hplayed generalizing m with
  | start => cases hm
  | @next calls s call' hbefore hfresh hno ih =>
    have hlater : ∀ {m₁ : Memory R}, s.memories.get? i = some m₁ →
        ∃ call s₀ m₀, Made NoImport (calls ++ [call']) call s₀ ∧ Created call s₀ m₀ ∧
          m₀.id = i := by
      intro m₁ hlive
      obtain ⟨call, s₀, m₀, hmade, hrest⟩ := ih hlive
      exact ⟨call, s₀, m₀, hmade.later call', hrest⟩
    have heffect := Call.effect (inv_of_noImport hbefore.run).keyed hfresh hno
    cases heffect.effectAt i with
    | same memory _ =>
      rw [memory] at hm
      exact hlater hm
    | appeared _ fresh id memory _ =>
      subst id
      exact ⟨call', s, _, ⟨calls, [], rfl, hbefore, hfresh, hno⟩, ⟨fresh.1, memory⟩, rfl⟩
    | revised _ live _ _ _ _ => exact hlater live
    | vanished live _ _ _ => exact hlater live

/-! ## Later snapshots -/

/-- The call took the history under `i` from `past` to `past` and one more snapshot: that of
the next version of the memory it addressed. -/
inductive Revises (call : Call R) (s₀ : InMemoryStore R) (i : UUID)
    (past : List (MemoryVersion R)) : MemoryVersion R → Prop
  | intro {m m' : Memory R} {reason : String} (revision : call.Revision m m')
      (addressed : s₀.lookup call.request.ownerId i call.request.addressTenant = some m)
      (before : s₀.historyByMemory.get? i = some past)
      (after : (call.attempt s₀).2.historyByMemory.get? i
        = some (past ++ [m'.snapshot reason])) : Revises call s₀ i past (m'.snapshot reason)

/-- Every snapshot but the first was stored by a revision of the version before it. -/
theorem exists_revises (hplayed : Played NoImport calls s) {i : UUID} {m : Memory R}
    {history past rest : List (MemoryVersion R)} {v : MemoryVersion R}
    (hm : s.memories.get? i = some m) (hh : s.historyByMemory.get? i = some history)
    (hsplit : history = past ++ v :: rest) (hpast : past ≠ []) :
    ∃ call s₀, Made NoImport calls call s₀ ∧ Revises call s₀ i past v := by
  induction hplayed generalizing m history rest with
  | start => cases hm
  | @next calls s call' hbefore hfresh hno ih =>
    have hlater : ∀ {m₁ : Memory R} {h₁ rest₁ : List (MemoryVersion R)},
        s.memories.get? i = some m₁ → s.historyByMemory.get? i = some h₁ →
        h₁ = past ++ v :: rest₁ → ∃ call s₀, Made NoImport (calls ++ [call']) call s₀ ∧
          Revises call s₀ i past v := by
      intro m₁ h₁ rest₁ hm₁ hh₁ hsplit₁
      obtain ⟨call, s₀, hmade, hrev⟩ := ih hm₁ hh₁ hsplit₁
      exact ⟨call, s₀, hmade.later call', hrev⟩
    have heffect := Call.effect (inv_of_noImport hbefore.run).keyed hfresh hno
    cases heffect.effectAt i with
    | same memory history' =>
      rw [memory] at hm
      rw [history'] at hh
      exact hlater hm hh hsplit
    | appeared _ _ _ _ history' =>
      -- a single snapshot is the first one
      rw [history'] at hh
      cases hh
      obtain ⟨w, past', rfl⟩ := List.exists_cons_of_ne_nil hpast
      simp at hsplit
    | @revised m₁ m₂ past₁ reason revision live before memory history' addressed =>
      rw [history'] at hh
      cases hh
      rcases List.eq_nil_or_concat rest with rfl | ⟨rest₁, last, rfl⟩
      · obtain ⟨rfl, hlast⟩ := List.append_inj' hsplit rfl
        obtain rfl := (List.cons.inj hlast).1
        exact ⟨call', s, ⟨calls, [], rfl, hbefore, hfresh, hno⟩,
          .intro revision addressed before history'⟩
      · have hsplit : past₁ ++ [m₂.snapshot reason] = (past ++ v :: rest₁) ++ [last] := by
          rw [hsplit]
          simp
        obtain ⟨rfl, -⟩ := List.append_inj' hsplit rfl
        exact hlater live before rfl
    | vanished _ memory _ _ =>
      rw [memory] at hm
      cases hm

/-- The version that a revision starts from is the last one of the past. -/
theorem Revises.last {i : UUID} {past : List (MemoryVersion R)} {v w : MemoryVersion R}
    (hmade : Made NoImport calls call s₀) (h : Revises call s₀ i (past ++ [w]) v) :
    ∃ m m' reason, call.Revision m m' ∧ v = m'.snapshot reason ∧ w.state = m.state ∧
      s₀.lookup call.request.ownerId i call.request.addressTenant = some m := by
  obtain ⟨before, after, -, hbefore, -⟩ := hmade
  cases h with
  | @intro m m' reason revision addressed before' _ =>
    have hlive := (lookup_eq_some.mp addressed).1
    obtain ⟨past', reason', hpast⟩ := faithful_of_noImport hbefore.run i m _ hlive before'
    obtain ⟨-, hw⟩ := List.append_inj' hpast rfl
    obtain rfl := (List.cons.inj hw).1
    exact ⟨m, m', reason, revision, rfl, rfl, addressed⟩

/-! ## The transition table along a history -/

/-- The second snapshot follows the first: in the same state, or in one that
`_assert_transition` lets a memory in the state of the first move to. -/
def Follows (v w : MemoryVersion R) : Prop :=
  w.state = v.state ∨ ∃ (m : Memory R) (related : Option UUID), m.state = v.state ∧
    m.assertTransition w.state related = .ok ()

/-- A transition that passes keeps the state or is allowed from it. -/
theorem assertTransition_ok {m : Memory R} {target : MemoryState} {related : Option UUID}
    {u : Unit} (h : m.assertTransition target related = .ok u) :
    target = m.state ∨ target ∈ Memory.allowed m.state := by
  unfold Memory.assertTransition at h
  by_cases hsame : target = m.state
  · exact .inl hsame
  · rw [if_neg hsame] at h
    simp only [except_bind_ok, raiseIf_except_ok] at h
    obtain ⟨_, hallowed, -⟩ := h
    exact .inr (by simpa using hallowed)

/-- Only an allowed transition makes a next version. -/
theorem evolve_transition {m m' : Memory R} {args : Memory.EvolveArgs R}
    (h : m.evolve args = .ok m') :
    m.assertTransition m'.state args.relatedMemoryId = .ok () := by
  have hstate := (Memory.evolve_ok h).state
  simp only [Memory.evolve, except_bind_ok] at h
  obtain ⟨_, htransition, -⟩ := h
  rw [hstate]
  exact htransition

/-- So consecutive snapshots keep the state or move as the table allows. -/
theorem Follows.allowed {v w : MemoryVersion R} (h : Follows v w) :
    w.state = v.state ∨ w.state ∈ Memory.allowed v.state := by
  rcases h with hsame | ⟨m, related, hm, htransition⟩
  · exact .inl hsame
  · rw [← hm]
    exact assertTransition_ok htransition

/-- Nothing moves into `candidate`. -/
theorem Follows.of_candidate {v w : MemoryVersion R} (h : Follows v w)
    (hw : w.state = .candidate) : v.state = .candidate := by
  rcases h.allowed with hsame | hallowed
  · rw [← hsame, hw]
  · rw [hw] at hallowed
    cases hv : v.state <;> rw [hv] at hallowed <;> revert hallowed <;> decide

/-- Nothing moves out of `superseded`. -/
theorem Follows.of_superseded {v w : MemoryVersion R} (h : Follows v w)
    (hv : v.state = .superseded) : w.state = .superseded := by
  rcases h.allowed with hsame | hallowed
  · rw [hsame, hv]
  · rw [hv] at hallowed
    cases hallowed

/-- A relation between neighbours that composes holds between any two elements. -/
theorem pairwise_of_follows {history : List (MemoryVersion R)}
    {P : MemoryVersion R → MemoryVersion R → Prop} (hP : ∀ u v w, P u v → P v w → P u w)
    (hstep : ∀ v w, Follows v w → P v w) (h : history.IsChain Follows) : history.Pairwise P := by
  have : IsTrans (MemoryVersion R) P := ⟨hP⟩
  exact (h.imp hstep).pairwise

/-! ## Lifecycle -/

/-- The life of the memory `m` with the history, in a run of `calls`. -/
structure Lifecycle (calls : List (Call R)) (m : Memory R) (history : List (MemoryVersion R)) :
    Prop where
  /-- a write or a capture of the run created it, in its first state and with its identity -/
  created : ∃ call s₀ m₀, Made NoImport calls call s₀ ∧ Created call s₀ m₀ ∧
    m₀.SameIdentity m ∧ history.head? = some (m₀.snapshot "created") ∧
    (((∃ c, call.request = .write c) ∧ m₀.state = .active) ∨
      ((∃ c, call.request = .capture c) ∧ m₀.state = .candidate))
  steps : history.IsChain Follows
  candidatesFirst : history.Pairwise fun v w => w.state = .candidate → v.state = .candidate
  supersededLast : history.Pairwise fun v w => v.state = .superseded → w.state = .superseded

/-- Every history without imports is a chain of such steps. -/
theorem isChain_follows (hplayed : Played NoImport calls s) {i : UUID} {m : Memory R}
    {history : List (MemoryVersion R)} (hm : s.memories.get? i = some m)
    (hh : s.historyByMemory.get? i = some history) : history.IsChain Follows := by
  rw [List.isChain_iff_forall_rel_of_append_cons_cons]
  intro v w past rest hsplit
  have hsplit : history = (past ++ [v]) ++ w :: rest := by simpa using hsplit
  obtain ⟨call, s₀, hmade, hrevises⟩ := exists_revises hplayed hm hh hsplit (by simp)
  obtain ⟨m₁, m₂, reason, hrevision, rfl, hv, -⟩ := hrevises.last hmade
  obtain ⟨args, hevolve⟩ := hrevision.evolve
  exact .inr ⟨m₁, args.relatedMemoryId, hv.symm, evolve_transition hevolve⟩

/-- Every live memory of a run without imports has a history, and lives by the table. -/
theorem lifecycle_sound (hplayed : Played NoImport calls s) {i : UUID} {m : Memory R}
    (hm : s.memories.get? i = some m) :
    ∃ history, s.historyByMemory.get? i = some history ∧ Lifecycle calls m history := by
  have hcontains : s.historyByMemory.contains i = true := by
    rw [(inv_of_noImport hplayed.run).histories]
    exact (Dict.contains_iff _ _).mpr ⟨m, hm⟩
  obtain ⟨history, hh⟩ := (Dict.contains_iff _ _).mp hcontains
  obtain ⟨call, s₀, m₀, hmade, hcreated, rfl⟩ := exists_created hplayed hm
  obtain ⟨-, hlife⟩ := created_later hplayed hmade hcreated
  obtain ⟨hsame, hhead⟩ := hlife m history hm hh
  obtain ⟨fingerprint, vector, hcreation, -⟩ := hcreated.creation hmade
  have hchain := isChain_follows hplayed hm hh
  refine ⟨history, hh, ⟨call, s₀, m₀, hmade, hcreated, hsame, hhead, creation_state hcreation⟩,
    hchain, ?_, ?_⟩
  · exact pairwise_of_follows (fun _ _ _ h h' hw => h (h' hw)) (fun _ _ h => h.of_candidate) hchain
  · exact pairwise_of_follows (fun _ _ _ h h' hv => h' (h hv)) (fun _ _ h => h.of_superseded)
      hchain

/-- The capture of a first memory of `alice`. -/
def firstCapture : Call ℚ where
  service := serviceOn 1 7
  request := .capture (captureCommand "acme" "alice" "tea at five" "k1")

/-- Its confirmation. -/
def firstConfirmation : Call ℚ where
  service := serviceOn 2 8
  request := .confirmCandidate
    { tenantId := "acme", ownerId := "alice", memoryId := ⟨7⟩, expectedVersion := 1,
      idempotencyKey := "c1" }

theorem played_firstCapture {may : InMemoryStore ℚ → Call ℚ → Prop}
    (hmay : may {} firstCapture) : Played may [firstCapture] (firstCapture.attempt {}).2 :=
  .next .start (fun _ => ⟨rfl, fun _ _ h => by simp at h⟩) hmay

theorem lifecycle_sound_firstConfirmation :
    (∃ m history, (firstConfirmation.attempt (firstCapture.attempt {}).2).2.memories.get? ⟨7⟩
        = some m ∧ m.state = .confirmed ∧
      Lifecycle [firstCapture, firstConfirmation] m history) := by
  have hcapture : Played NoImport [firstCapture] (firstCapture.attempt {}).2 :=
    played_firstCapture fun _ _ h => by cases h
  have hplayed : Played NoImport [firstCapture, firstConfirmation]
      (firstConfirmation.attempt (firstCapture.attempt {}).2).2 :=
    .next hcapture (fun h => by cases h) (fun _ _ h => by cases h)
  have hstate : ((firstConfirmation.attempt (firstCapture.attempt {}).2).2.memories.get? ⟨7⟩).map
      (fun m => m.state) = some .confirmed := by decide +kernel
  obtain ⟨m, hm, hconfirmed⟩ := Option.map_eq_some_iff.mp hstate
  obtain ⟨history, -, hlife⟩ := lifecycle_sound hplayed hm
  exact ⟨m, history, hm, hconfirmed, hlife⟩

/-! ## The candidate gate -/

/-- In a run of `calls`, the first snapshot of a captured memory that is no candidate was
stored by a confirmation, and no update moves a memory out of `candidate`. -/
def CandidateGate (may : InMemoryStore R → Call R → Prop) (calls : List (Call R))
    (s : InMemoryStore R) : Prop :=
  (∀ call s₀ c m₀ m history past v rest, Made may calls call s₀ → call.request = .capture c →
    Created call s₀ m₀ → s.memories.get? m₀.id = some m →
    s.historyByMemory.get? m₀.id = some history → history = past ++ v :: rest →
    (∀ w ∈ past, w.state = .candidate) → v.state ≠ .candidate →
    ∃ call' s₁ c', Made may calls call' s₁ ∧ call'.request = .confirmCandidate c' ∧
      Revises call' s₁ m₀.id past v) ∧
  ∀ call s₀ c i m m', Made may calls call s₀ → call.request = .update c →
    s₀.memories.get? i = some m → m.state = .candidate →
    (call.attempt s₀).2.memories.get? i = some m' → m'.state = .candidate

/-- The call does not import, and is no update that asks a candidate to move on. -/
def Gated (s : InMemoryStore R) (call : Call R) : Prop :=
  NoImport s call ∧ ∀ c m, call.request = .update c →
    s.lookup c.ownerId c.memoryId none = some m → m.version = c.expectedVersion →
    m.state = .candidate → requestedState c ≠ some .confirmed ∧ requestedState c ≠ some .pinned

/-- Where a call of the run was made, the calls before it lead there. -/
theorem Played.at {before after : List (Call R)} (h : Played may calls s)
    (hsplit : calls = before ++ call :: after) :
    ∃ s₀, Played may before s₀ ∧ call.DrawsFresh s₀ ∧ may s₀ call := by
  induction h generalizing after with
  | start => simp at hsplit
  | @next calls s call' hbefore hfresh hmay ih =>
    rcases List.eq_nil_or_concat after with rfl | ⟨rest, last, rfl⟩
    · obtain ⟨rfl, hlast⟩ := List.append_inj' hsplit rfl
      obtain rfl := (List.cons.inj hlast).1
      exact ⟨s, hbefore, hfresh, hmay⟩
    · have hsplit : calls ++ [call'] = (before ++ call :: rest) ++ [last] := by
        rw [hsplit]
        simp
      exact ih (List.append_inj' hsplit rfl).1

/-- A call made under a stronger restriction is made under a weaker one. -/
theorem Made.weaken {may' : InMemoryStore R → Call R → Prop}
    (hle : ∀ s call, may s call → may' s call) (h : Made may calls call s₀) :
    Made may' calls call s₀ := by
  obtain ⟨before, after, hsplit, hbefore, hfresh, hmay⟩ := h
  exact ⟨before, after, hsplit, hbefore.mono hle, hfresh, hle _ _ hmay⟩

/-- A call of a restricted run meets the restriction. -/
theorem Made.restrict {may' : InMemoryStore R → Call R → Prop}
    (hle : ∀ s call, may s call → may' s call) (hplayed : Played may calls s)
    (h : Made may' calls call s₀) : Made may calls call s₀ := by
  obtain ⟨before, after, hsplit, hbefore, -, -⟩ := h
  obtain ⟨s₁, hbefore₁, hfresh, hmay⟩ := hplayed.at hsplit
  obtain rfl := (hbefore₁.mono hle).unique hbefore
  exact ⟨before, after, hsplit, hbefore₁, hfresh, hmay⟩

/-- A gated revision of a candidate is a confirmation, or it leaves a candidate. -/
theorem Gated.revision {m m' : Memory R} (hgated : Gated s₀ call)
    (hrevision : call.Revision m m') (hm : m.state = .candidate)
    (hlive : s₀.lookup call.request.ownerId m.id call.request.addressTenant = some m) :
    (∃ c, call.request = .confirmCandidate c) ∨
      ((∃ c, call.request = .update c) ∧ m'.state = .candidate) := by
  cases hrevision with
  | @confirmed c _ _ asked _ _ _ _ _ => exact .inl ⟨c, asked⟩
  | pinned _ _ _ guard _ _ =>
    rw [hm] at guard
    exact absurd guard (by decide)
  | @updated c timestamp descriptor asked named expected _ evolved =>
    refine .inr ⟨⟨c, asked⟩, ?_⟩
    rw [asked, named] at hlive
    obtain ⟨hconfirmed, hpinned⟩ := hgated.2 c m asked hlive expected hm
    have hstate : m'.state = (requestedState c).getD m.state := (Memory.evolve_ok evolved).state
    rcases assertTransition_ok (evolve_transition evolved) with hsame | hallowed
    · rw [hsame, hm]
    · rw [hm] at hallowed hstate
      cases hreq : requestedState c with
      | none =>
        rw [hreq] at hstate
        exact hstate
      | some target =>
        rw [hreq] at hstate hconfirmed hpinned
        obtain rfl : m'.state = target := hstate
        -- the table leaves a candidate two ways out, and the call names neither
        rcases List.mem_cons.mp hallowed with h | hallowed
        · exact absurd (congrArg some h) hconfirmed
        · rw [List.mem_singleton.mp hallowed] at hpinned
          exact absurd rfl hpinned

theorem Gated.noImport (s : InMemoryStore R) (call : Call R) (h : Gated s call) :
    NoImport s call := h.1

/-- In a run whose updates ask no candidate to move on, candidates leave by confirmation. -/
theorem candidates_gated (hplayed : Played Gated calls s) : CandidateGate Gated calls s := by
  have hfree : Played NoImport calls s := hplayed.mono Gated.noImport
  constructor
  -- a memory leaves the state of a candidate by a confirmation only
  · intro call s₀ c m₀ m history past v rest hmade hcapture hcreated hm hh hsplit hcand hv
    have hmade' : Made NoImport calls call s₀ := hmade.weaken Gated.noImport
    obtain ⟨-, hlife⟩ := created_later hfree hmade' hcreated
    obtain ⟨-, hhead⟩ := hlife m history hm hh
    obtain ⟨_, _, hcreation, -⟩ := hcreated.creation hmade'
    have hfirst : m₀.state = .candidate := by
      rcases creation_state hcreation with ⟨⟨c', hwrite⟩, -⟩ | ⟨-, hstate⟩
      · rw [hcapture] at hwrite
        cases hwrite
      · exact hstate
    rcases List.eq_nil_or_concat' past with rfl | ⟨past', w, rfl⟩
    · -- the first snapshot of a captured memory is a candidate
      rw [hsplit] at hhead
      cases hhead
      exact absurd hfirst hv
    -- the snapshot was made by a call, whose revision passes the gate
    · obtain ⟨call', s₁, hmade₁, hrevises⟩ := exists_revises hfree hm hh hsplit (by simp)
      have hgated₁ := hmade₁.restrict Gated.noImport hplayed
      obtain ⟨m₁, m₂, reason, hrevision, rfl, hw, hlive⟩ := hrevises.last hmade₁
      have hm₁ : m₁.state = .candidate := hw ▸ hcand w (by simp)
      obtain ⟨_, _, -, hbefore, -, hgate⟩ := hgated₁
      have hid : m₁.id = m₀.id :=
        (inv_of_noImport (hbefore.mono Gated.noImport).run).keyed _ _ (lookup_eq_some.mp hlive).1
      rw [← hid] at hlive
      rcases hgate.revision hrevision hm₁ hlive with ⟨c', hc'⟩ | ⟨-, hstill⟩
      · exact ⟨call', s₁, c', hmade₁.restrict Gated.noImport hplayed, hc', hrevises⟩
      · exact absurd hstill hv
  -- an update leaves a candidate a candidate
  · intro call s₀ c i m m' hmade hupdate hm hcand hm'
    obtain ⟨_, _, -, hbefore, hfresh, hgate⟩ := hmade
    have hkeyed := (inv_of_noImport (hbefore.mono Gated.noImport).run).keyed
    cases (Call.effect hkeyed hfresh hgate.1).effectAt i with
    | same memory _ =>
      rw [memory, hm] at hm'
      cases hm'
      exact hcand
    | appeared _ fresh _ _ _ =>
      rw [fresh.1] at hm
      cases hm
    | @revised m₁ m₂ _ _ revision live _ memory _ addressed =>
      rw [hm] at live
      cases live
      rw [hm'] at memory
      cases memory
      have hid := hkeyed i m hm
      rw [← hid] at addressed
      rcases hgate.revision revision hcand addressed with ⟨c', hc'⟩ | ⟨-, hstill⟩
      · rw [hupdate] at hc'
        cases hc'
      · exact hstill
    | vanished _ memory _ _ =>
      rw [memory] at hm'
      cases hm'

theorem candidates_gated_firstConfirmation :
    ((firstConfirmation.attempt (firstCapture.attempt {}).2).2.memories.get? ⟨7⟩).map
        (fun m => m.state) = some .confirmed ∧
      CandidateGate Gated [firstCapture, firstConfirmation]
        (firstConfirmation.attempt (firstCapture.attempt {}).2).2 := by
  have hcapture : Gated {} firstCapture := by
    constructor
    · intro _ _ h
      cases h
    · intro _ _ h
      cases h
  have hconfirm : Gated (firstCapture.attempt {}).2 firstConfirmation := by
    constructor
    · intro _ _ h
      cases h
    · intro _ _ h
      cases h
  refine ⟨by decide +kernel, candidates_gated ?_⟩
  exact .next (played_firstCapture hcapture) (fun h => by cases h) hconfirm

/-- An update of the captured memory that names the state `confirmed`. -/
def firstPromotion : Call ℚ where
  service := serviceOn 2 8
  request := .update
    { ownerId := "alice", memoryId := ⟨7⟩, expectedVersion := 1, state := some .confirmed }

theorem update_confirms_candidate :
    ¬∀ (calls : List (Call ℚ)) (s : InMemoryStore ℚ), Played NoImport calls s →
      CandidateGate NoImport calls s := by
  intro hclaim
  have hcapture : Played NoImport [firstCapture] (firstCapture.attempt {}).2 :=
    played_firstCapture fun _ _ h => by cases h
  have hno : NoImport (firstCapture.attempt {}).2 firstPromotion := fun _ _ h => by cases h
  have hfresh : firstPromotion.DrawsFresh (firstCapture.attempt {}).2 := fun h => by cases h
  have hplayed : Played NoImport [firstCapture, firstPromotion]
      (firstPromotion.attempt (firstCapture.attempt {}).2).2 := .next hcapture hfresh hno
  have hbefore : ((firstCapture.attempt {}).2.memories.get? ⟨7⟩).map (fun m => m.state)
      = some .candidate := by decide +kernel
  have hafter : ((firstPromotion.attempt (firstCapture.attempt {}).2).2.memories.get? ⟨7⟩).map
      (fun m => m.state) = some .confirmed := by decide +kernel
  obtain ⟨m, hm, hcandidate⟩ := Option.map_eq_some_iff.mp hbefore
  obtain ⟨m', hm', hconfirmed⟩ := Option.map_eq_some_iff.mp hafter
  have hstill := (hclaim _ _ hplayed).2 firstPromotion _ _ _ m m'
    ⟨[firstCapture], [], rfl, hcapture, hfresh, hno⟩ rfl hm hcandidate hm'
  rw [hconfirmed] at hstill
  cases hstill

end InMemoryStore

end OpenMemory
