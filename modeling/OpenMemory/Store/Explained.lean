import OpenMemory.Store.Contradiction
import OpenMemory.Store.Deletion
import OpenMemory.Store.Lifecycle

/-!
# Why a memory is superseded or contradicted

An update that names a superseding or contradicting memory stores the new state and the relation
in one transaction, and a removal takes the relation away with the memory at either end. Over
runs without imports, what is left explains every such state: the relation stands, or the memory
that was named is gone and has its tombstone.

- `MovedBy`: the update that moved a memory into the state it has had ever since.
- `relation_after`: a call keeps a relation or buries one of its ends.
- `relation_of_moved`: a call that moves a memory into one of the two states is an update that
  names a memory, and leaves the relation to it.
- `verdicts_explained` is the result.
-/

namespace OpenMemory

open Lib MemoryApplicationService InMemoryStore

variable {R : Type} [Python R]

/-- The state that an update moves its memory to under the relation. -/
def RelationType.verdict : RelationType → Option MemoryState
  | .supersedes => some .superseded
  | .contradicts => some .contradicted
  | _ => none

/-- The memory that an update names under the relation. -/
def UpdateMemoryCommand.named (c : UpdateMemoryCommand R) : RelationType → Option UUID
  | .supersedes => c.supersedesMemoryId
  | .contradicts => c.contradictsMemoryId
  | _ => none

namespace InMemoryStore

variable {s s' : InMemoryStore R} {o : String} {package : List (Memory R)} {key : RelationKey}
  {r : Relation} {calls : List (Call R)} {call : Call R} {i : UUID}

/-! ## Relations over calls -/

/-- A change keeps a relation, or removes the memory at one of its ends. -/
theorem Change.relation (hinv : Inv s) (h : Change o package s s')
    (hr : s.relations.get? key = some r) : s'.relations.get? key = some r ∨
      Gone s' r.ownerId r.sourceId ∨ Gone s' r.ownerId r.targetId := by
  obtain ⟨-, -, hsource, htarget⟩ := hinv.relations key r hr
  cases h with
  | created | versioned | restored | recorded => exact .inl hr
  | @related r' _ able =>
    have hne : key ≠ r'.key := by
      rintro rfl
      rw [able.new] at hr
      cases hr
    exact .inl ((Dict.get?_set_of_ne _ _ hne).trans hr)
  | @removed m j _ live owner =>
    -- the removed memory is of the relation's owner when it is at one of its ends
    have hgone : ∀ e, (s.lookup r.ownerId e none).isSome → e = j →
        Gone (s.remove o m j) r.ownerId e := by
      rintro e hlive rfl
      obtain ⟨m', hm'⟩ := Option.isSome_iff_exists.mp hlive
      obtain ⟨hget, howner, -⟩ := lookup_eq_some.mp hm'
      rw [live] at hget
      cases hget
      refine ⟨⟨m.tenantId, ?_⟩, ?_⟩
      · rw [← howner, owner]
        exact Finset.mem_insert_self _ _
      · rintro ⟨m', hpopped, -⟩
        replace hpopped : (s.memories.pop e).get? e = some m' := hpopped
        rw [Dict.get?_pop_self] at hpopped
        cases hpopped
    by_cases hs : r.sourceId = j
    · exact .inr (.inl (hgone _ hsource hs))
    · by_cases ht : r.targetId = j
      · exact .inr (.inr (hgone _ htarget ht))
      · exact .inl (Dict.get?_filter_eq_some.mpr ⟨hr, by simp [hs, ht]⟩)

/-- A call that does not import keeps a relation, or buries one of its ends. -/
theorem relation_after (hinv : Inv s) (hfresh : call.DrawsFresh s) (hno : NoImport s call)
    (hr : s.relations.get? key = some r) : (call.attempt s).2.relations.get? key = some r ∨
      Gone (call.attempt s).2 r.ownerId r.sourceId ∨
      Gone (call.attempt s).2 r.ownerId r.targetId := by
  have hchanges := Call.attempt_changes hinv.keyed hfresh
  rw [package_of_noImport hno] at hchanges
  have hboth : Inv (call.attempt s).2 ∧ ((call.attempt s).2.relations.get? key = some r ∨
      Gone (call.attempt s).2 r.ownerId r.sourceId ∨
      Gone (call.attempt s).2 r.ownerId r.targetId) := by
    refine Reaches.kept (I := fun s₁ => Inv s₁ ∧ (s₁.relations.get? key = some r ∨
      Gone s₁ r.ownerId r.sourceId ∨ Gone s₁ r.ownerId r.targetId)) hchanges ?_
      ⟨hinv, .inl hr⟩
    rintro s₁ s₂ hchange ⟨hinv₁, hkept | hsource | htarget⟩
    · exact ⟨hinv₁.change hchange, hchange.relation hinv₁ hkept⟩
    · exact ⟨hinv₁.change hchange, .inr (.inl (hsource.change hchange (by simp)))⟩
    · exact ⟨hinv₁.change hchange, .inr (.inr (htarget.change hchange (by simp)))⟩
  exact hboth.2

/-- What is gone stays gone without imports. -/
theorem gone_after {o' : String} (hinv : Inv s) (hfresh : call.DrawsFresh s)
    (hno : NoImport s call) (hgone : Gone s o' i) : Gone (call.attempt s).2 o' i := by
  have hchanges := Call.attempt_changes hinv.keyed hfresh
  rw [package_of_noImport hno] at hchanges
  exact hgone.changes hchanges (by simp)

/-! ## The update that moved a memory -/

theorem verdict_cases {relationType : RelationType} {state : MemoryState}
    (h : relationType.verdict = some state) : state = .superseded ∨ state = .contradicted := by
  cases relationType <;> simp [RelationType.verdict] at h <;> simp [← h]

theorem verdict_injective {a b : RelationType} {state : MemoryState}
    (ha : a.verdict = some state) (hb : b.verdict = some state) : a = b := by
  revert ha hb
  cases state <;> cases a <;> cases b <;> decide

omit [Python R] in
/-- The requested relation carries the named memory, and decides the requested state. -/
theorem requestedRelation_eq_some {c : UpdateMemoryCommand R} {relationType : RelationType}
    {x : UUID} (h : requestedRelation c = some (relationType, x)) :
    c.named relationType = some x ∧ requestedState c = relationType.verdict := by
  unfold requestedState
  rw [h]
  unfold requestedRelation at h
  cases hs : c.supersedesMemoryId with
  | some y =>
    simp only [hs, Option.some.injEq, Prod.mk.injEq] at h
    obtain ⟨rfl, rfl⟩ := h
    exact ⟨hs, rfl⟩
  | none =>
    cases hc : c.contradictsMemoryId with
    | some y =>
      simp only [hs, hc, Option.some.injEq, Prod.mk.injEq] at h
      obtain ⟨rfl, rfl⟩ := h
      exact ⟨hc, rfl⟩
    | none => simp [hs, hc] at h

/-- An update moves a memory into one of the two states only by naming a memory: the transition
requires the related id. -/
theorem requested_of_evolved {c : UpdateMemoryCommand R} {m m' : Memory R} {at_ : DateTime}
    {d : EmbeddingDescriptor} {relationType : RelationType} {state : MemoryState}
    (hverdict : relationType.verdict = some state) (hevolve : m.evolve (updateArgs c at_ d) = .ok m')
    (hbefore : m.state ≠ state) (hafter : m'.state = state) :
    ∃ x, requestedRelation c = some (relationType, x) ∧ c.named relationType = some x := by
  have hstate := (Memory.evolve_ok hevolve).state
  have hmove := evolve_transition hevolve
  rw [hafter] at hstate hmove
  unfold Memory.assertTransition at hmove
  -- the state changes, so the transition needs a related memory
  rw [if_neg hbefore.symm] at hmove
  simp only [except_bind_ok, raiseIf_except_ok, verdict_cases hverdict, decide_true,
    Bool.true_and] at hmove
  obtain ⟨_, -, hrelated⟩ := hmove
  cases hrequest : requestedRelation c with
  | none => simp [updateArgs, hrequest] at hrelated
  | some p =>
    obtain ⟨relationType', x⟩ := p
    obtain ⟨hnamed, hdecides⟩ := requestedRelation_eq_some hrequest
    -- the relation that is asked for decides the state
    have hends : relationType'.verdict = some state := by
      simp only [updateArgs, hdecides] at hstate
      cases hv : relationType'.verdict with
      | none =>
        rw [hv] at hstate
        exact absurd hstate.symm hbefore
      | some state' =>
        rw [hv] at hstate
        rw [hstate]
        rfl
    obtain rfl := verdict_injective hends hverdict
    exact ⟨x, rfl, hnamed⟩

/-- A relation that an update asked for is stored after it. -/
theorem relation_of_updated {svc : MemoryApplicationService R} {c : UpdateMemoryCommand R}
    {m' : Memory R} {relationType : RelationType} {x : UUID} (hk : s.Keyed)
    (hrequest : requestedRelation c = some (relationType, x)) (h : Updated svc c s m' s') :
    (s'.relations.get? (c.ownerId, c.memoryId, x, relationType)).isSome := by
  obtain ⟨m, at_, d, s₁, -, hver, hrel⟩ := h
  have hid : m'.id = c.memoryId :=
    (Memory.evolve_ok hver.evolved).identity.id.trans (hk _ _ (lookup_eq_some.mp hver.live).1)
  rw [hrequest] at hrel
  obtain ⟨r, howner, hsource, htarget, htype, -, rfl⟩ := hrel
  have hkey : r.key = (c.ownerId, c.memoryId, x, relationType) := by
    unfold Relation.key
    rw [howner, hsource, htarget, htype, hid]
  rw [← hkey]
  exact Option.isSome_iff_exists.mpr ⟨r, Dict.get?_set_self _ _ _⟩

/-- A call that moves a memory into one of the two states is an update that names another memory,
and leaves the relation to it. -/
theorem relation_of_moved {m m' : Memory R} {relationType : RelationType} {state : MemoryState}
    (hinv : Inv s) (hfresh : call.DrawsFresh s) (hno : NoImport s call)
    (hverdict : relationType.verdict = some state)
    (hm : s.memories.get? i = some m) (hbefore : m.state ≠ state)
    (hm' : (call.attempt s).2.memories.get? i = some m') (hafter : m'.state = state) :
    ∃ c x, call.request = .update c ∧ c.named relationType = some x ∧
      ((call.attempt s).2.relations.get? (m'.ownerId, i, x, relationType)).isSome := by
  have hends := verdict_cases hverdict
  cases (Call.effect hinv.keyed hfresh hno).effectAt i with
  | same memory _ =>
    rw [memory, hm] at hm'
    cases hm'
    exact absurd hafter hbefore
  | appeared _ fresh _ _ _ =>
    rw [fresh.1] at hm
    cases hm
  | vanished _ memory _ _ =>
    rw [memory] at hm'
    cases hm'
  | @revised m₁ m₂ _ _ revision live _ memory _ addressed =>
    rw [hm] at live
    rw [hm'] at memory
    cases live
    cases memory
    cases revision with
    | confirmed _ _ _ _ _ evolved =>
      have hstate : m'.state = .confirmed := (Memory.evolve_ok evolved).state
      rw [hafter] at hstate
      rcases hends with rfl | rfl <;> cases hstate
    | @pinned c _ _ _ _ _ _ evolved =>
      have hstate : m'.state = c.targetState := (Memory.evolve_ok evolved).state
      rw [hafter, PinMemoryCommand.targetState] at hstate
      split_ifs at hstate
      all_goals rcases hends with rfl | rfl <;> cases hstate
    | @updated c at_ d asked named _ _ evolved =>
      obtain ⟨x, hrequest, hnamed⟩ := requested_of_evolved hverdict evolved hbefore hafter
      refine ⟨c, x, asked, hnamed, ?_⟩
      have hid : i = c.memoryId := (hinv.keyed i m hm).symm.trans named
      have howner : m'.ownerId = c.ownerId := by
        rw [(Memory.evolve_ok evolved).identity.ownerId, (lookup_eq_some.mp addressed).2.1, asked]
        rfl
      rw [hid, howner]
      -- the call committed, and was no replay, since the memory has changed
      obtain ⟨svc, request⟩ := call
      obtain rfl : request = .update c := asked
      cases hrun : ((Request.update c).exec svc).run s with
      | error e =>
        have hs : Call.attempt ⟨svc, .update c⟩ s = (.error e, s) :=
          Txn.attempt_error.mpr ⟨hrun, rfl⟩
        rw [hs, hm] at hm'
        cases hm'
        exact absurd hafter hbefore
      | ok out =>
        have hs : Call.attempt ⟨svc, .update c⟩ s = (.ok out.1, out.2) := Txn.attempt_ok.mpr hrun
        rw [hs] at hm' ⊢
        obtain ⟨result, hresult, -⟩ := Txn.map_ok.mp hrun
        rcases update_ok hresult with ⟨-, hup⟩ | ⟨k, -, hled⟩
        · exact relation_of_updated hinv.keyed hrequest hup
        · obtain ⟨resp, s'⟩ := out
          cases hled with
          | replayed =>
            rw [hm] at hm'
            cases hm'
            exact absurd hafter hbefore
          | executed _ ran _ _ =>
            have hrel := relation_of_updated hinv.keyed hrequest ran.1
            exact hrel

/-- The call, made on `s₀`, moved the memory under `i` into the state; every call of the run
since has left it there. -/
def MovedBy (calls : List (Call R)) (i : UUID) (state : MemoryState) (call : Call R)
    (s₀ : InMemoryStore R) : Prop :=
  ∃ before after, calls = before ++ call :: after ∧ Played NoImport before s₀ ∧
    (∃ m₀, s₀.memories.get? i = some m₀ ∧ m₀.state ≠ state) ∧
    ∀ mid rest s₁, after = mid ++ rest → Played NoImport (before ++ call :: mid) s₁ →
      ∃ m₁, s₁.memories.get? i = some m₁ ∧ m₁.state = state

theorem movedBy_now {m m' : Memory R} {state : MemoryState} (hplayed : Played NoImport calls s)
    (hfresh : call.DrawsFresh s) (hno : NoImport s call) (hm : s.memories.get? i = some m)
    (hbefore : m.state ≠ state) (hm' : (call.attempt s).2.memories.get? i = some m')
    (hafter : m'.state = state) : MovedBy (calls ++ [call]) i state call s := by
  refine ⟨calls, [], rfl, hplayed, ⟨m, hm, hbefore⟩, fun mid rest s₁ hnil hmid => ?_⟩
  obtain ⟨rfl, -⟩ := List.append_eq_nil_iff.mp hnil.symm
  rw [hmid.unique (.next hplayed hfresh hno)]
  exact ⟨m', hm', hafter⟩

theorem MovedBy.later {call' : Call R} {s₀ : InMemoryStore R} {m' : Memory R}
    {state : MemoryState} (h : MovedBy calls i state call s₀) (hplayed : Played NoImport calls s)
    (hfresh : call'.DrawsFresh s) (hno : NoImport s call')
    (hm' : (call'.attempt s).2.memories.get? i = some m') (hafter : m'.state = state) :
    MovedBy (calls ++ [call']) i state call s₀ := by
  obtain ⟨before, after, rfl, hbefore, hfrom, hsince⟩ := h
  refine ⟨before, after ++ [call'], by simp, hbefore, hfrom, fun mid rest s₁ hsplit hmid => ?_⟩
  rcases List.eq_nil_or_concat rest with rfl | ⟨rest, last, rfl⟩
  · -- the run up to its end
    obtain rfl : after ++ [call'] = mid := by simpa using hsplit
    have hend : Played NoImport (before ++ call :: (after ++ [call'])) (call'.attempt s).2 := by
      have := Played.next hplayed hfresh hno
      simpa using this
    rw [hmid.unique hend]
    exact ⟨m', hm', hafter⟩
  · rw [List.concat_eq_append, ← List.append_assoc] at hsplit
    obtain ⟨hsplit, -⟩ := List.append_inj' hsplit rfl
    exact hsince mid rest s₁ hsplit hmid

/-! ## Explanations -/

/-- Why the memory is in the state: the update that moved it there named a memory, and either the
relation to that memory is stored or the memory is gone. -/
def Explained (calls : List (Call R)) (s : InMemoryStore R) (i : UUID) (m : Memory R)
    (relationType : RelationType) (state : MemoryState) : Prop :=
  ∃ call s₀ c x, MovedBy calls i state call s₀ ∧ call.request = .update c ∧
    c.named relationType = some x ∧
    ((s.relations.get? (m.ownerId, i, x, relationType)).isSome ∨ Gone s m.ownerId x)

/-- One call: the explanation of a memory that stays in the state, or a new one. -/
theorem explained_step {m' : Memory R} {relationType : RelationType} {state : MemoryState}
    (hplayed : Played NoImport calls s) (hfresh : call.DrawsFresh s) (hno : NoImport s call)
    (hverdict : relationType.verdict = some state)
    (ih : ∀ m, s.memories.get? i = some m → m.state = state →
      Explained calls s i m relationType state)
    (hm' : (call.attempt s).2.memories.get? i = some m') (hafter : m'.state = state) :
    Explained (calls ++ [call]) (call.attempt s).2 i m' relationType state := by
  have hinv := hplayed.inv
  have heffect := (Call.effect hinv.keyed hfresh hno).effectAt i
  have hends := verdict_cases hverdict
  -- a new memory is active or a candidate, so there was one before
  have hold : ∃ m, s.memories.get? i = some m ∧ m'.ownerId = m.ownerId := by
    cases heffect with
    | same memory _ => exact ⟨m', memory ▸ hm', rfl⟩
    | appeared creation _ _ memory _ =>
      rw [hm'] at memory
      cases memory
      rcases creation_state creation with ⟨-, hstate⟩ | ⟨-, hstate⟩
      all_goals
        rw [hafter] at hstate
        rcases hends with rfl | rfl <;> cases hstate
    | @revised m₁ _ _ _ revision live _ memory _ _ =>
      rw [hm'] at memory
      cases memory
      obtain ⟨args, hevolve⟩ := revision.evolve
      exact ⟨m₁, live, (Memory.evolve_ok hevolve).identity.ownerId⟩
    | vanished _ memory _ _ =>
      rw [memory] at hm'
      cases hm'
  obtain ⟨m, hm, howner⟩ := hold
  by_cases hstate : m.state = state
  · obtain ⟨call₀, s₀, c, x, hmoved, hasked, hnamed, hwhy⟩ := ih m hm hstate
    refine ⟨call₀, s₀, c, x, hmoved.later hplayed hfresh hno hm' hafter, hasked, hnamed, ?_⟩
    rw [howner]
    rcases hwhy with hrel | hgone
    · obtain ⟨r, hr⟩ := Option.isSome_iff_exists.mp hrel
      have hkey := (hinv.relations _ _ hr).1
      simp only [Relation.key, Prod.mk.injEq] at hkey
      obtain ⟨hro, hrs, hrt, -⟩ := hkey
      rcases relation_after hinv hfresh hno hr with hkept | hsource | htarget
      · exact .inl (Option.isSome_iff_exists.mpr ⟨r, hkept⟩)
      · -- the memory itself is still there
        rw [← hro, ← hrs] at hsource
        exact absurd ⟨m', hm', howner⟩ hsource.2
      · rw [← hro, ← hrt] at htarget
        exact .inr htarget
    · exact .inr (gone_after hinv hfresh hno hgone)
  · obtain ⟨c, x, hasked, hnamed, hrel⟩ :=
      relation_of_moved hinv hfresh hno hverdict hm hstate hm' hafter
    exact ⟨call, s, c, x, movedBy_now hplayed hfresh hno hm hstate hm' hafter, hasked, hnamed,
      .inl hrel⟩

theorem explained {m : Memory R} {relationType : RelationType} {state : MemoryState}
    (hplayed : Played NoImport calls s) (hverdict : relationType.verdict = some state)
    (hm : s.memories.get? i = some m) (hstate : m.state = state) :
    Explained calls s i m relationType state := by
  induction hplayed generalizing m with
  | start => cases hm
  | next hbefore hfresh hno ih =>
    exact explained_step hbefore hfresh hno hverdict (fun m hm hstate => ih hm hstate) hm hstate

/-- The memory has an outgoing relation to a live memory of its owner, or the memory named by the
update that moved it into the state was removed since and has a tombstone of the owner. -/
def HasReason (calls : List (Call R)) (s : InMemoryStore R) (i : UUID) (m : Memory R)
    (relationType : RelationType) (state : MemoryState) : Prop :=
  (∃ x, (s.relations.get? (m.ownerId, i, x, relationType)).isSome ∧ s.Holds m.ownerId x) ∨
    ∃ call s₀ c x, MovedBy calls i state call s₀ ∧ call.request = .update c ∧
      c.named relationType = some x ∧ ¬s.Holds m.ownerId x ∧ s.Tombstoned m.ownerId x

theorem Explained.hasReason {m : Memory R} {relationType : RelationType} {state : MemoryState}
    (hinv : Inv s) (h : Explained calls s i m relationType state) :
    HasReason calls s i m relationType state := by
  obtain ⟨call, s₀, c, x, hmoved, hasked, hnamed, hrel | hgone⟩ := h
  · obtain ⟨r, hr⟩ := Option.isSome_iff_exists.mp hrel
    obtain ⟨hkey, -, -, htarget⟩ := hinv.relations _ _ hr
    simp only [Relation.key, Prod.mk.injEq] at hkey
    obtain ⟨howner, -, htarget', -⟩ := hkey
    rw [← howner, ← htarget'] at htarget
    obtain ⟨m', hm'⟩ := Option.isSome_iff_exists.mp htarget
    obtain ⟨hget, howner', -⟩ := lookup_eq_some.mp hm'
    exact .inl ⟨x, hrel, m', hget, howner'⟩
  · exact .inr ⟨call, s₀, c, x, hmoved, hasked, hnamed, hgone.2, hgone.1⟩

/-- In every run without imports, a superseded memory has a reason in a `supersedes` relation,
and a contradicted one in a `contradicts` relation. -/
theorem verdicts_explained {m : Memory R} (hplayed : Played NoImport calls s)
    (hm : s.memories.get? i = some m) :
    (m.state = .superseded → HasReason calls s i m .supersedes .superseded) ∧
      (m.state = .contradicted → HasReason calls s i m .contradicts .contradicted) :=
  ⟨fun hstate => (explained hplayed rfl hm hstate).hasReason hplayed.inv,
    fun hstate => (explained hplayed rfl hm hstate).hasReason hplayed.inv⟩

/-- The second note contradicts the first. -/
def contradictCall : Call ℚ := ⟨serviceOn 3 10, .update (contradictFirst 1 "u1")⟩

/-- The second note is forgotten. -/
def forgetSecond : Call ℚ := ⟨serviceOn 4 11, .forget { ownerId := "alice", memoryId := ⟨9⟩ }⟩

def contradictThenForget : List (Call ℚ) := [firstNote, sixNote, contradictCall, forgetSecond]

theorem verdicts_explained_forgotten : ∃ s m, Played NoImport contradictThenForget s ∧
    s.memories.get? ⟨7⟩ = some m ∧ m.state = .contradicted ∧
    HasReason contradictThenForget s ⟨7⟩ m .contradicts .contradicted := by
  have hfirst : Played NoImport [firstNote] (firstNote.attempt {}).2 :=
    .next .start (fun _ => ⟨rfl, fun _ _ h => by simp at h⟩) fun _ _ h => by cases h
  have htwo : Played NoImport [firstNote, sixNote] twoNotes :=
    .next hfirst (fun _ => fresh_of_no_tombstone (by decide +kernel) (by decide +kernel))
      fun _ _ h => by cases h
  have hthree : Played NoImport [firstNote, sixNote, contradictCall]
      (contradictCall.attempt twoNotes).2 :=
    .next htwo (fun h => absurd h (by decide)) fun _ _ h => by cases h
  have hplayed : Played NoImport contradictThenForget
      (forgetSecond.attempt (contradictCall.attempt twoNotes).2).2 :=
    .next hthree (fun h => absurd h (by decide)) fun _ _ h => by cases h
  have hread : ((forgetSecond.attempt (contradictCall.attempt twoNotes).2).2.memories.get? ⟨7⟩).map
      (fun m => m.state) = some .contradicted := by decide +kernel
  obtain ⟨m, hm, hstate⟩ := Option.map_eq_some_iff.mp hread
  exact ⟨_, m, hplayed, hm, hstate, (verdicts_explained hplayed hm).2 hstate⟩

end InMemoryStore

end OpenMemory
