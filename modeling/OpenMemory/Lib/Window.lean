import OpenMemory.Lib.Runs

/-!
# Sliding windows

A limiter lets a call of a key through while fewer than `limit` calls of that key were let through
in the window that ends at the call. It keeps a log of times for each key; the window that ends at
`now` holds the times after `start now`, where `start` is monotone.

- `transcript`: the calls of a run with their answers.
- `Offered`: what a limiter may do with the log of the key of a call.
- `Slides`: every call of the limiter is one offer to the log of its key, and touches no other log.
- `Slides.follows`: along an ordered run a log holds what a later window can still see.
- `Exact`: no window has more than `limit` admitted calls, a rejected call has found `limit` of them
  in its window, and the calls of one key are answered as if there were no others.
- `Slides.exact`: a limiter that slides is exact.
-/

namespace OpenMemory.Lib

/-- A limiter. A call that is not limited has no key, and the answer of one that fails before its
limit is read is `none`. -/
structure Limiter (C σ K T : Type) where
  key : C → Option K
  time : C → T
  call : C → σ → Option Bool × σ

namespace Limiter

variable {C σ K T : Type} (L : Limiter C σ K T)

/-- The state after some calls. -/
def after (s : σ) (calls : List C) : σ := play (fun s c => (L.call c s).2) s calls

/-- The calls with their answers. -/
def transcript (s : σ) : List C → List (C × Option Bool)
  | [] => []
  | c :: calls => (c, (L.call c s).1) :: transcript (L.call c s).2 calls

theorem transcript_append (s : σ) (before after : List C) :
    L.transcript s (before ++ after)
      = L.transcript s before ++ L.transcript (L.after s before) after := by
  induction before generalizing s with
  | nil => rfl
  | cons c before ih => exact congrArg _ (ih _)

theorem map_fst_transcript (s : σ) (calls : List C) :
    (L.transcript s calls).map Prod.fst = calls := by
  induction calls generalizing s with
  | nil => rfl
  | cons c calls ih => exact congrArg _ (ih _)

/-- An entry of a transcript is the answer of a call to the state that the calls before it left. -/
theorem transcript_eq_append {s : σ} {calls : List C} {before rest : List (C × Option Bool)}
    {e : C × Option Bool} (h : L.transcript s calls = before ++ e :: rest) :
    ∃ past future, calls = past ++ e.1 :: future ∧ before = L.transcript s past ∧
      e.2 = (L.call e.1 (L.after s past)).1 := by
  induction before generalizing s calls with
  | nil =>
    cases calls with
    | nil => cases h
    | cons c calls =>
      obtain ⟨rfl, -⟩ := List.cons.inj h
      exact ⟨[], calls, rfl, rfl, rfl⟩
  | cons b before ih =>
    cases calls with
    | nil => cases h
    | cons c calls =>
      obtain ⟨rfl, hrest⟩ := List.cons.inj h
      obtain ⟨past, future, rfl, rfl, he⟩ := ih hrest
      exact ⟨c :: past, future, rfl, rfl, he⟩

section Admitted

variable [DecidableEq K]

/-- The times of the admitted calls of a key. -/
def admittedTo (k : K) (entries : List (C × Option Bool)) : List T :=
  (entries.filter fun e => decide (L.key e.1 = some k ∧ e.2 = some true)).map fun e => L.time e.1

theorem admittedTo_append (k : K) (entries entries' : List (C × Option Bool)) :
    L.admittedTo k (entries ++ entries') = L.admittedTo k entries ++ L.admittedTo k entries' := by
  simp [admittedTo]

theorem admittedTo_of_not {k : K} {c : C} {answer : Option Bool}
    (h : ¬ (L.key c = some k ∧ answer = some true)) : L.admittedTo k [(c, answer)] = [] := by
  simp [admittedTo, h]

theorem mem_admittedTo {k : K} {entries : List (C × Option Bool)} {t : T}
    (h : t ∈ L.admittedTo k entries) : ∃ e ∈ entries, L.time e.1 = t := by
  obtain ⟨e, he, rfl⟩ := List.mem_map.mp h
  exact ⟨e, List.mem_of_mem_filter he, rfl⟩

end Admitted

section Sliding

variable [LinearOrder T] {limit : Nat} {start : T → T}

/-- What a limiter may do at `now` with the log of the key: forget what the window has left, and
admit the call if there is room. -/
inductive Offered (limit : Nat) (start : T → T) (now : T) (log : List T) :
    Option Bool → List T → Prop
  | failed : Offered limit start now log none log
  | rejected (full : limit ≤ (log.filter (start now < ·)).length) :
      Offered limit start now log (some false) (log.filter (start now < ·))
  | admitted (room : (log.filter (start now < ·)).length < limit) :
      Offered limit start now log (some true) (log.filter (start now < ·) ++ [now])

/-- The limiter offers each call to the log of its key. -/
structure Slides (L : Limiter C σ K T) (limit : Nat) (start : T → T) (log : σ → K → List T) :
    Prop where
  unlimited {c : C} (h : L.key c = none) (s : σ) : log (L.call c s).2 = log s
  other {c : C} {k k' : K} (h : L.key c = some k) (hne : k' ≠ k) (s : σ) :
    log (L.call c s).2 k' = log s k'
  offered {c : C} {k : K} {s : σ} (h : L.key c = some k) (hsorted : (log s k).Pairwise (· ≤ ·))
    (hle : ∀ t ∈ log s k, t ≤ L.time c) :
    Offered limit start (L.time c) (log s k) (L.call c s).1 (log (L.call c s).2 k)
  alone {c : C} {k : K} {s s' : σ} (h : L.key c = some k) (hlog : log s k = log s' k) :
    (L.call c s).1 = (L.call c s').1 ∧ log (L.call c s).2 k = log (L.call c s').2 k

/-- Where the log is in order, dropping its head while that is out of the window is filtering. -/
theorem dropWhile_eq_filter (since : T) :
    ∀ {times : List T}, times.Pairwise (· ≤ ·) →
      times.dropWhile (fun t => decide (t ≤ since)) = times.filter (since < ·)
  | [], _ => rfl
  | t :: times, h => by
    rw [List.pairwise_cons] at h
    by_cases ht : t ≤ since
    · rw [List.dropWhile_cons_of_pos (by simpa using ht), dropWhile_eq_filter since h.2,
        List.filter_cons_of_neg (by simpa using ht)]
    · have hall : (t :: times).filter (since < ·) = t :: times := by
        refine List.filter_eq_self.mpr fun t' ht' => decide_eq_true ?_
        rcases List.mem_cons.mp ht' with rfl | ht'
        · exact not_le.mp ht
        · exact lt_of_lt_of_le (not_le.mp ht) (h.1 t' ht')
      rw [List.dropWhile_cons_of_neg (by simpa using ht), hall]

/-- The window is no longer than that of a call: each of its times sees all the earlier ones. -/
def Spans (start : T → T) (window : T → Bool) : Prop :=
  ∀ t t', window t = true → window t' = true → t' ≤ t → start t < t'

/-- The window that ends at `b`. -/
def endingAt (start : T → T) (b t : T) : Bool := decide (start b < t ∧ t ≤ b)

/-- The window that begins at `a`. -/
def beginningAt (start : T → T) (a t : T) : Bool := decide (a ≤ t ∧ start t < a)

theorem spans_endingAt (hstart : Monotone start) (b : T) : Spans start (endingAt start b) := by
  intro t t' ht ht' hle
  simp only [endingAt, decide_eq_true_eq] at ht ht'
  exact lt_of_le_of_lt (hstart ht.2) ht'.1

theorem spans_beginningAt (a : T) : Spans start (beginningAt start a) := by
  intro t t' ht ht' hle
  simp only [beginningAt, decide_eq_true_eq] at ht ht'
  exact lt_of_lt_of_le ht.2 ht'.1

/-- The calls come in the order of their times. -/
def Ordered (L : Limiter C σ K T) (calls : List C) : Prop := (calls.map L.time).Pairwise (· ≤ ·)

instance (L : Limiter C σ K T) (calls : List C) : Decidable (L.Ordered calls) :=
  inferInstanceAs (Decidable ((calls.map L.time).Pairwise (· ≤ ·)))

theorem ordered_append {L : Limiter C σ K T} {before rest : List C} :
    Ordered L (before ++ rest) ↔ Ordered L before ∧ Ordered L rest ∧
      ∀ c ∈ before, ∀ c' ∈ rest, L.time c ≤ L.time c' := by
  simp [Ordered, List.pairwise_append]

variable [DecidableEq K]

/-- What an exact limiter guarantees of a run. -/
structure Exact (L : Limiter C σ K T) (limit : Nat) (start : T → T) (s : σ) (calls : List C) :
    Prop where
  ending (k : K) (b : T) :
    (L.admittedTo k (L.transcript s calls)).countP (endingAt start b) ≤ limit
  beginning (k : K) (a : T) :
    (L.admittedTo k (L.transcript s calls)).countP (beginningAt start a) ≤ limit
  needed {before rest : List (C × Option Bool)} {c : C} {k : K}
    (h : L.transcript s calls = before ++ (c, some false) :: rest) (hkey : L.key c = some k) :
    limit ≤ (L.admittedTo k before).countP (endingAt start (L.time c))
  separate (k : K) :
    (L.transcript s calls).filter (fun e => decide (L.key e.1 = some k))
      = L.transcript s (calls.filter fun c => decide (L.key c = some k))

/-- Of the admitted calls of a key its log holds those that a window can still see that ends no
earlier than the last call. -/
structure Logged (L : Limiter C σ K T) (start : T → T) (k : K)
    (entries : List (C × Option Bool)) (times : List T) : Prop where
  sorted : times.Pairwise (· ≤ ·)
  within : ∀ t ∈ times, ∃ e ∈ entries, L.time e.1 = t
  seen : ∀ now, (∀ e ∈ entries, L.time e.1 ≤ now) →
    times.filter (start now < ·) = (L.admittedTo k entries).filter (start now < ·)

variable {L} {log : σ → K → List T} {k : K} {entries : List (C × Option Bool)} {times : List T}
  {c : C}

theorem logged_nil : Logged L start k [] [] :=
  ⟨List.Pairwise.nil, fun _ h => (List.not_mem_nil h).elim, fun _ _ => rfl⟩

/-- A call that is not admitted to the key leaves its log right. -/
theorem Logged.skip (h : Logged L start k entries times) {answer : Option Bool}
    (hnot : ¬ (L.key c = some k ∧ answer = some true)) :
    Logged L start k (entries ++ [(c, answer)]) times where
  sorted := h.sorted
  within t ht := by
    obtain ⟨e, he, rfl⟩ := h.within t ht
    exact ⟨e, List.mem_append_left _ he, rfl⟩
  seen now hnow := by
    rw [admittedTo_append, admittedTo_of_not L hnot, List.append_nil]
    exact h.seen now fun e he => hnow e (List.mem_append_left _ he)

/-- What an earlier window has left no later one sees. -/
theorem filter_forgotten (hstart : Monotone start) {now later : T} (h : now ≤ later)
    (times : List T) :
    (times.filter (start now < ·)).filter (start later < ·) = times.filter (start later < ·) := by
  have hle := hstart h
  rw [List.filter_filter]
  refine List.filter_congr fun t _ => ?_
  by_cases hlater : start later < t
  · simp [hlater, lt_of_le_of_lt hle hlater]
  · simp [hlater]

/-- A rejected call leaves the log without what its window has left. -/
theorem Logged.reject (hstart : Monotone start) (h : Logged L start k entries times) :
    Logged L start k (entries ++ [(c, some false)]) (times.filter (start (L.time c) < ·)) where
  sorted := h.sorted.sublist List.filter_sublist
  within t ht := (h.skip (by simp)).within t (List.mem_of_mem_filter ht)
  seen now hnow := by
    rw [filter_forgotten hstart (hnow (c, some false) (by simp))]
    exact (h.skip (by simp)).seen now hnow

/-- An admitted call is added to it. -/
theorem Logged.admit (hstart : Monotone start) (hkey : L.key c = some k)
    (hlast : ∀ e ∈ entries, L.time e.1 ≤ L.time c) (h : Logged L start k entries times) :
    Logged L start k (entries ++ [(c, some true)])
      (times.filter (start (L.time c) < ·) ++ [L.time c]) where
  sorted := by
    refine List.pairwise_append.mpr
      ⟨h.sorted.sublist List.filter_sublist, by simp, fun t ht t' ht' => ?_⟩
    obtain ⟨e, he, rfl⟩ := h.within t (List.mem_of_mem_filter ht)
    rw [List.mem_singleton.mp ht']
    exact hlast e he
  within t ht := by
    rcases List.mem_append.mp ht with ht | ht
    · obtain ⟨e, he, rfl⟩ := h.within t (List.mem_of_mem_filter ht)
      exact ⟨e, List.mem_append_left _ he, rfl⟩
    · exact ⟨(c, some true), by simp, (List.mem_singleton.mp ht).symm⟩
  seen now hnow := by
    have hnew : L.admittedTo k [(c, some true)] = [L.time c] := by simp [admittedTo, hkey]
    rw [admittedTo_append, hnew, List.filter_append, List.filter_append,
      filter_forgotten hstart (hnow (c, some true) (by simp)),
      h.seen now fun e he => hnow e (List.mem_append_left _ he)]

omit [DecidableEq K] in
/-- A call of another key, or of none, leaves the log as it is. -/
theorem Slides.log_other (hL : Slides L limit start log) (hkey : L.key c ≠ some k) {s : σ} :
    log (L.call c s).2 k = log s k := by
  cases hc : L.key c with
  | none => exact congrFun (hL.unlimited hc s) k
  | some k' => exact hL.other hc (fun heq => hkey (by rw [hc, heq])) s

/-- One call keeps the logs. -/
theorem Slides.logged_call (hL : Slides L limit start log) (hstart : Monotone start) {s : σ}
    (hlast : ∀ e ∈ entries, L.time e.1 ≤ L.time c) (h : Logged L start k entries (log s k)) :
    Logged L start k (entries ++ [(c, (L.call c s).1)]) (log (L.call c s).2 k) := by
  by_cases hkey : L.key c = some k
  · have hle : ∀ t ∈ log s k, t ≤ L.time c := by
      intro t ht
      obtain ⟨e, he, rfl⟩ := h.within t ht
      exact hlast e he
    have hoffer := hL.offered hkey h.sorted hle
    generalize (L.call c s).1 = answer at hoffer ⊢
    generalize log (L.call c s).2 k = times' at hoffer ⊢
    cases hoffer with
    | failed => exact h.skip (by simp)
    | rejected _ => exact h.reject hstart
    | admitted _ => exact h.admit hstart hkey hlast
  · rw [hL.log_other hkey]
    exact h.skip fun hnot => hkey hnot.1

/-- After an ordered run the logs hold what a later window can see. -/
theorem Slides.logged (hL : Slides L limit start log) (hstart : Monotone start) {s : σ}
    (hs : log s k = []) {calls : List C} (hordered : Ordered L calls) :
    Logged L start k (L.transcript s calls) (log (L.after s calls) k) := by
  induction calls using List.reverseRecOn with
  | nil => exact hs ▸ logged_nil
  | append_singleton calls c ih =>
    obtain ⟨hbefore, -, hlast⟩ := ordered_append.mp hordered
    rw [transcript_append]
    have hafter : L.after s (calls ++ [c]) = (L.call c (L.after s calls)).2 :=
      play_append s calls [c]
    rw [hafter]
    refine hL.logged_call hstart (fun e he => ?_) (ih hbefore)
    have hmem : e.1 ∈ (L.transcript s calls).map Prod.fst := List.mem_map_of_mem he
    rw [map_fst_transcript] at hmem
    exact hlast e.1 hmem c (by simp)

/-- What is logged at a call is what was admitted in the window that ends at it. -/
theorem Logged.length_filter (h : Logged L start k entries times)
    (hlast : ∀ e ∈ entries, L.time e.1 ≤ L.time c) :
    (times.filter (start (L.time c) < ·)).length
      = (L.admittedTo k entries).countP (endingAt start (L.time c)) := by
  rw [h.seen _ hlast, ← List.countP_eq_length_filter]
  refine List.countP_congr fun t ht => ?_
  obtain ⟨e, he, rfl⟩ := L.mem_admittedTo ht
  simp [endingAt, hlast e he]

section

variable (hL : Slides L limit start log) (hstart : Monotone start) {s : σ} (hs : log s k = [])

include hL hstart hs

/-- An admitted call has found room in its window, and a rejected one none. -/
theorem Slides.answer {past : List C} (hordered : Ordered L (past ++ [c]))
    (hkey : L.key c = some k) :
    Offered limit start (L.time c) (log (L.after s past) k) (L.call c (L.after s past)).1
        (log (L.call c (L.after s past)).2 k) ∧
      ((log (L.after s past) k).filter (start (L.time c) < ·)).length
        = (L.admittedTo k (L.transcript s past)).countP (endingAt start (L.time c)) := by
  obtain ⟨hpast, -, hlast⟩ := ordered_append.mp hordered
  have hentries : ∀ e ∈ L.transcript s past, L.time e.1 ≤ L.time c := by
    intro e he
    have hmem : e.1 ∈ (L.transcript s past).map Prod.fst := List.mem_map_of_mem he
    rw [map_fst_transcript] at hmem
    exact hlast e.1 hmem c (by simp)
  have hlogged := hL.logged hstart hs hpast
  refine ⟨hL.offered hkey hlogged.sorted fun t ht => ?_, hlogged.length_filter hentries⟩
  obtain ⟨e, he, rfl⟩ := hlogged.within t ht
  exact hentries e he

theorem Slides.rejected {past : List C} (hordered : Ordered L (past ++ [c]))
    (hkey : L.key c = some k) (hanswer : (L.call c (L.after s past)).1 = some false) :
    limit ≤ (L.admittedTo k (L.transcript s past)).countP (endingAt start (L.time c)) := by
  obtain ⟨hoffer, hcount⟩ := hL.answer hstart hs hordered hkey
  rw [hanswer] at hoffer
  generalize log (L.call c (L.after s past)).2 k = times' at hoffer
  cases hoffer with
  | rejected full => exact hcount ▸ full

theorem Slides.admitted {past : List C} (hordered : Ordered L (past ++ [c]))
    (hkey : L.key c = some k) (hanswer : (L.call c (L.after s past)).1 = some true) :
    (L.admittedTo k (L.transcript s past)).countP (endingAt start (L.time c)) < limit := by
  obtain ⟨hoffer, hcount⟩ := hL.answer hstart hs hordered hkey
  rw [hanswer] at hoffer
  generalize log (L.call c (L.after s past)).2 k = times' at hoffer
  cases hoffer with
  | admitted room => exact hcount ▸ room

/-- No window holds more than `limit` admitted calls: the last of them has seen the others. -/
theorem Slides.bounded {window : T → Bool} (hwindow : Spans start window) {calls : List C}
    (hordered : Ordered L calls) :
    (L.admittedTo k (L.transcript s calls)).countP window ≤ limit := by
  induction calls using List.reverseRecOn with
  | nil => exact Nat.zero_le _
  | append_singleton past c ih =>
    obtain ⟨hpast, -, hlast⟩ := ordered_append.mp hordered
    have hle := ih hpast
    have hsnoc : L.transcript s (past ++ [c])
        = L.transcript s past ++ [(c, (L.call c (L.after s past)).1)] :=
      transcript_append L s past [c]
    rw [hsnoc, admittedTo_append, List.countP_append]
    by_cases hadmitted : L.key c = some k ∧ (L.call c (L.after s past)).1 = some true
    · have hnew : L.admittedTo k [(c, (L.call c (L.after s past)).1)] = [L.time c] := by
        simp [admittedTo, hadmitted]
      rw [hnew, List.countP_singleton]
      by_cases hin : window (L.time c) = true
      · have hseen : (L.admittedTo k (L.transcript s past)).countP window
            ≤ (L.admittedTo k (L.transcript s past)).countP (endingAt start (L.time c)) := by
          refine List.countP_mono_left fun t ht htin => ?_
          obtain ⟨e, he, rfl⟩ := L.mem_admittedTo ht
          have hmem : e.1 ∈ (L.transcript s past).map Prod.fst := List.mem_map_of_mem he
          rw [map_fst_transcript] at hmem
          have hbefore := hlast e.1 hmem c (by simp)
          exact decide_eq_true ⟨hwindow _ _ hin htin hbefore, hbefore⟩
        have hroom := hL.admitted hstart hs hordered hadmitted.1 hadmitted.2
        rw [if_pos hin]
        omega
      · rw [if_neg hin]
        exact hle
    · rw [admittedTo_of_not L hadmitted, List.countP_nil]
      exact hle

end

/-- The calls of a key are answered as if there were no others. -/
theorem Slides.separate (hL : Slides L limit start log) (k : K) {s s' : σ}
    (hlog : log s k = log s' k) (calls : List C) :
    (L.transcript s calls).filter (fun e => decide (L.key e.1 = some k))
      = L.transcript s' (calls.filter fun c => decide (L.key c = some k)) := by
  induction calls generalizing s s' with
  | nil => rfl
  | cons c calls ih =>
    by_cases hkey : L.key c = some k
    · obtain ⟨hanswer, hnext⟩ := hL.alone hkey hlog
      rw [List.filter_cons_of_pos (by simpa using hkey), transcript, transcript,
        List.filter_cons_of_pos (by simpa using hkey), hanswer, ih hnext]
    · rw [List.filter_cons_of_neg (by simpa using hkey), transcript,
        List.filter_cons_of_neg (by simpa using hkey)]
      exact ih ((hL.log_other hkey).trans hlog)

/-- A limiter that slides is exact on every ordered run. -/
theorem Slides.exact (hL : Slides L limit start log) (hstart : Monotone start) {s : σ}
    (hs : ∀ k, log s k = []) {calls : List C} (hordered : Ordered L calls) :
    Exact L limit start s calls where
  ending k b := hL.bounded hstart (hs k) (spans_endingAt hstart b) hordered
  beginning k a := hL.bounded hstart (hs k) (spans_beginningAt a) hordered
  needed h hkey := by
    obtain ⟨past, future, rfl, rfl, hanswer⟩ := L.transcript_eq_append h
    have hpast : Ordered L (past ++ [_]) :=
      (ordered_append.mp (List.append_cons past _ future ▸ hordered)).1
    exact hL.rejected hstart (hs _) hpast hkey hanswer.symm
  separate k := hL.separate k rfl calls

end Sliding

end Limiter

end OpenMemory.Lib
