import Mathlib

/-!
# Insertion-ordered dictionaries

A dictionary keeps its entries in insertion order with distinct keys: assigning
to a key that is present replaces the value *in place*, assigning to a new key
appends, deleting closes the gap. Iteration order is therefore part of the
value, which is what code that takes "the first entry such that …" observes.

The lemmas fall in two groups. The lookup laws (`get?_set`, `get?_pop`,
`get?_filter`) describe one key at a time. The restriction laws
(`filter_set_of_pos`, `filter_set_of_neg`, `filter_pop`) say how an assignment
or a deletion acts on the entries a predicate selects, *order included*: they
are what a frame or a noninterference argument needs.
-/

namespace OpenMemory.Lib

variable {κ ν : Type}

/-- An insertion-ordered dictionary: entries with pairwise distinct keys. -/
structure Dict (κ ν : Type) where
  items : List (κ × ν)
  nodup : (items.map Prod.fst).Nodup

namespace Dict

@[ext] theorem ext {d d' : Dict κ ν} (h : d.items = d'.items) : d = d' := by
  cases d
  cases d'
  cases h
  rfl

instance [DecidableEq κ] [DecidableEq ν] : DecidableEq (Dict κ ν) := fun d d' =>
  decidable_of_iff (d.items = d'.items) ⟨ext, fun h => h ▸ rfl⟩

/-- The empty dictionary. -/
def empty : Dict κ ν := ⟨[], List.nodup_nil⟩

instance : EmptyCollection (Dict κ ν) := ⟨empty⟩

@[simp] theorem items_empty : (∅ : Dict κ ν).items = [] := rfl

/-- The values in insertion order. -/
def values (d : Dict κ ν) : List ν := d.items.map Prod.snd

/-- The keys in insertion order. -/
def keys (d : Dict κ ν) : List κ := d.items.map Prod.fst

/-- Keep the entries that satisfy `p`, in order. -/
def filter (p : κ → ν → Bool) (d : Dict κ ν) : Dict κ ν where
  items := d.items.filter fun e => p e.1 e.2
  nodup := (List.Sublist.map Prod.fst List.filter_sublist).nodup d.nodup

theorem values_filter (d : Dict κ ν) (p : ν → Bool) :
    (d.filter fun _ v => p v).values = d.values.filter p := by
  unfold values filter
  rw [List.filter_map]
  rfl

theorem filter_filter (d : Dict κ ν) (p q : κ → ν → Bool) :
    (d.filter p).filter q = d.filter fun k v => p k v && q k v := by
  refine ext ?_
  show (d.items.filter _).filter _ = _
  rw [List.filter_filter]
  exact List.filter_congr fun _ _ => Bool.and_comm _ _

variable [DecidableEq κ]

/-- Replace the entry of `k` in place, or append one. -/
def setItems (k : κ) (v : ν) : List (κ × ν) → List (κ × ν)
  | [] => [(k, v)]
  | e :: rest => if e.1 = k then (k, v) :: rest else e :: setItems k v rest

/-- Setting a key adds that key and no other. -/
theorem mem_map_fst_setItems (k : κ) (v : ν) (l : List (κ × ν)) (k' : κ) :
    k' ∈ (setItems k v l).map Prod.fst ↔ k' = k ∨ k' ∈ l.map Prod.fst := by
  induction l with
  | nil => simp [setItems]
  | cons e rest ih =>
    by_cases he : e.1 = k
    · simp [setItems, he]
    · simp only [setItems, he, if_false, List.map_cons, List.mem_cons, ih]
      tauto

/-- Keys stay distinct. -/
theorem nodup_setItems (k : κ) (v : ν) {l : List (κ × ν)}
    (h : (l.map Prod.fst).Nodup) : ((setItems k v l).map Prod.fst).Nodup := by
  induction l with
  | nil => simp [setItems]
  | cons e rest ih =>
    obtain ⟨hnot, hrest⟩ := List.nodup_cons.mp h
    by_cases he : e.1 = k
    · subst he
      simpa [setItems] using h
    · simp only [setItems, he, if_false, List.map_cons, List.nodup_cons]
      refine ⟨fun hmem => ?_, ih hrest⟩
      rcases (mem_map_fst_setItems k v rest e.1).mp hmem with heq | hmem
      · exact he heq
      · exact hnot hmem

/-- `d[k]`, when present. -/
def get? (d : Dict κ ν) (k : κ) : Option ν := d.items.lookup k

/-- `k in d`. -/
def contains (d : Dict κ ν) (k : κ) : Bool := (d.get? k).isSome

/-- `d[k] = v`. -/
def set (d : Dict κ ν) (k : κ) (v : ν) : Dict κ ν :=
  ⟨setItems k v d.items, nodup_setItems k v d.nodup⟩

/-- `d.pop(k, None)`. -/
def pop (d : Dict κ ν) (k : κ) : Dict κ ν := d.filter fun k' _ => decide (k' ≠ k)

/-! ## Lookup laws -/

theorem lookup_cons_ite (k k₀ : κ) (v₀ : ν) (l : List (κ × ν)) :
    ((k₀, v₀) :: l).lookup k = if k = k₀ then some v₀ else l.lookup k := by
  by_cases hk : k = k₀
  · simp [hk]
  · have hb : (k == k₀) = false := by simpa using hk
    simp [List.lookup_cons, hb, hk]

/-- With distinct keys, an entry is listed exactly when its key looks it up. -/
theorem mem_items_iff (d : Dict κ ν) (k : κ) (v : ν) :
    (k, v) ∈ d.items ↔ d.get? k = some v := by
  obtain ⟨l, hl⟩ := d
  show (k, v) ∈ l ↔ l.lookup k = some v
  induction l with
  | nil => simp
  | cons e rest ih =>
    obtain ⟨hnot, hrest⟩ := List.nodup_cons.mp hl
    obtain ⟨k₀, v₀⟩ := e
    by_cases hk : k = k₀
    · subst hk
      have hout : (k, v) ∉ rest := fun h => hnot (List.mem_map.mpr ⟨(k, v), h, rfl⟩)
      simp [hout, eq_comm]
    · simp [lookup_cons_ite, hk, ih hrest]

/-- A value is one that is found under some key. -/
theorem mem_values_iff (d : Dict κ ν) (v : ν) :
    v ∈ d.values ↔ ∃ k, d.get? k = some v := by
  simp only [values, List.mem_map, Prod.exists, exists_eq_right, mem_items_iff]

/-- A key is there exactly if something is found under it. -/
theorem contains_iff (d : Dict κ ν) (k : κ) :
    d.contains k = true ↔ ∃ v, d.get? k = some v :=
  Option.isSome_iff_exists

theorem contains_eq_false_iff (d : Dict κ ν) (k : κ) :
    d.contains k = false ↔ d.get? k = none := by
  simp [contains]

@[simp] theorem get?_empty (k : κ) : (∅ : Dict κ ν).get? k = none := rfl

theorem lookup_setItems (k : κ) (v : ν) (l : List (κ × ν)) (k' : κ) :
    (setItems k v l).lookup k' = if k' = k then some v else l.lookup k' := by
  induction l with
  | nil => simp [setItems, lookup_cons_ite]
  | cons e rest ih =>
    obtain ⟨k₀, v₀⟩ := e
    by_cases h₀ : k₀ = k
    · subst h₀
      by_cases hk : k' = k₀ <;> simp [setItems, lookup_cons_ite, hk]
    · by_cases hk : k' = k₀
      · subst hk
        simp [setItems, h₀]
      · simp [setItems, h₀, lookup_cons_ite, hk, ih]

/-- What is found after a key has been set. -/
theorem get?_set (d : Dict κ ν) (k : κ) (v : ν) (k' : κ) :
    (d.set k v).get? k' = if k' = k then some v else d.get? k' :=
  lookup_setItems k v d.items k'

@[simp] theorem get?_set_self (d : Dict κ ν) (k : κ) (v : ν) :
    (d.set k v).get? k = some v := by
  rw [get?_set, if_pos rfl]

theorem get?_set_of_ne (d : Dict κ ν) {k k' : κ} (v : ν) (h : k' ≠ k) :
    (d.set k v).get? k' = d.get? k' := by
  rw [get?_set, if_neg h]

/-- A new key is appended. -/
theorem setItems_of_lookup_eq_none {k : κ} (v : ν) {l : List (κ × ν)} (h : l.lookup k = none) :
    setItems k v l = l ++ [(k, v)] := by
  induction l with
  | nil => rfl
  | cons e rest ih =>
    obtain ⟨k', v'⟩ := e
    rw [lookup_cons_ite] at h
    by_cases hk : k = k'
    · rw [if_pos hk] at h
      cases h
    · rw [if_neg hk] at h
      show (if k' = k then _ else _) = _
      rw [if_neg (Ne.symm hk), ih h]
      rfl

/-- Assigning to a new key appends. -/
theorem items_set_of_get?_eq_none {d : Dict κ ν} {k : κ} (h : d.get? k = none) (v : ν) :
    (d.set k v).items = d.items ++ [(k, v)] := setItems_of_lookup_eq_none v h

/-- The later of two values for a key counts. -/
theorem setItems_setItems (k : κ) (v w : ν) (l : List (κ × ν)) :
    setItems k w (setItems k v l) = setItems k w l := by
  induction l with
  | nil => simp [setItems]
  | cons e rest ih =>
    by_cases he : e.1 = k
    · simp [setItems, he]
    · simp [setItems, he, ih]

/-- Assigning twice is assigning the second value. -/
@[simp] theorem set_set (d : Dict κ ν) (k : κ) (v w : ν) : (d.set k v).set k w = d.set k w :=
  ext (setItems_setItems k v w d.items)

/-- Setting what is there changes nothing, the order included. -/
theorem setItems_eq_self {k : κ} {v : ν} {l : List (κ × ν)} (h : l.lookup k = some v) :
    setItems k v l = l := by
  induction l with
  | nil => cases h
  | cons e rest ih =>
    obtain ⟨k₀, v₀⟩ := e
    rw [lookup_cons_ite] at h
    unfold setItems
    by_cases hk : k₀ = k
    · rw [if_pos hk.symm] at h
      cases h
      rw [if_pos hk, hk]
    · rw [if_neg (Ne.symm hk)] at h
      rw [if_neg hk, ih h]

/-- Setting a key to the value it has changes nothing. -/
theorem set_eq_self {d : Dict κ ν} {k : κ} {v : ν} (h : d.get? k = some v) : d.set k v = d :=
  ext (setItems_eq_self h)

/-- A known key keeps its place. -/
theorem map_fst_setItems {k : κ} {v : ν} {l : List (κ × ν)} (h : k ∈ l.map Prod.fst) :
    (setItems k v l).map Prod.fst = l.map Prod.fst := by
  induction l with
  | nil => cases h
  | cons e rest ih =>
    obtain ⟨k₀, v₀⟩ := e
    unfold setItems
    by_cases hk : k₀ = k
    · rw [if_pos hk, List.map_cons, List.map_cons, hk]
    · rw [if_neg hk, List.map_cons, List.map_cons, ih]
      rcases List.mem_cons.mp h with heq | hrest
      · exact absurd heq.symm hk
      · exact hrest

/-- Two dicts with one list of keys and the same values are equal. -/
theorem eq_of_keys {d d' : Dict κ ν} (hkeys : d.keys = d'.keys) (hget : ∀ k, d.get? k = d'.get? k) :
    d = d' := by
  refine ext ?_
  have hitems : ∀ c : Dict κ ν, c.items.map (fun e => (e.1, some e.2)) =
      c.keys.map fun k => (k, c.get? k) := by
    intro c
    unfold keys
    rw [List.map_map]
    refine List.map_congr_left ?_
    rintro ⟨k, v⟩ hmem
    exact Prod.ext rfl ((mem_items_iff c k v).mp hmem).symm
  have hmap : d.items.map (fun e => (e.1, some e.2)) = d'.items.map fun e => (e.1, some e.2) := by
    rw [hitems, hitems, hkeys]
    exact List.map_congr_left fun k _ => by rw [hget]
  refine (List.map_injective_iff.mpr ?_) hmap
  rintro ⟨k, v⟩ ⟨k', v'⟩ h
  cases h
  rfl

/-- What is found after a filter. -/
theorem get?_filter (d : Dict κ ν) (p : κ → ν → Bool) (k : κ) :
    (d.filter p).get? k = (d.get? k).filter (p k) := by
  ext v
  rw [← mem_items_iff, Option.filter_eq_some_iff, ← mem_items_iff]
  exact List.mem_filter

theorem get?_filter_eq_some {d : Dict κ ν} {p : κ → ν → Bool} {k : κ} {v : ν} :
    (d.filter p).get? k = some v ↔ d.get? k = some v ∧ p k v = true := by
  rw [get?_filter, Option.filter_eq_some_iff]

/-- What is found after a key has been popped. -/
theorem get?_pop (d : Dict κ ν) (k k' : κ) :
    (d.pop k).get? k' = if k' = k then none else d.get? k' := by
  rw [pop, get?_filter]
  by_cases hk : k' = k
  · simp [hk]
  · simp only [ne_eq, hk, not_false_eq_true, decide_true, if_false]
    cases d.get? k' <;> rfl

@[simp] theorem get?_pop_self (d : Dict κ ν) (k : κ) : (d.pop k).get? k = none := by
  rw [get?_pop, if_pos rfl]

theorem get?_pop_of_ne (d : Dict κ ν) {k k' : κ} (h : k' ≠ k) :
    (d.pop k).get? k' = d.get? k' := by
  rw [get?_pop, if_neg h]

theorem contains_set (d : Dict κ ν) (k : κ) (v : ν) (k' : κ) :
    (d.set k v).contains k' = (decide (k' = k) || d.contains k') := by
  unfold contains
  rw [get?_set]
  by_cases hk : k' = k <;> simp [hk]

theorem contains_pop (d : Dict κ ν) (k k' : κ) :
    (d.pop k).contains k' = (decide (k' ≠ k) && d.contains k') := by
  unfold contains
  rw [get?_pop]
  by_cases hk : k' = k <;> simp [hk]

/-! ## Restriction laws -/

/-- Filters that agree on the items agree. -/
theorem filter_congr {d : Dict κ ν} {p q : κ → ν → Bool}
    (h : ∀ k v, d.get? k = some v → p k v = q k v) : d.filter p = d.filter q := by
  refine ext (List.filter_congr fun e he => ?_)
  exact h e.1 e.2 ((mem_items_iff d e.1 e.2).mp he)

/-- Restriction keeps everything exactly when the predicate holds throughout. -/
theorem filter_eq_self {d : Dict κ ν} {p : κ → ν → Bool}
    (h : ∀ k v, d.get? k = some v → p k v = true) : d.filter p = d := by
  refine ext (List.filter_eq_self.mpr fun e he => ?_)
  exact h e.1 e.2 ((mem_items_iff d e.1 e.2).mp he)

/-- An assignment whose new value is selected, and whose old value (if any) was,
happens inside the restriction. -/
theorem filter_set_of_pos {d : Dict κ ν} {p : κ → ν → Bool} {k : κ} {v : ν}
    (hv : p k v = true) (hold : ∀ w, d.get? k = some w → p k w = true) :
    (d.set k v).filter p = (d.filter p).set k v := by
  have hmem : ∀ w, (k, w) ∈ d.items → p k w = true := fun w hw =>
    hold w ((mem_items_iff d k w).mp hw)
  refine ext ?_
  show (setItems k v d.items).filter _ = setItems k v (d.items.filter _)
  generalize d.items = l at hmem ⊢
  induction l with
  | nil => simp [setItems, hv]
  | cons e rest ih =>
    obtain ⟨k₀, v₀⟩ := e
    have ih' := ih fun w hw => hmem w (List.mem_cons_of_mem _ hw)
    by_cases h₀ : k₀ = k
    · subst h₀
      have hp₀ := hmem v₀ List.mem_cons_self
      simp [setItems, hv, hp₀]
    · by_cases hp₀ : p k₀ v₀ = true
      · simp [setItems, h₀, hp₀, ih']
      · simp [setItems, h₀, hp₀, ih']

/-- An assignment whose new value is not selected, and whose old value (if any)
was not, leaves the restriction alone. -/
theorem filter_set_of_neg {d : Dict κ ν} {p : κ → ν → Bool} {k : κ} {v : ν}
    (hv : p k v = false) (hold : ∀ w, d.get? k = some w → p k w = false) :
    (d.set k v).filter p = d.filter p := by
  have hmem : ∀ w, (k, w) ∈ d.items → p k w = false := fun w hw =>
    hold w ((mem_items_iff d k w).mp hw)
  refine ext ?_
  show (setItems k v d.items).filter _ = d.items.filter _
  generalize d.items = l at hmem ⊢
  induction l with
  | nil => simp [setItems, hv]
  | cons e rest ih =>
    obtain ⟨k₀, v₀⟩ := e
    have ih' := ih fun w hw => hmem w (List.mem_cons_of_mem _ hw)
    by_cases h₀ : k₀ = k
    · subst h₀
      have hp₀ := hmem v₀ List.mem_cons_self
      simp [setItems, hv, hp₀]
    · by_cases hp₀ : p k₀ v₀ = true
      · simp [setItems, h₀, hp₀, ih']
      · simp [setItems, h₀, hp₀, ih']

/-- Popping a key and filtering may change places. -/
theorem filter_pop (d : Dict κ ν) (p : κ → ν → Bool) (k : κ) :
    (d.pop k).filter p = (d.filter p).pop k := by
  rw [pop, pop, filter_filter, filter_filter]
  exact filter_congr fun _ _ _ => Bool.and_comm _ _

/-- Deleting a key that is absent changes nothing. -/
theorem pop_of_get?_eq_none {d : Dict κ ν} {k : κ} (h : d.get? k = none) :
    d.pop k = d := by
  refine filter_eq_self fun k' v hv => ?_
  have hne : k' ≠ k := by
    rintro rfl
    rw [h] at hv
    cases hv
  simpa using hne

/-! ### Restricting by key

The kept keys may change with the update itself, as long as they agree elsewhere. -/

section Keys

variable {d : Dict κ ν} {p q : κ → Bool} {k : κ}

/-- A key that the filter keeps is set behind the filter. -/
theorem filterKeys_set_of_pos {v : ν} (hpq : ∀ i, i ≠ k → q i = p i) (hq : q k = true)
    (hold : ∀ w, d.get? k = some w → p k = true) :
    (d.set k v).filter (fun i _ => q i) = (d.filter fun i _ => p i).set k v := by
  rw [filter_set_of_pos hq fun _ _ => hq]
  congr 1
  refine filter_congr fun i w hw => ?_
  by_cases hi : i = k
  · subst hi
    rw [hq, hold w hw]
  · exact hpq i hi

/-- One that it drops does not show. -/
theorem filterKeys_set_of_neg {v : ν} (hpq : ∀ i, i ≠ k → q i = p i) (hq : q k = false)
    (hp : p k = false) : (d.set k v).filter (fun i _ => q i) = d.filter fun i _ => p i := by
  rw [filter_set_of_neg hq fun _ _ => hq]
  refine filter_congr fun i _ _ => ?_
  by_cases hi : i = k
  · rw [hi, hq, hp]
  · exact hpq i hi

/-- Popping a key pops it behind the filter. -/
theorem filterKeys_pop (hpq : ∀ i, i ≠ k → q i = p i) :
    (d.pop k).filter (fun i _ => q i) = (d.filter fun i _ => p i).pop k := by
  rw [← filter_pop]
  refine filter_congr fun i w hw => hpq i ?_
  rintro rfl
  rw [get?_pop_self] at hw
  cases hw

/-- A key that the filter drops does not show when it goes. -/
theorem filterKeys_pop_of_neg (hpq : ∀ i, i ≠ k → q i = p i) (hp : p k = false) :
    (d.pop k).filter (fun i _ => q i) = d.filter fun i _ => p i := by
  rw [filterKeys_pop hpq]
  refine pop_of_get?_eq_none ?_
  rw [get?_filter, hp]
  cases d.get? k <;> rfl

end Keys

/-! ### Rewriting values -/

omit [DecidableEq κ] in
theorem map_fst_mapItems (f : κ → ν → ν) (l : List (κ × ν)) :
    (l.map fun e => (e.1, f e.1 e.2)).map Prod.fst = l.map Prod.fst := by
  rw [List.map_map]
  rfl

omit [DecidableEq κ] in
/-- Rewrite every value in place. -/
def mapValues (f : κ → ν → ν) (d : Dict κ ν) : Dict κ ν where
  items := d.items.map fun e => (e.1, f e.1 e.2)
  nodup := by
    rw [map_fst_mapItems]
    exact d.nodup

/-- What is found after a map on values. -/
theorem get?_mapValues (f : κ → ν → ν) (d : Dict κ ν) (k : κ) :
    (d.mapValues f).get? k = (d.get? k).map (f k) := by
  show (d.items.map fun e => (e.1, f e.1 e.2)).lookup k = (d.items.lookup k).map (f k)
  induction d.items with
  | nil => rfl
  | cons e rest ih =>
    obtain ⟨k₀, v₀⟩ := e
    rw [List.map_cons, lookup_cons_ite, lookup_cons_ite, ih]
    by_cases hk : k = k₀
    · simp [hk]
    · simp [hk]

theorem get?_mapValues_eq_some {f : κ → ν → ν} {d : Dict κ ν} {k : κ} {v : ν} :
    (d.mapValues f).get? k = some v ↔ ∃ w, d.get? k = some w ∧ f k w = v := by
  rw [get?_mapValues, Option.map_eq_some_iff]

@[simp] theorem contains_mapValues (f : κ → ν → ν) (d : Dict κ ν) (k : κ) :
    (d.mapValues f).contains k = d.contains k := by
  unfold contains
  rw [get?_mapValues, Option.isSome_map]

/-! ### Overlays -/

omit [DecidableEq κ] in
/-- The two parts of an overlay share no key. -/
theorem nodup_overlay (base own : Dict κ ν) (p : κ → Bool) :
    (((base.filter fun k _ => !p k).items ++ (own.filter fun k _ => p k).items).map
      Prod.fst).Nodup := by
  rw [List.map_append, List.nodup_append]
  refine ⟨(base.filter _).nodup, (own.filter _).nodup, ?_⟩
  intro k hk k' hk' heq
  subst heq
  obtain ⟨e, he, rfl⟩ := List.mem_map.mp hk
  obtain ⟨e', he', heq⟩ := List.mem_map.mp hk'
  have hout : (!p e.1) = true := (List.mem_filter.mp he).2
  have hin : p e'.1 = true := (List.mem_filter.mp he').2
  rw [heq] at hin
  rw [hin] at hout
  cases hout

omit [DecidableEq κ] in
/-- `base` with the entries under selected keys taken from `own`. -/
def overlay (base own : Dict κ ν) (p : κ → Bool) : Dict κ ν where
  items := (base.filter fun k _ => !p k).items ++ (own.filter fun k _ => p k).items
  nodup := nodup_overlay base own p

/-- An overlay answers for its own keys, the base for the others. -/
theorem get?_overlay (base own : Dict κ ν) (p : κ → Bool) (k : κ) :
    (base.overlay own p).get? k = if p k then own.get? k else base.get? k := by
  ext v
  rw [← mem_items_iff]
  show (k, v) ∈ _ ++ _ ↔ _
  rw [List.mem_append, mem_items_iff, mem_items_iff, get?_filter_eq_some, get?_filter_eq_some]
  cases p k with
  | true => simp
  | false => simp

/-! ### Setting many keys -/

/-- The items set one after the other. -/
def setAll (l : List (κ × ν)) (d : Dict κ ν) : Dict κ ν := l.foldl (fun d e => d.set e.1 e.2) d

/-- Keys that are not set keep what they have. -/
theorem get?_setAll_of_notMem {l : List (κ × ν)} {k : κ} (h : k ∉ l.map Prod.fst) (d : Dict κ ν) :
    (setAll l d).get? k = d.get? k := by
  induction l generalizing d with
  | nil => rfl
  | cons e rest ih =>
    have hne : k ≠ e.1 := fun heq => h (heq ▸ List.mem_cons_self)
    have hrest : k ∉ rest.map Prod.fst := fun hmem => h (List.mem_cons_of_mem _ hmem)
    exact (ih hrest (d.set e.1 e.2)).trans (get?_set_of_ne d e.2 hne)

/-- The last value set for a key is the one it has. -/
theorem get?_setAll {l pre post : List (κ × ν)} {k : κ} {v : ν} (hl : l = pre ++ (k, v) :: post)
    (hlast : k ∉ post.map Prod.fst) (d : Dict κ ν) : (setAll l d).get? k = some v := by
  subst hl
  unfold setAll
  rw [List.foldl_append, List.foldl_cons]
  exact (get?_setAll_of_notMem hlast _).trans (get?_set_self _ k v)

/-- Every key of a list has a last item. -/
theorem exists_last {l : List (κ × ν)} {k : κ} (h : k ∈ l.map Prod.fst) :
    ∃ pre v post, l = pre ++ (k, v) :: post ∧ k ∉ post.map Prod.fst := by
  induction l with
  | nil => cases h
  | cons e rest ih =>
    by_cases hrest : k ∈ rest.map Prod.fst
    · obtain ⟨pre, v, post, rfl, hlast⟩ := ih hrest
      exact ⟨e :: pre, v, post, rfl, hlast⟩
    · rcases List.mem_cons.mp h with rfl | hmem
      · exact ⟨[], e.2, rest, rfl, hrest⟩
      · exact absurd hmem hrest

/-- Setting known keys brings in no key and keeps the order. -/
theorem keys_setAll {l : List (κ × ν)} {d : Dict κ ν} (h : ∀ k ∈ l.map Prod.fst, k ∈ d.keys) :
    (setAll l d).keys = d.keys := by
  induction l generalizing d with
  | nil => rfl
  | cons e rest ih =>
    have hset : (d.set e.1 e.2).keys = d.keys := map_fst_setItems (h e.1 List.mem_cons_self)
    have hrest : (setAll rest (d.set e.1 e.2)).keys = (d.set e.1 e.2).keys := by
      refine ih fun k hk => ?_
      rw [hset]
      exact h k (List.mem_cons_of_mem _ hk)
    exact hrest.trans hset

/-- Setting items changes nothing exactly when the last one of each key repeats its value. -/
theorem setAll_eq_self_iff {l : List (κ × ν)} {d : Dict κ ν} :
    setAll l d = d ↔ ∀ pre k v post, l = pre ++ (k, v) :: post → k ∉ post.map Prod.fst →
      d.get? k = some v := by
  constructor
  · intro h pre k v post hl hlast
    rw [← h]
    exact get?_setAll hl hlast d
  · intro h
    have hmem : ∀ k ∈ l.map Prod.fst, k ∈ d.keys := by
      intro k hk
      obtain ⟨pre, v, post, hl, hlast⟩ := exists_last hk
      exact List.mem_map_of_mem ((mem_items_iff d k v).mpr (h pre k v post hl hlast))
    refine eq_of_keys (keys_setAll hmem) fun k => ?_
    by_cases hk : k ∈ l.map Prod.fst
    · obtain ⟨pre, v, post, hl, hlast⟩ := exists_last hk
      rw [get?_setAll hl hlast, h pre k v post hl hlast]
    · exact get?_setAll_of_notMem hk d

/-- Where two lists of items go together, so do their lookups. -/
theorem lookup_of_forall₂ {ν' : Type} {p : ν → ν' → Prop}
    {l : List (κ × ν)} {l' : List (κ × ν')}
    (h : List.Forall₂ (fun e e' => e'.1 = e.1 ∧ p e.2 e'.2) l l') {k : κ} {v : ν}
    (hv : l.lookup k = some v) : ∃ v', l'.lookup k = some v' ∧ p v v' := by
  induction h with
  | nil => cases hv
  | @cons e e' l l' he hrest ih =>
    obtain ⟨k₀, v₀⟩ := e
    obtain ⟨k₁, v₁⟩ := e'
    obtain ⟨rfl, hp⟩ := he
    rw [lookup_cons_ite] at hv ⊢
    by_cases hk : k = k₁
    · rw [if_pos hk] at hv ⊢
      cases hv
      exact ⟨v₁, rfl, hp⟩
    · rw [if_neg hk] at hv ⊢
      exact ih hv

end Dict

end OpenMemory.Lib
