import OpenMemory.Lib.Dict

/-!
# Grouping by key

`defaultdict(list)` filled by appending: the group of a key is what was appended under it, in
order.
-/

namespace OpenMemory.Lib

namespace Dict

variable {κ α : Type} [DecidableEq κ]

/-- `groups[key].append(a)`. -/
def append (groups : Dict κ (List α)) (key : κ) (a : α) : Dict κ (List α) :=
  groups.set key ((groups.get? key).getD [] ++ [a])

/-- `groups[key]`, empty if there is none. -/
def group (groups : Dict κ (List α)) (key : κ) : List α := (groups.get? key).getD []

theorem group_append (groups : Dict κ (List α)) (key key' : κ) (a : α) :
    (groups.append key a).group key'
      = groups.group key' ++ if key = key' then [a] else [] := by
  unfold append group
  rw [get?_set]
  by_cases h : key = key'
  · subst h
    simp
  · simp [h, Ne.symm h]

/-- Everything that is appended, with its key. -/
def appendAll (groups : Dict κ (List α)) (entries : List (κ × α)) : Dict κ (List α) :=
  entries.foldl (fun groups e => groups.append e.1 e.2) groups

theorem appendAll_append (groups : Dict κ (List α)) (l l' : List (κ × α)) :
    groups.appendAll (l ++ l') = (groups.appendAll l).appendAll l' := by
  unfold appendAll
  rw [List.foldl_append]

theorem group_appendAll (groups : Dict κ (List α)) (entries : List (κ × α)) (key : κ) :
    (groups.appendAll entries).group key
      = groups.group key ++ (entries.filter fun e => decide (e.1 = key)).map Prod.snd := by
  unfold appendAll
  induction entries generalizing groups with
  | nil => simp
  | cons e entries ih =>
    rw [List.foldl_cons, ih, group_append, List.append_assoc]
    by_cases h : e.1 = key <;> simp [h]

theorem get?_append_ne_nil {groups : Dict κ (List α)} (h : ∀ key, groups.get? key ≠ some [])
    (key : κ) (a : α) (key' : κ) : (groups.append key a).get? key' ≠ some [] := by
  unfold append
  rw [get?_set]
  by_cases hkey : key' = key
  · simp [hkey]
  · simpa [hkey] using h key'

/-- The groups that there are have elements. -/
theorem get?_appendAll_ne_nil {groups : Dict κ (List α)} (h : ∀ key, groups.get? key ≠ some [])
    (entries : List (κ × α)) (key : κ) : (groups.appendAll entries).get? key ≠ some [] := by
  unfold appendAll
  induction entries generalizing groups with
  | nil => exact h key
  | cons e entries ih => exact ih (get?_append_ne_nil h e.1 e.2)

theorem get?_appendAll_eq_some {entries : List (κ × α)} {key : κ} {items : List α} :
    ((∅ : Dict κ (List α)).appendAll entries).get? key = some items ↔
      items = ((∅ : Dict κ (List α)).appendAll entries).group key ∧ items ≠ [] := by
  have hnone : ∀ key, (∅ : Dict κ (List α)).get? key ≠ some [] := fun key => by simp
  have hne := get?_appendAll_ne_nil hnone entries key
  unfold group
  cases hget : ((∅ : Dict κ (List α)).appendAll entries).get? key with
  | none => simp
  | some items' =>
    rw [hget] at hne
    simp only [Option.some.injEq, Option.getD_some]
    exact ⟨fun heq => ⟨heq.symm, fun hnil => hne (by rw [heq, hnil])⟩, fun h => h.1.symm⟩

end Dict

/-- A list in which each element is repeated some times has no repetition if each is repeated once
at most. -/
theorem nodup_flatMap_replicate {α β : Type} {key : α → β} {l : List α} (hl : (l.map key).Nodup)
    (times : α → Nat) :
    ((l.flatMap fun a => List.replicate (times a) a).map key).Nodup ↔ ∀ a ∈ l, times a ≤ 1 := by
  induction l with
  | nil => simp
  | cons a l ih =>
    rw [List.map_cons, List.nodup_cons] at hl
    rw [List.flatMap_cons, List.map_append, List.map_replicate, List.nodup_append,
      List.nodup_replicate, ih hl.2, List.forall_mem_cons]
    constructor
    · exact fun h => ⟨h.1, h.2.1⟩
    · refine fun h => ⟨h.1, h.2, fun b hb c hc hbc => hl.1 ?_⟩
      obtain rfl := (List.mem_replicate.mp hb).2
      obtain ⟨d, hd, rfl⟩ := List.mem_map.mp hc
      obtain ⟨e, he, hde⟩ := List.mem_flatMap.mp hd
      obtain rfl := (List.mem_replicate.mp hde).2
      exact List.mem_map.mpr ⟨d, he, hbc.symm⟩

end OpenMemory.Lib
