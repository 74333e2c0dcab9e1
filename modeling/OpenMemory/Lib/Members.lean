import OpenMemory.Lib.Layouts

/-!
# Members by their names

A reader that looks the members of an object up by their names sees neither their order nor whether
`null` stands for one that is not there. A writer lists its fields with what they hold and leaves
the empty ones out (`present`) or writes `null` for them (`nulled`); `Views` is what a reader finds
of the fields, also when the members have changed places (`Rearranges`), as they do in a text that
is printed in key order.
-/

namespace OpenMemory.Lib

namespace JsonValue

/-! ## Looking up -/

section

variable {key : String} {value : JsonValue} {members members' : List (String × JsonValue)}

/-- A name that is not among the members is not found. -/
theorem member_eq_none (h : key ∉ members.map Prod.fst) : member key members = none := by
  by_contra hsome
  obtain ⟨value, hvalue⟩ := Option.ne_none_iff_exists'.mp hsome
  exact h (List.mem_map.mpr ⟨_, mem_of_member hvalue, rfl⟩)

/-- Where no two members have one name, each of them is found. -/
theorem member_eq_some_iff (h : (members.map Prod.fst).Nodup) :
    member key members = some value ↔ (key, value) ∈ members := by
  refine ⟨mem_of_member, fun hin => ?_⟩
  -- The last member of a name counts; there is one only.
  induction members with
  | nil => exact absurd hin List.not_mem_nil
  | cons m members ih =>
    obtain ⟨name, first⟩ := m
    rw [List.map_cons, List.nodup_cons] at h
    rw [member]
    rcases List.mem_cons.mp hin with heq | hlater
    · cases heq
      rw [member_eq_none h.1, Option.none_or, if_pos rfl]
    · rw [ih h.2 hlater, Option.some_or]

/-- With unique names, the order of the members does not matter. -/
theorem member_perm (h : (members.map Prod.fst).Nodup) (hperm : members'.Perm members) :
    member key members' = member key members := by
  have h' : (members'.map Prod.fst).Nodup := (hperm.map Prod.fst).nodup_iff.mpr h
  refine Option.ext fun value => ?_
  rw [member_eq_some_iff h, member_eq_some_iff h', hperm.mem_iff]

/-- Changing the values changes what is found. -/
theorem member_map (f : JsonValue → JsonValue) :
    member key (members.map fun m => (m.1, f m.2)) = (member key members).map f := by
  induction members with
  | nil => rfl
  | cons m members ih =>
    rw [List.map_cons, member, ih, member]
    cases member key members with
    | some value => rfl
    | none =>
      rw [Option.map_none, Option.none_or, Option.none_or]
      split_ifs <;> rfl

end

/-! ## Fields -/

/-- The members of the fields that hold something. -/
def present (fields : List (String × Option JsonValue)) : List (String × JsonValue) :=
  fields.filterMap fun field => field.2.map (field.1, ·)

/-- The members of all fields. -/
def nulled (fields : List (String × Option JsonValue)) : List (String × JsonValue) :=
  fields.map fun field => (field.1, field.2.getD .null)

theorem map_fst_nulled (fields : List (String × Option JsonValue)) :
    (nulled fields).map Prod.fst = fields.map Prod.fst := by
  unfold nulled
  rw [List.map_map]
  rfl

theorem map_fst_present (fields : List (String × Option JsonValue)) :
    ((present fields).map Prod.fst).Sublist (fields.map Prod.fst) := by
  induction fields with
  | nil => exact .slnil
  | cons field fields ih =>
    obtain ⟨name, value⟩ := field
    cases value with
    | none => exact ih.cons _
    | some value => exact ih.cons_cons _

/-- A field that holds nothing is written as `null`. -/
theorem mem_nulled {fields : List (String × Option JsonValue)} {key : String} {value : JsonValue} :
    (key, value) ∈ nulled fields ↔ ∃ held, (key, held) ∈ fields ∧ held.getD .null = value := by
  unfold nulled
  simp only [List.mem_map, Prod.mk.injEq, Prod.exists]
  constructor
  · rintro ⟨name, held, hin, rfl, rfl⟩
    exact ⟨held, hin, rfl⟩
  · rintro ⟨held, hin, rfl⟩
    exact ⟨key, held, hin, rfl, rfl⟩

/-- A field that holds nothing is left out. -/
theorem mem_present {fields : List (String × Option JsonValue)} {key : String} {value : JsonValue} :
    (key, value) ∈ present fields ↔ (key, some value) ∈ fields := by
  unfold present
  simp only [List.mem_filterMap, Option.map_eq_some_iff, Prod.mk.injEq, Prod.exists]
  constructor
  · rintro ⟨name, held, hin, value', rfl, rfl, rfl⟩
    exact hin
  · exact fun hin => ⟨key, _, hin, value, rfl, rfl, rfl⟩

/-- Are the floats of what the fields hold written as floats? -/
def FieldsHaveLiterals : List (String × Option JsonValue) → Prop
  | [] => True
  | (_, held) :: fields => (∀ value ∈ held, HasLiterals value) ∧ FieldsHaveLiterals fields

/-- The members have literals when what the fields hold has. -/
theorem membersHaveLiterals_present {fields : List (String × Option JsonValue)}
    (h : FieldsHaveLiterals fields) : MembersHaveLiterals (present fields) := by
  induction fields with
  | nil => exact trivial
  | cons field fields ih =>
    obtain ⟨name, held⟩ := field
    obtain ⟨hfirst, hrest⟩ := h
    cases held with
    | none => exact ih hrest
    | some value => exact ⟨hfirst value rfl, ih hrest⟩

theorem literals_some {value : JsonValue} (h : HasLiterals value) :
    ∀ held ∈ some value, HasLiterals held := by
  intro held hheld
  rwa [← Option.mem_some_iff.mp hheld]

theorem literals_map {α : Type} {item : Option α} {f : α → JsonValue}
    (h : ∀ a ∈ item, HasLiterals (f a)) : ∀ held ∈ item.map f, HasLiterals held := by
  intro held hheld
  obtain ⟨a, ha, rfl⟩ := Option.map_eq_some_iff.mp hheld
  exact h a ha

theorem hasLiterals_arr {α : Type} {items : List α} {f : α → JsonValue}
    (h : ∀ item ∈ items, HasLiterals (f item)) : HasLiterals (.arr (items.map f)) := by
  induction items with
  | nil => exact trivial
  | cons item items ih =>
    obtain ⟨hfirst, hrest⟩ := List.forall_mem_cons.mp h
    exact ⟨hfirst, ih hrest⟩

/-! ## Changed places -/

/-- Nothing changes but the order in which members stand. -/
structure Rearranges (f : JsonValue → JsonValue) : Prop where
  bool : ∀ b, f (.bool b) = .bool b
  int : ∀ n, f (.int n) = .int n
  float : ∀ literal, f (.float literal) = .float literal
  str : ∀ s, f (.str s) = .str s
  null : f .null = .null
  arr : ∀ items, f (.arr items) = .arr (items.map f)
  obj : ∀ members, ∃ members', f (.obj members) = .obj members' ∧
    members'.Perm (members.map fun m => (m.1, f m.2))

theorem rearranges_id : Rearranges id where
  bool _ := rfl
  int _ := rfl
  float _ := rfl
  str _ := rfl
  null := rfl
  arr items := by rw [List.map_id]; rfl
  obj members := ⟨members, rfl, by rw [show (fun m : String × JsonValue => (m.1, id m.2)) = id from
    rfl, List.map_id]⟩

theorem sortedAll_eq_map (items : List JsonValue) : sortedAll items = items.map sorted := by
  induction items with
  | nil => rfl
  | cons item items ih => rw [sortedAll, ih, List.map_cons]

theorem sortedMembers_eq_map (members : List (String × JsonValue)) :
    sortedMembers members = members.map fun m => (m.1, sorted m.2) := by
  induction members with
  | nil => rfl
  | cons m members ih => rw [sortedMembers, ih, List.map_cons]

/-- Sorting the members at every level is a rearrangement. -/
theorem rearranges_sorted : Rearranges sorted where
  bool _ := rfl
  int _ := rfl
  float _ := rfl
  str _ := rfl
  null := rfl
  arr items := by rw [sorted, sortedAll_eq_map]
  obj members := by
    refine ⟨_, rfl, ?_⟩
    rw [← sortedMembers_eq_map]
    exact List.perm_insertionSort _ _

/-- What a reader finds of the fields, up to a rearrangement of what they hold. -/
structure Views (f : JsonValue → JsonValue) (fields : List (String × Option JsonValue))
    (members : List (String × JsonValue)) : Prop where
  held : ∀ {key value}, fields.lookup key = some (some value) → member key members = some (f value)
  empty : ∀ {key}, fields.lookup key = some none →
    member key members = none ∨ member key members = some .null
  keys : ∀ m ∈ members, m.1 ∈ fields.map Prod.fst

theorem mem_of_lookup {α : Type} {key : String} {value : α} {fields : List (String × α)}
    (h : fields.lookup key = some value) : (key, value) ∈ fields := by
  induction fields with
  | nil => cases h
  | cons field fields ih =>
    obtain ⟨name, first⟩ := field
    rw [List.lookup_cons] at h
    split at h
    · rename_i hname
      cases h
      rw [eq_of_beq hname]
      exact List.mem_cons_self
    · exact List.mem_cons_of_mem _ (ih h)

/-- The members of some fields with their nulls, and of others without. -/
theorem Rearranges.views {f : JsonValue → JsonValue} (hf : Rearranges f)
    (nullable optional : List (String × Option JsonValue))
    (hkeys : ((nullable ++ optional).map Prod.fst).Nodup) :
    ∃ members, f (.obj (nulled nullable ++ present optional)) = .obj members ∧
      Views f (nullable ++ optional) members := by
  obtain ⟨members, hobj, hperm⟩ := hf.obj (nulled nullable ++ present optional)
  have hsub : ((nulled nullable ++ present optional).map Prod.fst).Sublist
      ((nullable ++ optional).map Prod.fst) := by
    rw [List.map_append, List.map_append, map_fst_nulled]
    exact (List.Sublist.refl _).append (map_fst_present optional)
  have hnodup := hkeys.sublist hsub
  have hmap : ((nulled nullable ++ present optional).map fun m => (m.1, f m.2)).map Prod.fst =
      (nulled nullable ++ present optional).map Prod.fst := by
    rw [List.map_map]
    rfl
  have hmember : ∀ key, member key members =
      (member key (nulled nullable ++ present optional)).map f := fun key =>
    (member_perm (by rwa [hmap]) hperm).trans (member_map f)
  refine ⟨members, hobj, ⟨fun {key value} h => ?_, fun {key} h => ?_, fun m hm => ?_⟩⟩
  · have hin : (key, value) ∈ nulled nullable ++ present optional := by
      rcases List.mem_append.mp (mem_of_lookup h) with hin | hin
      · exact List.mem_append_left _ (mem_nulled.mpr ⟨_, hin, rfl⟩)
      · exact List.mem_append_right _ (mem_present.mpr hin)
    rw [hmember, (member_eq_some_iff hnodup).mpr hin]
    rfl
  · cases hfound : member key (nulled nullable ++ present optional) with
    | none => exact .inl (by rw [hmember, hfound]; rfl)
    | some value =>
      right
      -- It is one that shows its null; the others leave it out.
      have hnone := mem_of_lookup h
      rcases List.mem_append.mp (mem_of_member hfound) with hin | hin
      · obtain ⟨held, hheld, rfl⟩ := mem_nulled.mp hin
        have hsame := List.inj_on_of_nodup_map hkeys hnone (List.mem_append_left _ hheld) rfl
        obtain rfl : none = held := (Prod.mk.inj hsame).2
        rw [hmember, hfound]
        exact congrArg some hf.null
      · have hsame := List.inj_on_of_nodup_map hkeys hnone
          (List.mem_append_right _ (mem_present.mp hin)) rfl
        cases hsame
  · have hfst := List.mem_map_of_mem (f := Prod.fst) ((hperm.mem_iff).mp hm)
    rw [hmap] at hfst
    exact hsub.subset hfst

end JsonValue

end OpenMemory.Lib
