import Mockup.Proofs.Value.Reading

namespace Mockup

namespace Fields

variable {α : Type} {fields more : List (String × α)} {name : String} {a : α}

theorem mem_put {e : String × α} (h : e ∈ put fields name a) : e = (name, a) ∨ e ∈ fields := by
  induction fields with
  | nil => exact .inl (List.mem_singleton.mp h)
  | cons field fields ih =>
      rcases field with ⟨n, b⟩
      rw [put] at h
      split at h
      · next hn =>
          rcases List.mem_cons.mp h with rfl | h
          · exact .inl (by rw [hn])
          · exact .inr (List.mem_cons_of_mem _ h)
      · rcases List.mem_cons.mp h with rfl | h
        · exact .inr List.mem_cons_self
        · exact (ih h).imp_right (List.mem_cons_of_mem _)

/-- A name that is put is not put twice. -/
theorem nodup_names_put (h : (names fields).Nodup) : (names (put fields name a)).Nodup := by
  induction fields with
  | nil => exact List.nodup_singleton name
  | cons field fields ih =>
      rcases field with ⟨n, b⟩
      obtain ⟨hn, hfields⟩ := List.nodup_cons.mp h
      rw [put]
      split
      · exact h
      · next hne =>
          refine List.nodup_cons.mpr ⟨fun hmem => ?_, ih hfields⟩
          obtain ⟨e, he, rfl⟩ := List.mem_map.mp hmem
          rcases mem_put he with rfl | he
          · exact hne rfl
          · exact hn (List.mem_map.mpr ⟨e, he, rfl⟩)

theorem mem_putAll {e : String × α} (h : e ∈ putAll fields more) : e ∈ fields ∨ e ∈ more := by
  induction more generalizing fields with
  | nil => exact .inl h
  | cons field more ih =>
      rcases ih h with h | h
      · rcases mem_put h with rfl | h
        · exact .inr List.mem_cons_self
        · exact .inl h
      · exact .inr (List.mem_cons_of_mem _ h)

theorem nodup_names_putAll (h : (names fields).Nodup) : (names (putAll fields more)).Nodup := by
  induction more generalizing fields with
  | nil => exact h
  | cons field more ih => exact ih (nodup_names_put h)

theorem nodup_names_ofList (fields : List (String × α)) : (names (ofList fields)).Nodup :=
  nodup_names_putAll List.nodup_nil

end Fields

namespace Value

@[simp] theorem distinct_null : Distinct .null := .null

@[simp] theorem distinct_bool (b : Bool) : Distinct (.bool b) := .bool b

@[simp] theorem distinct_number (n : Number) : Distinct (.number n) := .number n

@[simp] theorem distinct_text (s : String) : Distinct (.text s) := .text s

@[simp] theorem distinct_ofInt (i : Int) : (ofInt i).Distinct := .number _

@[simp] theorem distinct_list_iff {items : List Value} :
    Distinct (.list items) ↔ ∀ v ∈ items, v.Distinct :=
  ⟨fun h => by cases h; assumption, .list⟩

theorem distinct_object_iff {fields : Fields} :
    Distinct (.object fields) ↔ (Fields.names fields).Nodup ∧ ∀ field ∈ fields, field.2.Distinct :=
  ⟨fun h => by cases h; exact ⟨‹_›, ‹_›⟩, fun h => .object h.1 h.2⟩

@[simp] theorem distinct_texts (names : List String) : (texts names).Distinct :=
  distinct_list_iff.mpr (List.forall_mem_map.mpr fun s _ => .text s)

@[simp] theorem distinct_ofText? (s : Option String) : (ofText? s).Distinct := by
  cases s with
  | none => exact .null
  | some s => exact .text s

@[simp] theorem distinct_ofNumber? (n : Option Number) : (ofNumber? n).Distinct := by
  cases n with
  | none => exact .null
  | some n => exact .number n

theorem distinct_of_map {α : Type} {f : α → Value} (hf : ∀ a, (f a).Distinct) {x : Option α}
    {v : Value} (h : x.map f = some v) : v.Distinct := by
  obtain ⟨a, -, rfl⟩ := Option.map_eq_some_iff.mp h
  exact hf a

/-- The parts of a record that are there are some of its parts. -/
theorem names_sublist_parts (parts : List (String × Option Value)) :
    (Fields.names (parts.filterMap fun part => part.2.map fun v => (part.1, v))).Sublist
      (parts.map Prod.fst) := by
  induction parts with
  | nil => exact .slnil
  | cons part parts ih =>
      rcases part with ⟨name, _ | v⟩
      · exact ih.cons _
      · exact ih.cons_cons _

theorem distinct_parts {parts : List (String × Option Value)} (hnames : (parts.map Prod.fst).Nodup)
    (h : ∀ part ∈ parts, ∀ v, part.2 = some v → v.Distinct) :
    Distinct (.object (parts.filterMap fun part => part.2.map fun v => (part.1, v))) := by
  refine .object (hnames.sublist (names_sublist_parts parts)) fun field hfield => ?_
  obtain ⟨part, hpart, hsome⟩ := List.mem_filterMap.mp hfield
  obtain ⟨v, hv, rfl⟩ := Option.map_eq_some_iff.mp hsome
  exact h part hpart v hv

theorem distinct_record {parts : List (String × Option Value)} (hnames : (parts.map Prod.fst).Nodup)
    (h : ∀ part ∈ parts, ∀ v, part.2 = some v → v.Distinct) : (record parts).Distinct :=
  distinct_parts hnames h

section Fields

variable {fields more : Fields} {name : String} {v : Value}

theorem Distinct.get? (h : Distinct (.object fields)) (hget : Fields.get? name fields = some v) :
    v.Distinct :=
  (distinct_object_iff.mp h).2 _ (Fields.mem_of_get? hget)

theorem Distinct.putAll (h : Distinct (.object fields)) (hmore : ∀ e ∈ more, e.2.Distinct) :
    Distinct (.object (Fields.putAll fields more)) := by
  obtain ⟨hnames, hfields⟩ := distinct_object_iff.mp h
  refine .object (Fields.nodup_names_putAll hnames) fun e he => ?_
  rcases Fields.mem_putAll he with he | he
  · exact hfields e he
  · exact hmore e he

theorem distinct_nil : Distinct (.object []) := .object List.nodup_nil (by simp)

theorem Distinct.filter (h : Distinct (.object fields)) (p : String × Value → Bool) :
    Distinct (.object (fields.filter p)) := by
  obtain ⟨hnames, hfields⟩ := distinct_object_iff.mp h
  exact .object (hnames.sublist (List.filter_sublist.map Prod.fst))
    fun e he => hfields e (List.mem_filter.mp he).1

theorem Distinct.nested (h : Distinct (.object fields)) (name : String) :
    Distinct (.object (Fields.nested fields name)) := by
  rw [Fields.nested]
  split
  · next inner hget => exact h.get? hget
  · exact distinct_nil

end Fields

theorem normalizeFields_eq (fields : Fields) :
    normalizeFields fields = fields.map fun f => (f.1, f.2.normalize) := by
  induction fields with
  | nil => rfl
  | cons f fields ih => rw [normalizeFields, ih, List.map_cons]

theorem normalizeItems_eq (items : List Value) : normalizeItems items = items.map normalize := by
  induction items with
  | nil => rfl
  | cons v items ih => rw [normalizeItems, ih, List.map_cons]

theorem Distinct.normalize {v : Value} (hv : v.Distinct) : v.normalize.Distinct := by
  induction hv with
  | null => exact .null
  | bool b => exact .bool b
  | number n => exact .number n.normalize
  | text s => exact .text s
  | list _ ih =>
      rw [Value.normalize, normalizeItems_eq]
      exact .list (List.forall_mem_map.mpr ih)
  | @object fields hnames _ ih =>
      rw [Value.normalize]
      refine .object ((Fields.names_normalizeFields fields).symm ▸ hnames) ?_
      rw [normalizeFields_eq]
      exact List.forall_mem_map.mpr ih

theorem Distinct.normalizeFields {fields : Fields} (h : Distinct (.object fields)) :
    Distinct (.object (normalizeFields fields)) := by
  have hnormalize := h.normalize
  rwa [Value.normalize] at hnormalize

end Value

end Mockup
