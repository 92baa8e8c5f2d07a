import Mathlib.Data.List.Nodup
import Mockup.Value

namespace Mockup.Fields

variable {α : Type} {fields : List (String × α)} {name : String} {a : α}

theorem get?_eq_none_iff : get? name fields = none ↔ name ∉ names fields := by
  induction fields with
  | nil => simp [get?, names]
  | cons e rest ih =>
      rcases e with ⟨n, b⟩
      by_cases hn : n = name
      · simp [get?, names, hn]
      · have hn' : name ≠ n := fun h => hn h.symm
        simpa [get?, names, hn, hn'] using ih

theorem mem_of_get? (h : get? name fields = some a) : (name, a) ∈ fields := by
  induction fields with
  | nil => cases h
  | cons e rest ih =>
      rcases e with ⟨n, b⟩
      by_cases hn : n = name
      · have hb : b = a := by simpa [get?, hn] using h
        simp [hn, hb]
      · have hr : get? name rest = some a := by simpa [get?, hn] using h
        exact List.mem_cons_of_mem _ (ih hr)

theorem get?_of_mem (hn : (names fields).Nodup) (h : (name, a) ∈ fields) :
    get? name fields = some a := by
  induction fields with
  | nil => cases h
  | cons e rest ih =>
      rcases e with ⟨n, b⟩
      obtain ⟨hhead, htail⟩ := List.nodup_cons.mp hn
      rcases List.mem_cons.mp h with he | hr
      · cases he
        simp [get?]
      · have hne : n ≠ name := by
          rintro rfl
          exact hhead (List.mem_map.mpr ⟨(n, a), hr, rfl⟩)
        simpa [get?, hne] using ih htail hr

theorem has_eq_true_iff : has fields name = true ↔ name ∈ names fields := by
  rw [has, Option.isSome_iff_ne_none, Ne, get?_eq_none_iff, not_not]

theorem has_eq_false_iff : has fields name = false ↔ name ∉ names fields := by
  rw [← has_eq_true_iff, Bool.not_eq_true]

theorem length_names (fields : List (String × α)) : (names fields).length = fields.length :=
  List.length_map ..

/-- Entries that come later do not hide those that were there. -/
theorem get?_of_prefix {more : List (String × α)} (hp : fields <+: more)
    (h : get? name fields = some a) : get? name more = some a := by
  obtain ⟨rest, rfl⟩ := hp
  induction fields with
  | nil => cases h
  | cons e fields ih =>
      rcases e with ⟨n, b⟩
      by_cases hn : n = name
      · simpa [get?, hn] using h
      · have hr : get? name fields = some a := by simpa [get?, hn] using h
        simpa [get?, hn] using ih hr

theorem put_of_not_mem (h : name ∉ names fields) (a : α) :
    put fields name a = fields ++ [(name, a)] := by
  induction fields with
  | nil => rfl
  | cons e rest ih =>
      rcases e with ⟨n, b⟩
      obtain ⟨hn, hrest⟩ := not_or.mp (mt List.mem_cons.mpr h)
      rw [put, if_neg (Ne.symm hn), ih hrest, List.cons_append]

/-- A name that is there keeps its place. -/
theorem names_put_of_mem (h : name ∈ names fields) (a : α) :
    names (put fields name a) = names fields := by
  induction fields with
  | nil => cases h
  | cons e rest ih =>
      rcases e with ⟨n, b⟩
      rw [put]
      split
      · rfl
      · next hn =>
          have hrest : name ∈ names rest := (List.mem_cons.mp h).resolve_left (Ne.symm hn)
          exact congrArg (n :: ·) (ih hrest)

theorem get?_put_self (fields : List (String × α)) (name : String) (a : α) :
    get? name (put fields name a) = some a := by
  induction fields with
  | nil => simp [put, get?]
  | cons e rest ih =>
      rcases e with ⟨n, b⟩
      by_cases hn : n = name <;> simp [put, get?, hn, ih]

theorem get?_put_of_ne {other : String} (h : other ≠ name) (fields : List (String × α)) (a : α) :
    get? other (put fields name a) = get? other fields := by
  induction fields with
  | nil => simp [put, get?, Ne.symm h]
  | cons e rest ih =>
      rcases e with ⟨n, b⟩
      rw [put]
      split
      · next hn => simp [get?, hn, Ne.symm h]
      · simp [get?, ih]

theorem get?_append (fields more : List (String × α)) (name : String) :
    get? name (fields ++ more) = (get? name fields).or (get? name more) := by
  induction fields with
  | nil => rfl
  | cons e rest ih =>
      rcases e with ⟨n, b⟩
      by_cases hn : n = name <;> simp [get?, hn, ih]

/-- Of two entries with one name the later one counts. -/
theorem get?_putAll (fields more : List (String × α)) (name : String) :
    get? name (putAll fields more) = (get? name more.reverse).or (get? name fields) := by
  induction more generalizing fields with
  | nil => rfl
  | cons e rest ih =>
      rcases e with ⟨n, b⟩
      rw [List.reverse_cons, get?_append, Option.or_assoc]
      refine (ih (put fields n b)).trans (congrArg _ ?_)
      by_cases hn : n = name
      · subst hn
        rw [get?_put_self, get?, if_pos rfl, Option.some_or]
      · rw [get?_put_of_ne (Ne.symm hn), get?, if_neg hn, get?, Option.none_or]

/-- Of entries with distinct names that are put one by one all are there in the end. -/
theorem get?_putAll_of_nodup {more : List (String × α)} (hmore : (names more).Nodup)
    (h : get? name more = some a) : get? name (putAll fields more) = some a := by
  have hreverse : (names more.reverse).Nodup := by
    rwa [names, List.map_reverse, List.nodup_reverse]
  rw [get?_putAll, get?_of_mem hreverse (List.mem_reverse.mpr (mem_of_get? h)), Option.some_or]

theorem get?_putAll_eq_some_iff {more : List (String × α)} (hmore : (names more).Nodup) :
    get? name (putAll fields more) = some a ↔
      get? name more = some a ∨ (get? name more = none ∧ get? name fields = some a) := by
  cases h : get? name more with
  | some b => simp [get?_putAll_of_nodup hmore h]
  | none =>
      have hreverse : get? name more.reverse = none := by
        rw [get?_eq_none_iff, names, List.map_reverse, List.mem_reverse]
        exact get?_eq_none_iff.mp h
      simp [get?_putAll, hreverse]

theorem putAll_of_nodup {more : List (String × α)} (h : (names (fields ++ more)).Nodup) :
    putAll fields more = fields ++ more := by
  induction more generalizing fields with
  | nil => exact (List.append_nil _).symm
  | cons field more ih =>
      have hnew : field.1 ∉ names fields := by
        intro hmem
        rw [names, List.map_append, List.nodup_append] at h
        exact h.2.2 _ hmem _ List.mem_cons_self rfl
      rw [← List.singleton_append, ← List.append_assoc] at h ⊢
      rw [← ih h, ← put_of_not_mem hnew field.2]
      rfl

theorem ofList_of_nodup (h : (names fields).Nodup) : ofList fields = fields :=
  putAll_of_nodup h

/-- Putting a value under a name makes of the names what it makes of them with any other value. -/
theorem names_put_congr {more : List (String × α)} (h : names fields = names more) (name : String)
    (a b : α) : names (put fields name a) = names (put more name b) := by
  induction fields generalizing more with
  | nil =>
      cases more with
      | nil => rfl
      | cons e rest => cases h
  | cons e rest ih =>
      cases more with
      | nil => cases h
      | cons e' rest' =>
          obtain ⟨hname, hrest⟩ := List.cons.inj h
          simp only at hname
          rw [put, put, hname]
          split
          · exact congrArg (e'.1 :: ·) hrest
          · exact congrArg (e'.1 :: ·) (ih hrest)

theorem mem_names_put {other : String} (h : other = name ∨ other ∈ names fields) :
    other ∈ names (put fields name a) := by
  induction fields with
  | nil => simpa [put, names] using h
  | cons e rest ih =>
      rcases e with ⟨n, b⟩
      by_cases hn : n = name
      · rw [put, if_pos hn]
        rcases h with rfl | h
        · exact hn ▸ List.mem_cons_self
        · exact h
      · rw [put, if_neg hn]
        rcases h with rfl | h
        · exact List.mem_cons_of_mem _ (ih (.inl rfl))
        · rcases List.mem_cons.mp h with rfl | h
          · exact List.mem_cons_self
          · exact List.mem_cons_of_mem _ (ih (.inr h))

theorem mem_names_putAll {more : List (String × α)} (h : name ∈ names fields ∨ name ∈ names more) :
    name ∈ names (putAll fields more) := by
  induction more generalizing fields with
  | nil => exact h.resolve_right List.not_mem_nil
  | cons e rest ih =>
      refine ih ?_
      rcases h with h | h
      · exact .inl (mem_names_put (.inr h))
      · rcases List.mem_cons.mp h with rfl | h
        · exact .inl (mem_names_put (.inl rfl))
        · exact .inr h

theorem mem_names_erase {other : String} (h : name ∈ names fields) (hne : name ≠ other) :
    name ∈ names (erase fields other) := by
  obtain ⟨e, he, rfl⟩ := List.mem_map.mp h
  exact List.mem_map_of_mem (List.mem_filter.mpr ⟨he, by simpa using hne⟩)

theorem get?_normalizeFields (fields : Fields) (name : String) :
    get? name (Value.normalizeFields fields) = (get? name fields).map Value.normalize := by
  induction fields with
  | nil => rfl
  | cons e rest ih =>
      rcases e with ⟨n, v⟩
      by_cases hn : n = name <;> simp [Value.normalizeFields, get?, hn, ih]

theorem names_normalizeFields (fields : Fields) :
    names (Value.normalizeFields fields) = names fields := by
  induction fields with
  | nil => rfl
  | cons e rest ih =>
      rcases e with ⟨n, v⟩
      rw [Value.normalizeFields]
      exact congrArg (n :: ·) ih

end Mockup.Fields
