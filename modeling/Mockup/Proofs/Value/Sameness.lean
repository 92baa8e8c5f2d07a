import Mockup.Proofs.Number.Normal
import Mockup.Proofs.Value.Distinct

namespace Mockup

namespace Fields

/-- Fields with distinct names follow from their names and what is found under these. -/
theorem eq_map_names {fields : Fields} (h : (names fields).Nodup) :
    fields = (names fields).map fun name => (name, (get? name fields).getD .null) := by
  rw [names, List.map_map]
  refine (List.map_id fields).symm.trans (List.map_congr_left fun field hfield => ?_)
  simp [get?_of_mem h hfield]

theorem get?_parts {parts : List (String × Option Value)} (h : (parts.map Prod.fst).Nodup)
    {name : String} {v : Option Value} (hv : (name, v) ∈ parts) :
    get? name (parts.filterMap fun part => part.2.map fun v => (part.1, v)) = v := by
  have hnodup := h.sublist (Value.names_sublist_parts parts)
  cases v with
  | some v => exact get?_of_mem hnodup (List.mem_filterMap.mpr ⟨_, hv, rfl⟩)
  | none =>
      rw [get?_eq_none_iff]
      intro hmem
      obtain ⟨field, hfield, rfl⟩ := List.mem_map.mp hmem
      obtain ⟨part, hpart, hsome⟩ := List.mem_filterMap.mp hfield
      obtain ⟨w, hw, rfl⟩ := Option.map_eq_some_iff.mp hsome
      rw [← List.inj_on_of_nodup_map h hv hpart rfl] at hw
      cases hw

theorem get?_parts_eq_some_iff {parts : List (String × Option Value)}
    (h : (parts.map Prod.fst).Nodup) {name : String} {v : Value} :
    get? name (parts.filterMap fun part => part.2.map fun v => (part.1, v)) = some v ↔
      (name, some v) ∈ parts := by
  refine ⟨fun hget => ?_, get?_parts h⟩
  obtain ⟨⟨name, w⟩, hpart, hsome⟩ := List.mem_filterMap.mp (mem_of_get? hget)
  obtain ⟨v, rfl, heq⟩ := Option.map_eq_some_iff.mp hsome
  cases heq
  exact hpart

end Fields

namespace Value

inductive IsAtom : Value → Prop
  | null : IsAtom .null
  | text (s : String) : IsAtom (.text s)
  | number {n : Number} (hnormal : n.IsNormal) (hdefined : n ≠ .real .nan) : IsAtom (.number n)

variable {a b : Value} {as bs : Fields}

theorem isAtom_normalize_number {n : Number} (h : n ≠ .real .nan) :
    (Value.number n).normalize.IsAtom :=
  .number (Number.isNormal_normalize n) (Number.normalize_ne_nan h)

theorem isAtom_normalize_ofNumber? {n : Option Number} (h : n ≠ some (.real .nan)) :
    (ofNumber? n).normalize.IsAtom := by
  cases n with
  | none => exact .null
  | some n => exact isAtom_normalize_number fun hn => h (congrArg some hn)

theorem IsAtom.same_iff (ha : a.IsAtom) (hb : b.IsAtom) : a.same b = true ↔ a = b := by
  cases ha with
  | null => cases hb <;> simp [same]
  | text s => cases hb <;> simp [same]
  | number hm hdefined =>
      cases hb with
      | null | text s => simp [same]
      | number hn _ =>
          rw [same, Number.eq_eq_true_iff, number.injEq, ne_eq, Number.place_eq_nowhere_iff]
          constructor
          · exact fun h => Number.eq_of_place_eq hm hn h.1
          · rintro rfl
            exact ⟨rfl, hdefined⟩

theorem sameFields_iff : sameFields as bs = true ↔
    ∀ f ∈ as, ∃ b, Fields.get? f.1 bs = some b ∧ f.2.same b = true := by
  induction as with
  | nil => simp [sameFields]
  | cons f as ih =>
      rw [sameFields, Bool.and_eq_true, ih, List.forall_mem_cons]
      cases Fields.get? f.1 bs <;> simp

theorem same_object_iff (hnames : Fields.names as = Fields.names bs)
    (hnodup : (Fields.names as).Nodup) (has : ∀ f ∈ as, f.2.IsAtom) (hbs : ∀ f ∈ bs, f.2.IsAtom) :
    (object as).same (object bs) = true ↔ as = bs := by
  have hlength : as.length = bs.length := by
    rw [← Fields.length_names as, hnames, Fields.length_names]
  rw [same, Bool.and_eq_true, beq_iff_eq, sameFields_iff]
  constructor
  · rintro ⟨-, h⟩
    refine (Fields.eq_map_names hnodup).trans (Eq.trans ?_
      (Fields.eq_map_names (hnames ▸ hnodup)).symm)
    rw [← hnames]
    refine List.map_congr_left fun name hname => ?_
    obtain ⟨f, hf, rfl⟩ := List.mem_map.mp hname
    obtain ⟨b, hget, hsame⟩ := h f hf
    rw [Fields.get?_of_mem hnodup hf, hget,
      ((has f hf).same_iff (hbs _ (Fields.mem_of_get? hget))).mp hsame]
  · rintro rfl
    refine ⟨hlength, fun f hf => ⟨f.2, Fields.get?_of_mem hnodup hf, ?_⟩⟩
    exact ((has f hf).same_iff (has f hf)).mpr rfl

end Value

end Mockup
