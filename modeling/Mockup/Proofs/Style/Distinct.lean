import Mathlib.Data.List.Sigma
import Mockup.Layout.Placement
import Mockup.Proofs.Style.Parts
import Mockup.Proofs.Style.References
import Mockup.Proofs.Tree.Occurrence
import Mockup.Proofs.Value.Distinct

namespace Mockup

open Value

theorem Box.distinct_toValue (b : Box) : b.toValue.Distinct :=
  distinct_record (by simp) (by simp)

theorem Padding.distinct_toValue (p : Padding) : p.toValue.Distinct :=
  distinct_record (by simp) (by simp)

theorem Corners.distinct_toValue (c : Corners) : c.toValue.Distinct :=
  distinct_record (by simp) (by simp)

theorem Sizing.distinct_toValue (s : Sizing) : s.toValue.Distinct :=
  .object (by simp [Fields.names]) (by simp)

theorem Layout.distinct_toValue (l : Layout) : l.toValue.Distinct :=
  distinct_record (by simp) (by simp [Padding.distinct_toValue, Sizing.distinct_toValue])

def Placed.IsProper (p : Placed) : Prop := ∀ entry ∈ p.position.getD [], entry.2.Distinct

namespace Position

theorem distinct_along {axis : Axis} {tie : Tie} {box parent : Box} {fields : Fields}
    (h : along axis tie box parent = .ok fields) : ∀ entry ∈ fields, entry.2.Distinct := by
  obtain ⟨start, -, h⟩ := Result.bind_eq_ok_iff.mp h
  obtain ⟨start', -, h⟩ := Result.bind_eq_ok_iff.mp h
  obtain ⟨offset, -, h⟩ := Result.bind_eq_ok_iff.mp h
  obtain ⟨size, -, h⟩ := Result.bind_eq_ok_iff.mp h
  obtain ⟨whole, -, h⟩ := Result.bind_eq_ok_iff.mp h
  obtain ⟨last, -, h⟩ := Result.bind_eq_ok_iff.mp h
  obtain ⟨trailing, -, h⟩ := Result.bind_eq_ok_iff.mp h
  cases tie with
  | near | far | both =>
      cases h
      simp
  | scale =>
      obtain ⟨near, -, h⟩ := Result.bind_eq_ok_iff.mp h
      obtain ⟨extent, -, h⟩ := Result.bind_eq_ok_iff.mp h
      cases h
      simp

theorem isProper_of {b : Block} {parent : Option Flow} {box : Option Box} {position : Option Fields}
    (h : of b parent box = .ok position) : ∀ entry ∈ position.getD [], entry.2.Distinct := by
  rw [of.eq_def] at h
  split at h
  · split at h
    · obtain ⟨fields, hfields, h⟩ := Result.bind_eq_ok_iff.mp h
      cases h
      obtain ⟨across, hacross, hfields⟩ := Result.bind_eq_ok_iff.mp hfields
      obtain ⟨down, hdown, hfields⟩ := Result.bind_eq_ok_iff.mp hfields
      cases hfields
      exact List.forall_mem_cons.mpr ⟨.text _, List.forall_mem_append.mpr
        ⟨distinct_along hacross, distinct_along hdown⟩⟩
    · cases h
      simp
  · cases h
    simp

end Position

namespace Style

variable {fills : List Fill} {s : Style}

theorem distinct_background (h : background fills = .ok s) : ∀ entry ∈ s, entry.2.Distinct := by
  obtain ⟨fill, -, h⟩ := Result.bind_eq_ok_iff.mp h
  cases fill with
  | none =>
      cases h
      simp
  | some f =>
      obtain ⟨opacity, -, h⟩ := Result.bind_eq_ok_iff.mp h
      split at h
      · obtain ⟨color, -, h⟩ := Result.bind_eq_ok_iff.mp h
        cases h
        simp
      · obtain ⟨gradient, hgradient, h⟩ := Result.bind_eq_ok_iff.mp h
        cases h
        obtain ⟨colors, -, hgradient⟩ := Result.bind_eq_ok_iff.mp hgradient
        cases hgradient
        exact List.forall_mem_singleton.mpr (distinct_record (by simp) (by simp))
      · cases h
        simp

theorem distinct_border {strokes : List Stroke} (h : border strokes = .ok s) :
    ∀ entry ∈ s, entry.2.Distinct := by
  cases strokes with
  | nil =>
      cases h
      simp
  | cons stroke strokes =>
      obtain ⟨opacity, -, h⟩ := Result.bind_eq_ok_iff.mp h
      obtain ⟨color, -, h⟩ := Result.bind_eq_ok_iff.mp h
      split at h
      · split at h <;> cases h <;> simp
      · cases h
        simp

theorem distinct_radius (r : Option CornerRadius) : ∀ entry ∈ radius r, entry.2.Distinct := by
  cases r with
  | none => simp [radius]
  | some r =>
      cases r with
      | each c => simp [radius, Corners.distinct_toValue]
      | uniform n =>
          rw [radius]
          split <;> simp

theorem distinct_effectStyle {e : Effect} {v : Value} (h : effectStyle e = .ok v) :
    v.Distinct := by
  have hshadow {shadow : Shadow} (h : shadowStyle shadow = .ok v) : v.Distinct := by
    obtain ⟨color, -, h⟩ := Result.bind_eq_ok_iff.mp h
    cases h
    exact .object (by simp [Fields.names]) (by simp)
  cases e with
  | dropShadow shadow | innerShadow shadow => exact hshadow h
  | layerBlur r | backgroundBlur r =>
      cases h
      exact distinct_ofNumber? r

theorem distinct_effects {es : List Effect} (h : effects es = .ok s) :
    ∀ entry ∈ s, entry.2.Distinct := by
  refine Result.foldlM_preserves (P := fun s => ∀ entry ∈ s, entry.2.Distinct)
    (fun style hstyle e _ next hnext => ?_) (by simp) h
  split at hnext
  · cases hnext
    exact hstyle
  · obtain ⟨v, hv, hnext⟩ := Result.bind_eq_ok_iff.mp hnext
    cases hnext
    exact List.forall_mem_append.mpr
      ⟨hstyle, List.forall_mem_singleton.mpr (distinct_effectStyle hv)⟩

theorem distinct_typography {t : Traits} (h : typography t = .ok s) :
    ∀ entry ∈ s, entry.2.Distinct := by
  rw [typography] at h
  split at h
  · cases h
    simp
  · obtain ⟨color, -, h⟩ := Result.bind_eq_ok_iff.mp h
    cases h
    exact List.forall_mem_singleton.mpr
      (distinct_record (by simp [Typography.toFields]) (by simp [Typography.toFields]))

theorem distinct_opacity (t : Traits) : ∀ entry ∈ opacity t, entry.2.Distinct := by
  rw [opacity]
  split
  · split <;> simp
  · simp

theorem distinct_ofLayout (l : Layout) : Distinct (.object (ofLayout l)) := by
  rw [ofLayout]
  split
  · refine distinct_parts (by simp) fun part hpart v hv => ?_
    simp only [List.mem_cons, List.not_mem_nil, or_false] at hpart
    rcases hpart with rfl | rfl | rfl | rfl | rfl | rfl
    · exact distinct_of_map .text (x := some _) hv
    · exact distinct_of_map .number hv
    · cases (Option.ite_none_left_eq_some.mp hv).2
      exact l.padding.distinct_toValue
    · exact distinct_of_map .text hv
    · exact distinct_of_map .text hv
    · cases (Option.ite_none_right_eq_some.mp hv).2
      exact distinct_ofInt 1
  · exact distinct_nil

theorem distinct_positionEntries {fields entries : Fields}
    (hfields : ∀ entry ∈ fields, entry.2.Distinct)
    (h : fields.mapM positionEntry = .ok entries) : ∀ entry ∈ entries, entry.2.Distinct := by
  intro entry hentry
  obtain ⟨field, hfield, h⟩ := Result.exists_of_mapM_eq_ok h hentry
  rw [positionEntry] at h
  split at h
  · obtain ⟨i, -, h⟩ := Result.bind_eq_ok_iff.mp h
    cases h
    exact distinct_ofInt i
  · cases h
    exact hfields _ hfield

theorem distinct_dropHugged {s : Style} (h : Distinct (.object s)) (l : Layout) :
    Distinct (.object (dropHugged l s)) := by
  have herase {s : Style} (h : Distinct (.object s)) (name : String) (c : Prop) [Decidable c] :
      Distinct (.object (if c then Fields.erase s name else s)) := by
    split
    · exact h.filter _
    · exact h
  rw [dropHugged]
  split
  · exact herase (herase h _ _) _ _
  · exact h

/-- The style of a layer gives each name once. -/
theorem distinct_of {p : Placed} (hp : p.IsProper) (h : Style.of p = .ok s) :
    Distinct (.object s) := by
  obtain ⟨back, edge, cast, type, width, height, position, hback, hedge, hcast, htype, -, -,
    hposition, rfl⟩ := of_eq_ok h
  refine (distinct_dropHugged (distinct_nil.putAll ?_) _).normalizeFields
  simp only [List.forall_mem_append]
  exact ⟨⟨⟨⟨⟨⟨⟨⟨distinct_background hback, distinct_border hedge⟩, distinct_radius _⟩,
    distinct_effects hcast⟩, distinct_typography htype⟩, by simp⟩,
    distinct_positionEntries hp hposition⟩, distinct_opacity _⟩,
    (distinct_object_iff.mp (distinct_ofLayout _)).2⟩

theorem distinct_source {t : Tree Placed} (ht : ∀ p ∈ t.preorder, p.IsProper) {source : Source}
    (h : source.style t = .ok s) : Distinct (.object s) := by
  cases source with
  | layout l =>
      cases h
      exact (distinct_ofLayout l).normalizeFields
  | layer id =>
      rw [Source.style, ofId] at h
      split at h
      · next p hp =>
          have hmem := t.postorder_perm_preorder.mem_iff.mp (List.mem_of_find?_eq_some hp)
          exact distinct_of (ht p hmem) (registrable_eq_ok_iff.mp h).1
      · cases h
        exact distinct_nil

/-- What is registered is the style of some source. -/
theorem forall_styles_register {P : Style → Prop} {r : Registry} (hr : ∀ e ∈ r.styles, P e.2)
    (preferred : String) (hs : P s) : ∀ e ∈ (r.register preferred s).2.styles, P e.2 := by
  rw [Registry.register]
  split
  · exact hr
  · exact List.forall_mem_append.mpr ⟨hr, List.forall_mem_singleton.mpr hs⟩

theorem forall_styles_assign {P : Style → Prop} {t : Tree Placed} {e e' : Element} {r : Registry}
    (hP : ∀ (source : Source) s, source.style t = .ok s → P s) (h : assign t {} e = .ok (e', r)) :
    ∀ entry ∈ r.styles, P entry.2 := by
  obtain ⟨calls, rfl, hcalls⟩ := assign_leadsToIn h
  have hall (calls : List (String × Style)) (hcalls : ∀ call ∈ calls, P call.2) (r : Registry)
      (hr : ∀ e ∈ r.styles, P e.2) : ∀ e ∈ (r.registerAll calls).styles, P e.2 := by
    induction calls generalizing r with
    | nil => exact hr
    | cons call calls ih =>
        obtain ⟨hcall, hcalls⟩ := List.forall_mem_cons.mp hcalls
        exact ih hcalls _ (forall_styles_register hr call.1 hcall)
  refine hall calls (fun call hcall => ?_) {} (by simp)
  obtain ⟨source, hsource⟩ := hcalls call hcall
  exact hP source call.2 hsource

end Style

namespace Tokens

theorem nodup_names_enumerate (name : String) (values : List Value) :
    (Fields.names (enumerate name values)).Nodup := by
  have hinjective :
      Function.Injective fun i => name ++ "_" ++ String.ofList (Number.numeral i) := by
    intro i j h
    simp only [String.append_right_inj] at h
    exact Naming.numeral_injective h
  have hnodup := (List.nodup_zipIdx_map_snd values).map hinjective
  rw [List.map_map] at hnodup
  rwa [Fields.names, enumerate, List.map_map]

theorem distinct_enumerate (name : String) {values : List Value} (h : ∀ v ∈ values, v.Distinct) :
    Distinct (.object (enumerate name values)) := by
  refine .object (nodup_names_enumerate name values) fun field hfield => ?_
  obtain ⟨entry, hentry, rfl⟩ := List.mem_map.mp hfield
  exact h _ (List.fst_mem_of_mem_zipIdx hentry)

theorem distinctBy_subset {α : Type} (same : α → α → Bool) (items : List α) :
    distinctBy same items ⊆ items := by
  have hfrom (items seen : List α) : items.foldl (fun seen a =>
      if seen.any (fun b => same b a) then seen else seen ++ [a]) seen ⊆ seen ++ items := by
    induction items generalizing seen with
    | nil => simp
    | cons a items ih =>
        rw [List.foldl_cons]
        refine List.Subset.trans (ih _) ?_
        split <;> simp
  exact hfrom items []

theorem distinct_present {values : List (Option Value)}
    (h : ∀ value ∈ values, ∀ v, value = some v → v.Distinct) :
    ∀ v ∈ present values, v.Distinct := by
  intro v hv
  obtain ⟨value, hvalue, hsome⟩ := List.mem_filterMap.mp (List.mem_filter.mp hv).1
  exact h value hvalue v hsome

theorem distinct_styleRadii {s : Style} (h : Distinct (.object s)) {values : List Value}
    (hvalues : styleRadii s = .ok values) : ∀ v ∈ values, v.Distinct := by
  rw [styleRadii] at hvalues
  split at hvalues
  · next corners hget =>
      split at hvalues
      · cases hvalues
        exact List.forall_mem_map.mpr (distinct_object_iff.mp (h.get? hget)).2
      · cases hvalues
  · next v hget =>
      cases hvalues
      split
      · exact List.forall_mem_singleton.mpr (h.get? hget)
      · simp
  · cases hvalues
    simp

theorem distinct_faceEntry {typography : Fields} (h : Distinct (.object typography)) :
    (faceEntry typography).Distinct := by
  have hface : ∀ entry ∈ face typography, entry.2.Distinct := by
    refine List.forall_mem_map.mpr fun name _ => ?_
    cases hget : Fields.get? name typography with
    | none => exact .null
    | some v => exact h.get? hget
  rw [faceEntry]
  split
  · exact .object (by simp [Fields.names, face]) hface
  · exact .object (by simp [Fields.names, face]) hface
  · next height _ hget =>
      exact .object (by simp [Fields.names, face])
        (List.forall_mem_append.mpr ⟨hface, List.forall_mem_singleton.mpr (h.get? hget)⟩)

theorem distinct_spacingOf {t : Option (Tree Placed)} {spacing : Fields}
    (h : spacingOf t = .ok spacing) : Distinct (.object spacing) := by
  obtain ⟨all, -, h⟩ := Result.bind_eq_ok_iff.mp h
  cases h
  exact distinct_enumerate _ (List.forall_mem_map.mpr fun n _ => .number _)

section Styles

variable {styles : List Style} (hstyles : ∀ s ∈ styles, Distinct (.object s))

include hstyles

theorem distinct_colorsOf : Distinct (.object (colorsOf styles)) := by
  refine distinct_enumerate _ fun v hv => ?_
  obtain ⟨s, hs, hv⟩ := List.mem_flatMap.mp (distinctBy_subset _ _ hv)
  have h := hstyles s hs
  refine distinct_present (fun value hvalue v hv => ?_) v hv
  simp only [List.mem_cons, List.not_mem_nil, or_false] at hvalue
  rcases hvalue with rfl | rfl | rfl | rfl
  · exact h.get? hv
  · exact h.get? hv
  · exact (h.nested _).get? hv
  · exact (h.nested _).get? hv

theorem distinct_radiiOf {radii : Fields} (h : radiiOf styles = .ok radii) :
    Distinct (.object radii) := by
  obtain ⟨all, hall, h⟩ := Result.bind_eq_ok_iff.mp h
  cases h
  refine distinct_enumerate _ fun v hv => ?_
  have hv := (List.mem_filter.mp ((List.mergeSort_perm _ _).mem_iff.mp hv)).1
  obtain ⟨values, hvalues, hv⟩ := List.mem_flatten.mp (distinctBy_subset _ _ hv)
  obtain ⟨s, hs, hvalues⟩ := Result.exists_of_mapM_eq_ok hall hvalues
  exact distinct_styleRadii (hstyles s hs) hvalues v hv

theorem distinct_typographyOf : Distinct (.object (typographyOf styles)) := by
  refine distinct_enumerate _ fun v hv => ?_
  obtain ⟨typography, htypography, rfl⟩ := List.mem_map.mp hv
  have hmem := (List.mem_filter.mp (distinctBy_subset _ _ htypography)).1
  obtain ⟨s, hs, rfl⟩ := List.mem_map.mp hmem
  exact distinct_faceEntry ((hstyles s hs).nested _)

theorem distinct_shadowsOf : Distinct (.object (shadowsOf styles)) := by
  refine distinct_enumerate _ fun v hv => ?_
  refine distinct_present (fun value hvalue v hv => ?_) v (distinctBy_subset _ _ hv)
  obtain ⟨s, hs, rfl⟩ := List.mem_map.mp hvalue
  exact (hstyles s hs).get? hv

end Styles

/-- Tokens found in styles that are distinct values are distinct values. -/
theorem distinct_of {styles : List (String × Style)}
    (hstyles : ∀ s ∈ styles, Distinct (.object s.2)) {t : Option (Tree Placed)}
    {tokens : Tokens} (h : Tokens.of styles t = .ok tokens) : tokens.toValue.Distinct := by
  have hstyles : ∀ s ∈ styles.map (·.2), Distinct (.object s) := List.forall_mem_map.mpr hstyles
  obtain ⟨spacing, hspacing, h⟩ := Result.bind_eq_ok_iff.mp h
  obtain ⟨radii, hradii, h⟩ := Result.bind_eq_ok_iff.mp h
  cases h
  exact .object (by simp [Fields.names]) (by simp [distinct_colorsOf hstyles,
    distinct_spacingOf hspacing, distinct_radiiOf hstyles hradii, distinct_typographyOf hstyles,
    distinct_shadowsOf hstyles])

end Tokens

namespace Style

/-- The bundle of a tree of layers is a value that gives each name once. -/
theorem distinct_bundle {t : Tree Placed} (ht : ∀ p ∈ t.preorder, p.IsProper) {e e' : Element}
    {r : Registry} (ha : assign t {} e = .ok (e', r)) {b : StyleBundle} (hb : r.bundle t = .ok b) :
    b.toValue.Distinct := by
  have hstyles : ∀ s ∈ r.styles, Distinct (.object s.2) :=
    forall_styles_assign (P := fun s => Distinct (.object s)) (fun _ _ h => distinct_source ht h) ha
  have hnames := (assign_leadsTo ha).sound Registry.sound_empty
  obtain ⟨tokens, htokens, hb⟩ := Result.bind_eq_ok_iff.mp hb
  cases hb
  have hall : Distinct (.object (r.styles.map fun s => (s.1, Value.object s.2))) := by
    refine .object ?_ (List.forall_mem_map.mpr hstyles)
    rw [Fields.names, List.map_map]
    exact hnames.names
  exact .object (by simp [Fields.names])
    (by simp [hall, Tokens.distinct_of hstyles (Result.lift_eq_ok_iff.mp htokens)])

end Style

end Mockup
