import Mockup.Proofs.Element.Distinct
import Mockup.Proofs.Layer.Selection
import Mockup.Proofs.Screen.Stages

namespace Mockup

open Value

def Document.IsProper (d : Document) : Prop := ∀ l ∈ d.preorder, l.DeclaresProper

theorem Listing.distinct_toValue (l : Listing) : l.toValue.Distinct :=
  distinct_record (by simp [Traits.textEntry]) (by simp [Traits.textEntry])

namespace Repetition

variable {r : Repetition} {variations : List (String × List String)}

theorem nodup_addVariation (h : (Fields.names variations).Nodup) (text : String × String) :
    (Fields.names (addVariation variations text)).Nodup :=
  Fields.nodup_names_put h

theorem nodup_merge {es : List Element} (h : merge es = .ok variations) :
    (Fields.names variations).Nodup := by
  have hadd (texts : List (String × String)) {v : List (String × List String)}
      (hv : (Fields.names v).Nodup) : (Fields.names (texts.foldl addVariation v)).Nodup := by
    induction texts generalizing v with
    | nil => exact hv
    | cons text texts ih => exact ih (nodup_addVariation hv text)
  refine Result.foldlM_preserves (P := fun v => (Fields.names v).Nodup)
    (fun v hv e _ next hnext => ?_) (show (Fields.names []).Nodup from List.nodup_nil) h
  obtain ⟨texts, -, hnext⟩ := Result.bind_eq_ok_iff.mp hnext
  cases hnext
  exact hadd texts hv

theorem nodup_of_mem_detect {e : Element} {found : List Repetition} (h : detect e = .ok found)
    (hr : r ∈ found) : (Fields.names r.variations).Nodup := by
  obtain ⟨groups, -, h⟩ := Result.bind_eq_ok_iff.mp h
  obtain ⟨all, hall, h⟩ := Result.bind_eq_ok_iff.mp h
  cases h
  obtain ⟨r', hr', heq⟩ := List.mem_filterMap.mp hr
  obtain ⟨group, -, hgroup⟩ := Result.exists_of_mapM_eq_ok hall hr'
  rw [heq, ofGroup?.eq_def] at hgroup
  split at hgroup
  · obtain ⟨variations, hmerge, hgroup⟩ := Result.bind_eq_ok_iff.mp hgroup
    cases hgroup
    exact nodup_merge hmerge
  · cases hgroup

theorem distinct_toValue (h : (Fields.names r.variations).Nodup) : r.toValue.Distinct := by
  have hvariations :
      Distinct (.object (r.variations.map fun v => (v.1, Value.texts v.2))) := by
    refine .object ?_ (List.forall_mem_map.mpr fun v _ => distinct_texts v.2)
    rw [Fields.names, List.map_map]
    exact h
  exact .object (by simp [Fields.names]) (by simp [hvariations])

end Repetition

theorem Modal.distinct_toValue (m : Option Modal) : (Modal.toValue m).Distinct := by
  cases m with
  | none => exact .object (by simp [Fields.names]) (by simp)
  | some m => exact distinct_record (by simp [Traits.textEntry]) (by simp [Traits.textEntry])

theorem Chrome.distinct_toValue (c : Chrome) : c.toValue.Distinct :=
  distinct_record (by simp [Traits.textEntry]) (by simp [Traits.textEntry, Box.distinct_toValue])

theorem Insets.distinct_toValue (i : Insets) : i.toValue.Distinct :=
  .object (by simp [Fields.names]) (by simp)

theorem SafeArea.distinct_toValue {s : SafeArea} {v : Value} (h : s.toValue = .ok v) :
    v.Distinct := by
  obtain ⟨ids, -, h⟩ := Result.bind_eq_ok_iff.mp h
  cases h
  exact .object (by simp [Fields.names])
    (by simp [Insets.distinct_toValue, Chrome.distinct_toValue])

namespace Variants

theorem distinct_property {p : VariantProperty} (h : p.default.Distinct) : p.toValue.Distinct :=
  .object (by simp [Fields.names]) (by simp [h])

theorem distinct_propertyOf (entry : String × List String) :
    (propertyOf entry).toValue.Distinct := by
  refine distinct_property ?_
  rw [propertyOf]
  cases (entry.2.eraseDups.mergeSort fun a b => decide (a ≤ b)).head? with
  | none => exact .null
  | some s => exact .text s

theorem distinct_of_mem_ofDefinitions {t : Traits} (ht : t.DeclaresProper) {p : VariantProperty}
    (hp : p ∈ ofDefinitions t.properties) : p.toValue.Distinct := by
  obtain ⟨d, hd, hsome⟩ := List.mem_filterMap.mp hp
  split at hsome
  · next first rest _ _ =>
      cases hsome
      refine distinct_property ?_
      change Value.Distinct (if _ then _ else _)
      split
      · exact .text first
      · cases hvalue : d.2.value with
        | none => exact .null
        | some v => exact ht d hd v hvalue
  · cases hsome

def AllDistinct (states : List StateStyle) : Prop := ∀ s ∈ states, Distinct (.object s.overrides)

theorem distinct_analyze {l : Layer} {children : List Document} {overrides : Fields}
    {hasIndicator : Bool} (h : analyze l children = .ok (overrides, hasIndicator)) :
    Distinct (.object overrides) := by
  obtain ⟨background, -, h⟩ := Result.bind_eq_ok_iff.mp h
  cases h
  refine distinct_parts (by simp) (List.forall_mem_cons.mpr ⟨fun v => distinct_of_map .number, ?_⟩)
  cases l.visible <;> simp

theorem allDistinct_addState {states : List StateStyle} (h : AllDistinct states)
    (s : Interaction) : AllDistinct (addState states s) := by
  rw [addState]
  split
  · exact h
  · exact List.forall_mem_append.mpr ⟨h, List.forall_mem_singleton.mpr distinct_nil⟩

theorem allDistinct_mergeState {states : List StateStyle} (h : AllDistinct states)
    (s : Interaction) {overrides : Fields} (ho : Distinct (.object overrides))
    (hasIndicator : Bool) : AllDistinct (mergeState states s overrides hasIndicator) := by
  refine List.forall_mem_map.mpr fun style hstyle => ?_
  have hstyle := allDistinct_addState h s style hstyle
  split
  · exact hstyle.putAll (distinct_object_iff.mp ho).2
  · exact hstyle

theorem allDistinct_statesOf {children : List Document} {properties : List VariantProperty}
    {states : List StateStyle} (h : statesOf children properties = .ok states) :
    AllDistinct states := by
  have hnamed (named : List Interaction) (states : List StateStyle) (h : AllDistinct states) :
      AllDistinct (named.foldl addState states) := by
    induction named generalizing states with
    | nil => exact h
    | cons s named ih => exact ih _ (allDistinct_addState h s)
  refine Result.foldlM_preserves (fun states hstates t _ next hnext => ?_)
    (hnamed _ _ (List.forall_mem_singleton.mpr distinct_nil)) h
  rw [addComponent] at hnext
  split at hnext
  · cases hnext
    exact hstates
  · obtain ⟨⟨overrides, hasIndicator⟩, hanalyze, hnext⟩ := Result.bind_eq_ok_iff.mp hnext
    cases hnext
    exact allDistinct_mergeState hstates _ (distinct_analyze hanalyze) hasIndicator

theorem distinct_toValue {d : Document} (hd : d.item.DeclaresProper) {variants : Variants}
    (h : detect d = .ok variants) : variants.toValue.Distinct := by
  cases d with
  | node l children =>
      obtain ⟨states, hstates, h⟩ := Result.bind_eq_ok_iff.mp h
      cases h
      have hstates : ∀ s ∈ states, s.toValue.Distinct := fun s hs =>
        .object (by simp [Fields.names]) (by simp [allDistinct_statesOf hstates s hs])
      refine .object (by simp [Fields.names]) ?_
      simp only [List.forall_mem_cons, distinct_bool, distinct_list_iff, List.forall_mem_map]
      refine ⟨trivial, ?_, hstates, by simp⟩
      split
      · exact List.forall_mem_map.mpr fun entry _ => distinct_propertyOf entry
      · exact fun p hp => distinct_of_mem_ofDefinitions hd hp

end Variants

namespace Screen

variable {o : Options} {d : Document} {s : Screen} {v : Value}

theorem detection_distinct (hd : d.IsProper) (h : ofDocument o d = .ok s)
    (hv : s.detection.toValue = .ok v) : v.Distinct := by
  obtain ⟨-, hrepetitions, variants, hsome, hvariants⟩ := detection_of_ofDocument h
  have hroot := hd _ (Tree.item_mem_preorder (effectiveRoot_mem_subtrees d s.detection.modal))
  have hrepetitions : ∀ r ∈ s.detection.repetitions, r.toValue.Distinct := by
    intro r hr
    rcases hrepetitions with hnil | hdetect
    · rw [hnil] at hr
      cases hr
    · exact Repetition.distinct_toValue (Repetition.nodup_of_mem_detect hdetect hr)
  obtain ⟨safeArea, hsafeArea, hv⟩ := Result.bind_eq_ok_iff.mp hv
  cases hv
  have hsafe : ∀ v, safeArea = some v → v.Distinct := by
    rintro v rfl
    rcases Result.mapM_option_eq_ok_iff.mp hsafeArea with ⟨-, hnone⟩ | ⟨area, w, -, hw, harea⟩
    · cases hnone
    · cases hw
      exact SafeArea.distinct_toValue harea
  exact distinct_record (by simp) (by simp +contextual [hsome, hrepetitions, hsafe,
    Listing.distinct_toValue, Modal.distinct_toValue, Variants.distinct_toValue hroot hvariants])

/-- The root and the bundle of a screen are proper. -/
theorem shown_distinct (hd : d.IsProper) (h : ofDocument o d = .ok s) :
    s.root.IsProper ∧ s.bundle.toValue.Distinct := by
  rcases ofDocument_eq_ok h with ⟨t, found, hselect, hlower⟩ | hempty
  · obtain ⟨placed, e, registry, hplaced, he, ha, hb⟩ := lowerTree_eq_ok hlower
    have hplace : ∀ p ∈ placed.preorder, p.IsProper ∧ p.DeclaresProper := by
      intro p hp
      refine ⟨Layout.forall_preorder_place (fun b ts flow box p hp => ?_) hplaced p hp, ?_⟩
      · obtain ⟨layout, -, hp⟩ := Result.bind_eq_ok_iff.mp hp
        obtain ⟨position, hposition, hp⟩ := Result.bind_eq_ok_iff.mp hp
        cases hp
        exact Position.isProper_of hposition
      · have hb := List.mem_map_of_mem (f := Placed.toBlock) hp
        rw [Layout.map_toBlock_place hplaced] at hb
        obtain ⟨l, hl, -, hbecomes⟩ := Selection.exists_layer_of_mem_apply hselect hb
        have hproperties := congrArg Traits.properties hbecomes.traits
        rw [Traits.DeclaresProper, hproperties]
        exact hd _ (((Tree.preorder_sublist (effectiveRoot_mem_subtrees d _)).subset) hl)
    exact ⟨(Recognition.recognize_isProper (fun p hp => (hplace p hp).2) he).of_relabel_eq
      (Style.bare_assign ha), Style.distinct_bundle (fun p hp => (hplace p hp).1) ha hb⟩
  · obtain ⟨hroot, hbundle⟩ := Prod.mk.inj hempty
    rw [hroot, hbundle]
    refine ⟨.branch _ (Branch.isProper_of_component?_eq_none rfl) _ (by simp), ?_⟩
    exact .object (by simp [Fields.names])
      (by simp [Tokens.toValue, distinct_object_iff, Fields.names])

/-- A screen is a value that gives each name once. -/
theorem distinct_toValue (hd : d.IsProper) (h : ofDocument o d = .ok s) (hv : s.toValue = .ok v) :
    v.Distinct := by
  obtain ⟨hroot, hbundle⟩ := shown_distinct hd h
  obtain ⟨detection, hdetection, hv⟩ := Result.bind_eq_ok_iff.mp hv
  cases hv
  exact distinct_record (by simp) (by simp [hroot.distinct_toValue, hbundle,
    detection_distinct hd h hdetection, Insets.distinct_toValue])

end Screen

end Mockup
