import Mockup.Proofs.Result
import Mockup.Style

namespace Mockup.Style

open Result

def paintNames : List String :=
  ["backgroundColor", "backgroundGradient", "borderColor", "borderWidth", "borderRadius", "shadow",
    "innerShadow", "blur", "backdropBlur", "typography"]

def flowNames : List String :=
  ["opacity", "flexDirection", "gap", "padding", "justifyContent", "alignItems", "flex"]

variable {style : Style}

theorem names_background {fills : List Fill} (h : background fills = .ok style) :
    Fields.names style ⊆ paintNames := by
  obtain ⟨fill, -, h⟩ := bind_eq_ok_iff.mp h
  cases fill with
  | none =>
      cases h
      exact List.nil_subset _
  | some f =>
      obtain ⟨opacity, -, h⟩ := bind_eq_ok_iff.mp h
      split at h
      · obtain ⟨color, -, h⟩ := bind_eq_ok_iff.mp h
        cases h
        simp [Fields.names, paintNames]
      · obtain ⟨gradient, -, h⟩ := bind_eq_ok_iff.mp h
        cases h
        simp [Fields.names, paintNames]
      · cases h
        exact List.nil_subset _

theorem names_border {strokes : List Stroke} (h : border strokes = .ok style) :
    Fields.names style ⊆ paintNames := by
  cases strokes with
  | nil =>
      cases h
      exact List.nil_subset _
  | cons stroke strokes =>
      obtain ⟨opacity, -, h⟩ := bind_eq_ok_iff.mp h
      obtain ⟨color, -, h⟩ := bind_eq_ok_iff.mp h
      split at h
      · split at h <;> cases h <;> simp [Fields.names, paintNames]
      · cases h
        simp [Fields.names, paintNames]

theorem names_radius (r : Option CornerRadius) : Fields.names (radius r) ⊆ paintNames := by
  cases r with
  | none => exact List.nil_subset _
  | some r =>
      cases r with
      | each c => simp [radius, Fields.names, paintNames]
      | uniform n =>
          rw [radius]
          split <;> simp [Fields.names, paintNames]

theorem names_effects {es : List Effect} (h : effects es = .ok style) :
    Fields.names style ⊆ paintNames := by
  refine foldlM_preserves (P := fun s => Fields.names s ⊆ paintNames)
    (fun s hs e _ next hnext => ?_) (List.nil_subset _) h
  split at hnext
  · cases hnext
    exact hs
  · obtain ⟨v, -, hnext⟩ := bind_eq_ok_iff.mp hnext
    cases hnext
    rw [Fields.names, List.map_append]
    refine List.append_subset.mpr ⟨hs, List.cons_subset.mpr ⟨?_, List.nil_subset _⟩⟩
    cases e <;> simp [effectName, paintNames]

theorem names_typography {t : Traits} (h : typography t = .ok style) :
    Fields.names style ⊆ paintNames := by
  rw [typography] at h
  split at h
  · cases h
    exact List.nil_subset _
  · obtain ⟨color, -, h⟩ := bind_eq_ok_iff.mp h
    cases h
    simp [Fields.names, paintNames]

theorem names_opacity (t : Traits) : Fields.names (opacity t) ⊆ flowNames := by
  rw [opacity]
  split
  · split <;> simp [Fields.names, flowNames]
  · simp [Fields.names]

theorem names_ofLayout (l : Layout) : Fields.names (ofLayout l) ⊆ flowNames := by
  rw [ofLayout]
  split
  · intro name hname
    obtain ⟨entry, hentry, rfl⟩ := List.mem_map.mp hname
    obtain ⟨part, hpart, hv⟩ := List.mem_filterMap.mp hentry
    obtain ⟨v, -, rfl⟩ := Option.map_eq_some_iff.mp hv
    have hmem := List.mem_map_of_mem (f := Prod.fst) hpart
    simp only [List.map_cons, List.map_nil] at hmem
    exact List.mem_cons_of_mem _ hmem
  · exact List.nil_subset _

/-- A style has all its parts, in this order. -/
theorem of_eq_ok {p : Placed} (h : Style.of p = .ok style) :
    ∃ back edge cast type width height position,
      background p.fills = .ok back ∧ border p.strokes = .ok edge ∧ effects p.effects = .ok cast ∧
      typography p.toTraits = .ok type ∧
      (p.box.extent .horizontal >>= fun n => n.roundHalfUp) = .ok width ∧
      (p.box.extent .vertical >>= fun n => n.roundHalfUp) = .ok height ∧
      (p.position.getD []).mapM positionEntry = .ok position ∧
      style = Value.normalizeFields (dropHugged p.layout (Fields.putAll [] (back ++ edge ++
        radius p.cornerRadius ++ cast ++ type ++
        [("width", .ofInt width), ("height", .ofInt height)] ++ position ++ opacity p.toTraits ++
        ofLayout p.layout))) := by
  obtain ⟨back, hback, h⟩ := bind_eq_ok_iff.mp h
  obtain ⟨edge, hedge, h⟩ := bind_eq_ok_iff.mp h
  obtain ⟨cast, hcast, h⟩ := bind_eq_ok_iff.mp h
  obtain ⟨type, htype, h⟩ := bind_eq_ok_iff.mp h
  rw [← bind_assoc] at h
  obtain ⟨width, hwidth, h⟩ := bind_eq_ok_iff.mp h
  rw [← bind_assoc] at h
  obtain ⟨height, hheight, h⟩ := bind_eq_ok_iff.mp h
  obtain ⟨position, hposition, h⟩ := bind_eq_ok_iff.mp h
  cases h
  exact ⟨back, edge, cast, type, width, height, position, hback, hedge, hcast, htype, hwidth,
    hheight, hposition, rfl⟩

end Mockup.Style
