import Mockup.Proofs.Layer.Alike
import Mockup.Screen.Variants

namespace Mockup.Variants

variable {c : Change} {ts ts' : List Document}

theorem ofChildren_eq (h : List.Forall₂ (Tree.Related (Layer.Alike c)) ts ts') :
    ofChildren ts = ofChildren ts' := by
  have hitems : List.Forall₂ (Layer.Alike c) (ts.map Tree.item) (ts'.map Tree.item) := by
    rw [List.forall₂_map_left_iff, List.forall₂_map_right_iff]
    exact h.imp fun t t' ht => ht.item
  have hcomponents : List.Forall₂ (Layer.Alike c) (components ts) (components ts') :=
    List.rel_filter (fun a b hab => by simp only [hab.isKind_eq]) hitems
  rw [ofChildren, ofChildren,
    Related.flatMap_eq hcomponents fun a _ b hab => congrArg parseName hab.label_eq]

theorem analyze_eq {a b : Layer} (h : a.Alike c b)
    (hts : List.Forall₂ (Tree.Related (Layer.Alike c)) ts ts') :
    analyze a ts = analyze b ts' := by
  have hfills : a.fills = b.fills := h.traits.eq_of (fun t => t.fills) fun _ => rfl
  have hopacity : a.opacity = b.opacity := h.traits.eq_of (fun t => t.opacity) fun _ => rfl
  have hindicators : (ts.any fun t => isIndicator t.item) = ts'.any fun t => isIndicator t.item := by
    induction hts with
    | nil => rfl
    | cons ht _ ih =>
        rw [List.any_cons, List.any_cons, ih, isIndicator, isIndicator, ht.item.label_eq]
  simp only [analyze, hfills, hopacity, h.visible, hindicators]

theorem addComponent_eq (states : List StateStyle) {d d' : Document}
    (h : d.Related (Layer.Alike c) d') : addComponent states d = addComponent states d' := by
  rw [addComponent, addComponent, h.item.isKind_eq, stateOf?, stateOf?, h.item.label_eq,
    analyze_eq h.item h.children]

theorem statesOf_eq (h : List.Forall₂ (Tree.Related (Layer.Alike c)) ts ts')
    (properties : List VariantProperty) : statesOf ts properties = statesOf ts' properties := by
  refine Result.agree_eq_iff.mp (Result.agree_foldlM h rfl ?_)
  rintro states _ t t' rfl ht
  exact Result.agree_eq_iff.mpr (addComponent_eq states ht)

theorem detect_eq {d d' : Document} (h : d.Related (Layer.Alike c) d') :
    detect d = detect d' := by
  cases h with
  | node hl hts =>
      have hproperties := hl.traits.eq_of (fun t => t.properties) fun _ => rfl
      rw [detect, detect, hl.isKind_eq, Related.isEmpty_eq hts, ofChildren_eq hts, hproperties]
      simp only [statesOf_eq hts]

end Mockup.Variants
