import Mockup.Pattern.Listing
import Mockup.Proofs.Element.Alike

namespace Mockup.Listing

variable {c : Change} {a a' b b' : Element} {es fs : List Element}

theorem map_variant_eq (h : List.Forall₂ (Element.Alike c) es fs) :
    es.map Element.variant = fs.map Element.variant :=
  Related.map_eq h fun _ _ h => h.variant_eq

theorem sameStructure_eq (ha : a.Alike c a') (hb : b.Alike c b') :
    sameStructure a b = sameStructure a' b' := by
  rw [sameStructure.eq_def, sameStructure.eq_def, ha.variant_eq, hb.variant_eq]
  cases ha with
  | leaf _ _ => cases hb <;> rfl
  | branch _ hr hes =>
      cases hb with
      | leaf _ _ => rfl
      | branch _ hs hfs =>
          simp only [hr.isGroup_eq, hs.isGroup_eq, map_variant_eq hes, map_variant_eq hfs]

theorem similarSize_eq {x x' y y' : Box} (hx : c.Moves x x') (hy : c.Moves y y') :
    similarSize x y = similarSize x' y' := by
  simp only [similarSize, hx.extent_eq, hy.extent_eq]

theorem isLike_eq (ha : a.Alike c a') (hb : b.Alike c b') : isLike a b = isLike a' b' := by
  rw [isLike, isLike, sameStructure_eq hb ha, similarSize_eq hb.box ha.box]

theorem itemTypeOf_eq (h : a.Alike c a') : itemTypeOf a = itemTypeOf a' := by
  simp only [itemTypeOf, itemTypeById, h.identity.label_eq, h.id_eq, h.variant_eq]

theorem of_eq {i j : Identity} (hi : i.Alike c j) (layout : Layout)
    (h : List.Forall₂ (Element.Alike c) es fs) : of? i layout es = of? j layout fs := by
  cases h with
  | nil => rfl
  | cons ha h =>
      cases h with
      | nil => rfl
      | cons hb h =>
          cases h with
          | nil => rfl
          | cons hd h =>
              have hall := List.Forall₂.cons ha (.cons hb (.cons hd h))
              rw [of?, of?, Result.allM_eq hall fun _ _ he => isLike_eq ha he, itemTypeOf_eq ha,
                hi.id, Related.map_eq hall fun _ _ he => he.id_eq]

theorem detectAll_eq (h : List.Forall₂ (fun e f => detect e = detect f) es fs) :
    detectAll es = detectAll fs := by
  induction h with
  | nil => rfl
  | cons h _ ih => rw [detectAll, detectAll, h, ih]

theorem detect_eq {e f : Element} (h : e.Alike c f) : detect e = detect f := by
  induction e generalizing f with
  | leaf i l =>
      cases h with
      | leaf _ _ => rfl
  | foreign i v => cases h
  | branch i r layout es ih =>
      cases h with
      | branch hi hr hes =>
          rw [detect, detect, hr.isGroup_eq, of_eq hi _ hes,
            detectAll_eq (Related.imp_mem hes ih)]

end Mockup.Listing
