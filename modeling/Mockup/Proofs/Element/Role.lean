import Mockup.Element.Role
import Mockup.Proofs.Layout.Placement

namespace Mockup

variable {c : Change} {p p' : Placed} {ts ts' : List (Tree Placed)}

namespace Placed.Alike

theorem traits (h : p.Alike c p') : p.toTraits.Alike c p'.toTraits := h.block.traits

theorem box (h : p.Alike c p') : c.Moves p.box p'.box := h.block.box

theorem id_eq (h : p.Alike c p') : p.id = p'.id := h.traits.eq_of (fun t => t.id) fun _ => rfl

theorem name_eq (h : p.Alike c p') : p.name = p'.name :=
  h.traits.eq_of (fun t => t.name) fun _ => rfl

theorem label_eq (h : p.Alike c p') : p.label = p'.label :=
  h.traits.eq_of (fun t => t.label) fun _ => rfl

theorem kind_eq (h : p.Alike c p') : p.kind = p'.kind :=
  h.traits.eq_of (fun t => t.kind) fun _ => rfl

theorem isKind_eq (h : p.Alike c p') (kinds : List String) : p.isKind kinds = p'.isKind kinds :=
  h.traits.eq_of (fun t => t.isKind kinds) fun _ => rfl

theorem fills_eq (h : p.Alike c p') : p.fills = p'.fills :=
  h.traits.eq_of (fun t => t.fills) fun _ => rfl

theorem componentId_eq (h : p.Alike c p') : p.componentId = p'.componentId :=
  h.traits.eq_of (fun t => t.componentId) fun _ => rfl

end Placed.Alike

namespace Role

theorem isImage_eq (h : p.Alike c p') : isImage p.toTraits = isImage p'.toTraits :=
  h.traits.eq_of isImage fun _ => rfl

theorem isComponent_eq (h : p.Alike c p') : isComponent p.toTraits = isComponent p'.toTraits :=
  h.traits.eq_of isComponent fun _ => rfl

theorem hasIconShape_eq {a b : Box} (h : c.Moves a b) : hasIconShape a = hasIconShape b := by
  simp only [hasIconShape, h.extent_eq]

theorem hasButtonShape_eq {a b : Box} (h : c.Moves a b) : hasButtonShape a = hasButtonShape b := by
  simp only [hasButtonShape, h.extent_eq]

theorem all_isKind_eq (hts : List.Forall₂ (Tree.Related (Placed.Alike c)) ts ts')
    (kinds : List String) :
    (ts.all fun t => t.item.isKind kinds) = ts'.all fun t => t.item.isKind kinds := by
  induction hts with
  | nil => rfl
  | cons ht _ ih => rw [List.all_cons, List.all_cons, ih, ht.item.isKind_eq]

theorem isIcon_eq (h : p.Alike c p') (hts : List.Forall₂ (Tree.Related (Placed.Alike c)) ts ts') :
    isIcon p ts = isIcon p' ts' := by
  simp only [isIcon, h.isKind_eq, isImage_eq h, hasIconShape_eq h.box, Related.isEmpty_eq hts,
    all_isKind_eq hts]

theorem isIconTree_eq {t t' : Tree Placed} (h : t.Related (Placed.Alike c) t') :
    isIconTree t = isIconTree t' := by
  cases h with
  | node hp hts => exact isIcon_eq hp hts

theorem textChild_related (hts : List.Forall₂ (Tree.Related (Placed.Alike c)) ts ts') :
    Option.Rel (Tree.Related (Placed.Alike c)) (textChild? ts) (textChild? ts') :=
  Related.find? hts fun _ _ ht => ht.item.traits.isText

theorem isButton_eq (h : p.Alike c p')
    (hts : List.Forall₂ (Tree.Related (Placed.Alike c)) ts ts') :
    isButton p ts = isButton p' ts' := by
  simp only [isButton, Related.isNone_eq (textChild_related hts), h.box.extent_eq, h.label_eq,
    h.fills_eq, hasButtonShape_eq h.box]

theorem isCard_eq (h : p.Alike c p') (hts : List.Forall₂ (Tree.Related (Placed.Alike c)) ts ts') :
    isCard p ts = isCard p' ts' := by
  have hradius := h.traits.eq_of (fun t => t.cornerRadius) fun _ => rfl
  have heffects := h.traits.eq_of (fun t => t.effects) fun _ => rfl
  simp only [isCard, hradius, heffects, h.fills_eq, Related.isEmpty_eq hts, h.box.extent_eq]

theorem of_eq (h : p.Alike c p') (hts : List.Forall₂ (Tree.Related (Placed.Alike c)) ts ts') :
    Role.of p ts = Role.of p' ts' := by
  simp only [Role.of, isComponent_eq h, h.traits.isText, isIcon_eq h hts, isImage_eq h,
    isButton_eq h hts, isCard_eq h hts]

theorem buttonVariant_eq (h : p.Alike c p') :
    buttonVariant p.toTraits = buttonVariant p'.toTraits :=
  h.traits.eq_of buttonVariant fun _ => rfl

end Role

end Mockup
