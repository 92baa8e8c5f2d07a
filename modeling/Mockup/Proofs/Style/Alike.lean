import Mockup.Proofs.Element.Alike
import Mockup.Proofs.Style.References

namespace Mockup.Style

variable {c : Change} {t t' : Tree Placed}

theorem of_eq {p p' : Placed} (h : p.Alike c p') : Style.of p = Style.of p' := by
  have hstrokes := h.traits.eq_of (fun t => t.strokes) fun _ => rfl
  have heffects := h.traits.eq_of (fun t => t.effects) fun _ => rfl
  have hradius := h.traits.eq_of (fun t => t.cornerRadius) fun _ => rfl
  have htypography := h.traits.eq_of typography fun _ => rfl
  have hopacity := h.traits.eq_of opacity fun _ => rfl
  simp only [Style.of, h.fills_eq, hstrokes, heffects, hradius, htypography, hopacity,
    h.box.extent_eq, h.layout, h.position]

theorem ofId_eq (h : t.Related (Placed.Alike c) t') (id : LayerId) : ofId t id = ofId t' id := by
  have hfound : Option.Rel (Placed.Alike c) (layerWith? t id) (layerWith? t' id) :=
    Related.find? h.postorder fun p p' hp => by rw [hp.id_eq]
  rw [ofId, ofId]
  generalize layerWith? t id = x, layerWith? t' id = y at hfound ⊢
  cases hfound with
  | none => rfl
  | some hp =>
      have hspelled := hp.traits.eq_of Traits.isSpelled fun _ => rfl
      simp only [registrable, of_eq hp, hspelled]

theorem assignPart_eq (h : t.Related (Placed.Alike c) t') (r : Registry) (ref : Option String)
    (id : LayerId) : assignPart t r ref id = assignPart t' r ref id := by
  simp only [assignPart, ofId_eq h]

def AlikeAssigned {α : Type} (R : α → α → Prop) (x y : α × Registry) : Prop :=
  R x.1 y.1 ∧ x.2 = y.2

theorem assignButton_agree (h : t.Related (Placed.Alike c) t') (r : Registry)
    {b b' : ButtonElement} (hb : (Leaf.button b).Alike c (.button b')) :
    Result.Agree (AlikeAssigned fun b b' => (Leaf.button b).Alike c (.button b'))
      (assignButton t r b) (assignButton t' r b') := by
  have hlabel : b' = { b with label := b'.label } := by
    have htextless := Leaf.button.inj hb.textless
    cases b
    cases b'
    cases htextless
    rfl
  rw [hlabel, assignButton, assignButton, assignPart_eq h]
  refine Result.agree_bind_of_eq rfl fun x => ?_
  obtain ⟨textStyleRef, r⟩ := x
  simp only [assignPart_eq h]
  refine Result.agree_bind_of_eq rfl fun x => .ok ⟨⟨rfl, fun hc => ?_⟩, rfl⟩
  rw [Leaf.button.inj (hb.same hc)]

theorem assignLeaf_agree (h : t.Related (Placed.Alike c) t') (r : Registry) (styleRef : String)
    {l m : Leaf} (hl : l.Alike c m) :
    Result.Agree (AlikeAssigned (Leaf.Alike c)) (assignLeaf t r styleRef l)
      (assignLeaf t' r styleRef m) := by
  obtain ⟨a, b, rfl, rfl⟩ | ⟨a, b, rfl, rfl⟩ | ⟨a, rfl, rfl⟩ | ⟨a, b, rfl, rfl⟩ := hl.cases
  · exact .ok ⟨hl, rfl⟩
  · exact .ok ⟨hl, rfl⟩
  · exact .ok ⟨.refl _, rfl⟩
  · exact (assignButton_agree h r hl).bind fun x y hxy => .ok ⟨hxy.1, hxy.2⟩

theorem assignAll_agree {es fs : List Element}
    (h : List.Forall₂ (fun e f => ∀ r, Result.Agree (AlikeAssigned (Element.Alike c))
      (assign t r e) (assign t' r f)) es fs) (r : Registry) :
    Result.Agree (AlikeAssigned (List.Forall₂ (Element.Alike c))) (assignAll t r es)
      (assignAll t' r fs) := by
  induction h generalizing r with
  | nil => exact .ok ⟨.nil, rfl⟩
  | cons h _ ih =>
      rw [assignAll, assignAll]
      refine (h r).bind fun x y hxy => ?_
      obtain ⟨e, r⟩ := x
      obtain ⟨f, r'⟩ := y
      obtain ⟨he, rfl⟩ := hxy
      exact (ih r).bind fun xs ys hxys => .ok ⟨.cons he hxys.1, hxys.2⟩

theorem source_style_eq (h : t.Related (Placed.Alike c) t') (source : Source) :
    source.style t = source.style t' := by
  cases source with
  | layer id => exact ofId_eq h id
  | layout l => rfl

theorem branchSource_eq {i j : Identity} (hi : i.Alike c j) {b b' : Branch} (hb : b.Alike c b')
    (l : Layout) : branchSource i b l = branchSource j b' l := by
  cases b with
  | repeater b =>
      rw [hb.eq_repeater]
      rfl
  | container | card | component b =>
      have htextless := hb.textless
      cases b' with
      | repeater b' => cases htextless
      | container | card | component b' => exact congrArg Source.layer hi.id

/-- Elements that are alike are given the same styles under the same names. -/
theorem assign_agree (h : t.Related (Placed.Alike c) t') {e f : Element} (he : e.Alike c f) :
    ∀ r, Result.Agree (AlikeAssigned (Element.Alike c)) (assign t r e) (assign t' r f) := by
  -- on the element; both walks hold one and the same registry all the way, or else the names given
  -- to later elements would differ
  induction e generalizing f with
  | leaf i l =>
      intro r
      cases he with
      | @leaf i j l m hi hl =>
          rw [assign, assign, hi.id, hi.styleRef, ofId_eq h]
          refine Result.agree_bind_of_eq rfl fun s => ?_
          exact (assignLeaf_agree h _ _ hl).bind fun x y hxy =>
            .ok ⟨.leaf ⟨rfl, hi.name, rfl, hi.box⟩ hxy.1, hxy.2⟩
  | foreign i v => cases he
  | branch i b l es ih =>
      intro r
      cases he with
      | branch hi hb hes =>
          rw [assign_branch, assign_branch, branchSource_eq hi hb, source_style_eq h, hi.styleRef]
          refine Result.agree_bind_of_eq rfl fun s => ?_
          have hall := Related.imp_mem hes ih
          exact (assignAll_agree hall _).bind fun x y hxy =>
            .ok ⟨.branch ⟨hi.id, hi.name, rfl, hi.box⟩ hb hxy.1, hxy.2⟩

theorem bundle_eq (h : t.Related (Placed.Alike c) t') (r : Registry) :
    r.bundle t = r.bundle t' := by
  have hspacing : Tokens.spacingOf (some t) = Tokens.spacingOf (some t') := by
    have hall : (t.preorder.mapM fun p => Tokens.layoutSpacing p.layout) =
        t'.preorder.mapM fun p => Tokens.layoutSpacing p.layout :=
      Result.mapM_eq h.preorder fun p p' hp => congrArg Tokens.layoutSpacing hp.layout
    simp only [Tokens.spacingOf, Option.map_some, Option.getD_some, hall]
  simp only [Registry.bundle, Tokens.of, hspacing]

end Mockup.Style
