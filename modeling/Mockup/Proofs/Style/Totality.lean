import Mockup.Proofs.Layout.Totality
import Mockup.Proofs.Style.Distinct

namespace Mockup

open Result Number

namespace Color

theorem resolve_succeeds {c : Color} {opacity : Number} (hc : c.Bounded)
    (hopacity : opacity.Within 1) : Succeeds (c.resolve opacity) := by
  refine (known_yields hc).andThen fun a ha => ?_
  refine (ha.within.mul hopacity (by decide)).andThen fun alpha halpha => ?_
  refine Succeeds.unlessReturned fun _ => ?_
  have hscale : (255 : Number).Within 8 := .int 255 (by decide)
  refine (halpha.mul hscale (by decide)).andThen fun scaled hscaled => ?_
  have hhalf := within_fraction_half.mono (show 1 ≤ 15 by decide)
  exact (hscaled.add hhalf (by decide)).andThen fun sum hsum =>
    hsum.truncate.bind fun _ _ => succeeds_ok _

theorem hex_succeeds {c : Color} (hc : c.Bounded) : Succeeds c.hex :=
  resolve_succeeds hc (.real _ (Binary64.within_ofInt (k := 0) (by decide) (by decide)))

end Color

namespace Style

def HasRadii (style : Style) : Prop :=
  ∀ entry ∈ style, entry.1 = "borderRadius" → ∀ corners, entry.2 = .object corners →
    ∀ c ∈ corners, c.2.asNumber?.isSome = true

variable {fills : List Fill} {style : Style} {p : Placed} {t : Tree Placed} {r : Registry}

theorem hasRadii_of_names (h : "borderRadius" ∉ Fields.names style) : HasRadii style :=
  fun _ hentry hname => absurd (hname ▸ List.mem_map_of_mem hentry) h

theorem hasRadii_nil : HasRadii [] := hasRadii_of_names List.not_mem_nil

theorem firstVisible_yields (hfills : ∀ f ∈ fills, f.Bounded) :
    Yields (fun found => ∀ f, found = some f → f.Bounded) (firstVisible fills) := by
  induction fills with
  | nil => exact yields_ok (by simp)
  | cons f rest ih =>
      obtain ⟨hf, hrest⟩ := List.forall_mem_cons.mp hfills
      refine (known_yields hf.opacity).bind fun opacity _ => ?_
      split
      · exact yields_ok (by rintro _ ⟨⟩; exact hf)
      · exact ih hrest

theorem gradientValue_succeeds {g : Gradient} {opacity : Number}
    (hg : ∀ s ∈ g.stops, s.color.Bounded) (hopacity : opacity.Within 1) :
    Succeeds (gradientValue g opacity) :=
  (succeeds_mapM fun s hs => Color.resolve_succeeds (hg s hs) hopacity).bind fun _ _ =>
    succeeds_ok _

theorem background_yields (hfills : ∀ f ∈ fills, f.Bounded) :
    Yields HasRadii (background fills) := by
  refine (firstVisible_yields hfills).bind fun found hfound => ?_
  cases found with
  | none => exact yields_ok hasRadii_nil
  | some f =>
      obtain ⟨hopacity, hcolors⟩ := hfound f rfl
      refine (known_yields hopacity).bind fun opacity hopacity => ?_
      have hopacity := hopacity.within.mono (show 0 ≤ 1 by decide)
      split
      · next c hpaint =>
          have hc := hcolors c (by rw [hpaint]; exact List.mem_singleton_self c)
          refine (Color.resolve_succeeds hc hopacity).yields.bind fun _ _ => ?_
          exact yields_ok (hasRadii_of_names (by simp [Fields.names]))
      · next g hpaint =>
          have hg : ∀ s ∈ g.stops, s.color.Bounded := fun s hs =>
            hcolors _ (by rw [hpaint]; exact List.mem_map_of_mem hs)
          refine (gradientValue_succeeds hg hopacity).yields.bind fun _ _ => ?_
          exact yields_ok (hasRadii_of_names (by simp [Fields.names]))
      · exact yields_ok hasRadii_nil

theorem border_yields {strokes : List Stroke} (hstrokes : ∀ s ∈ strokes, s.Bounded) :
    Yields HasRadii (border strokes) := by
  cases strokes with
  | nil => exact yields_ok hasRadii_nil
  | cons s strokes =>
      obtain ⟨hopacity, hcolor⟩ := hstrokes s List.mem_cons_self
      refine (known_yields hopacity).bind fun opacity hopacity => ?_
      have hopacity := hopacity.within.mono (show 0 ≤ 1 by decide)
      refine (Color.resolve_succeeds hcolor hopacity).yields.bind fun color _ => ?_
      cases s.weight with
      | none => exact yields_ok (hasRadii_of_names (by simp [Fields.names]))
      | some w =>
          refine yields_ok (hasRadii_of_names ?_)
          cases w.isZero <;> simp [Fields.names]

theorem hasRadii_radius {c : Option CornerRadius}
    (hc : ∀ corners, c = some (.each corners) → ∀ r ∈ corners.toList, r ≠ none) :
    HasRadii (radius c) := by
  cases c with
  | none => exact hasRadii_nil
  | some c =>
      cases c with
      | uniform n =>
          rw [radius]
          split
          · exact hasRadii_nil
          · refine List.forall_mem_singleton.mpr fun _ corners hcorners => ?_
            cases hcorners
      | each corners =>
          have hnone := hc corners rfl
          rintro entry hentry - fields hfields ⟨name, v⟩ hmem
          rw [List.mem_singleton.mp hentry] at hfields
          cases hfields
          obtain ⟨part, hpart, hsome⟩ := List.mem_filterMap.mp hmem
          obtain ⟨v', hv', heq⟩ := Option.map_eq_some_iff.mp hsome
          cases heq
          simp only [List.mem_cons, List.not_mem_nil, or_false] at hpart
          rcases hpart with rfl | rfl | rfl | rfl <;>
            (obtain ⟨n, -, rfl⟩ := Option.map_eq_some_iff.mp hv'; rfl)

theorem effectStyle_succeeds {e : Effect} (he : ∀ s, e.shadow? = some s → s.color.Bounded) :
    Succeeds (effectStyle e) := by
  cases e with
  | dropShadow s | innerShadow s =>
      exact (Color.hex_succeeds (he s rfl)).bind fun _ _ => succeeds_ok _
  | layerBlur r | backgroundBlur r => exact succeeds_ok _

theorem effectName_ne_borderRadius (e : Effect) : effectName e ≠ "borderRadius" := by
  cases e <;> simp [effectName]

theorem effects_yields {es : List Effect}
    (hes : ∀ e ∈ es, ∀ s, e.shadow? = some s → s.color.Bounded) :
    Yields HasRadii (effects es) := by
  refine yields_foldlM (fun style hstyle e he => ?_) hasRadii_nil
  split
  · exact yields_ok hstyle
  · refine (effectStyle_succeeds (hes e he)).yields.bind fun v _ => yields_ok ?_
    refine List.forall_mem_append.mpr ⟨hstyle, List.forall_mem_singleton.mpr fun hname => ?_⟩
    exact absurd hname (effectName_ne_borderRadius e)

theorem textColor_succeeds (hfills : ∀ f ∈ fills, f.Bounded) : Succeeds (textColor fills) := by
  have hresolve {c : Color} {opacity : Option Number} (hc : c.Bounded)
      (hopacity : ∃ a, opacity = some a ∧ a.IsShare) :
      Succeeds (known opacity >>= fun o => c.resolve o) :=
    (known_yields hopacity).andThen fun o ho =>
      Color.resolve_succeeds hc (ho.within.mono (by decide))
  rw [textColor]
  split
  · next c opacity hfind =>
      have hf := hfills _ (List.mem_of_find?_eq_some hfind)
      exact hresolve (hf.colors c (List.mem_singleton_self c)) hf.opacity
  · dsimp only
    split
    · next c opacity hfind =>
        obtain ⟨f, hf, hstart⟩ := List.exists_of_findSome?_eq_some hfind
        split at hstart
        · next g hpaint =>
            obtain ⟨s, hs, heq⟩ := Option.map_eq_some_iff.mp hstart
            cases heq
            refine hresolve ((hfills f hf).colors _ ?_) (hfills f hf).opacity
            rw [hpaint]
            exact List.mem_map_of_mem (List.mem_of_head? hs)
        · cases hstart
    · exact succeeds_ok _

theorem typography_yields {t : Traits} (ht : ∀ f ∈ t.fills, f.Bounded) :
    Yields HasRadii (typography t) := by
  rw [typography]
  split
  · exact yields_ok hasRadii_nil
  · refine (textColor_succeeds ht).yields.bind fun color _ => yields_ok ?_
    exact hasRadii_of_names (by simp [Fields.names])

theorem positionEntry_yields {entry : String × Value} (h : Position.IsEntry entry.2) :
    Yields (fun e => ∀ fields, e.2 ≠ .object fields) (positionEntry entry) := by
  obtain ⟨name, v⟩ := entry
  cases h with
  | text s => exact yields_ok (by simp)
  | number hn =>
      refine (hn.within.roundHalfUp (by decide)).yields.bind fun i _ => yields_ok ?_
      exact fun fields hfields => nomatch hfields

theorem hasRadii_of_flowNames (h : Fields.names style ⊆ flowNames) : HasRadii style :=
  hasRadii_of_names fun hname => absurd (h hname) (by decide)

theorem HasRadii.normalizeFields (h : HasRadii style) :
    HasRadii (Value.normalizeFields style) := by
  have hnumber (v : Value) : v.normalize.asNumber?.isSome = v.asNumber?.isSome := by
    cases v <;> simp [Value.normalize, Value.asNumber?]
  rw [Value.normalizeFields_eq]
  refine List.forall_mem_map.mpr fun entry hentry hname corners hcorners => ?_
  cases hv : entry.2 with
  | object fields =>
      simp only [hv, Value.normalize, Value.object.injEq] at hcorners
      rw [← hcorners, Value.normalizeFields_eq]
      exact List.forall_mem_map.mpr fun c hc =>
        (hnumber c.2).trans (h entry hentry hname fields hv c hc)
  | null | bool b | number n | text s | list items =>
      simp [hv, Value.normalize] at hcorners

theorem dropHugged_subset (l : Layout) (style : Style) : dropHugged l style ⊆ style := by
  have herase (style : Style) (name : String) (c : Prop) [Decidable c] :
      (if c then Fields.erase style name else style) ⊆ style := by
    split
    · exact List.filter_subset_self _
    · exact List.Subset.refl _
  rw [dropHugged]
  split
  · exact List.Subset.trans (herase _ _ _) (herase _ _ _)
  · exact List.Subset.refl _

/-- Every layer that is laid out has a style. -/
theorem of_yields (hp : p.IsLaidOut) : Yields HasRadii (Style.of p) := by
  obtain ⟨⟨htraits, hbox⟩, -, hposition⟩ := hp
  refine (background_yields htraits.fills).bind fun background hbackground => ?_
  refine (border_yields htraits.strokes).bind fun border hborder => ?_
  refine (effects_yields htraits.effects).bind fun effects heffects => ?_
  refine (typography_yields htraits.fills).bind fun typography htypography => ?_
  refine (hbox.extent .horizontal).bind fun w hw => ?_
  refine (hw.within.roundHalfUp (by decide)).yields.bind fun width _ => ?_
  refine (hbox.extent .vertical).bind fun k hk => ?_
  refine (hk.within.roundHalfUp (by decide)).yields.bind fun height _ => ?_
  refine (yields_mapM fun entry hentry => positionEntry_yields (hposition entry hentry)).bind
    fun position ⟨_, hposition⟩ => yields_ok ?_
  refine HasRadii.normalizeFields fun entry hentry => ?_
  have hmem := (Fields.mem_putAll (dropHugged_subset _ _ hentry)).resolve_left List.not_mem_nil
  have hsize : HasRadii [("width", .ofInt width), ("height", .ofInt height)] :=
    hasRadii_of_names (by simp [Fields.names])
  have hposition : HasRadii position := fun entry hentry _ corners hcorners =>
    absurd hcorners (hposition entry hentry corners)
  -- No part of a style but the one for the corners can have several radii.
  simp only [List.mem_append] at hmem
  rcases hmem with (((((((h | h) | h) | h) | h) | h) | h) | h) | h
  · exact hbackground entry h
  · exact hborder entry h
  · exact hasRadii_radius htraits.corners entry h
  · exact heffects entry h
  · exact htypography entry h
  · exact hsize entry h
  · exact hposition entry h
  · exact hasRadii_of_flowNames (names_opacity _) entry h
  · exact hasRadii_of_flowNames (names_ofLayout _) entry h

theorem assignAll_succeeds {es : List Element} (h : ∀ e ∈ es, ∀ r, Succeeds (assign t r e))
    (r : Registry) : Succeeds (assignAll t r es) := by
  induction es generalizing r with
  | nil => exact succeeds_ok _
  | cons e es ih =>
      obtain ⟨he, hes⟩ := List.forall_mem_cons.mp h
      rw [assignAll]
      refine (he r).bind fun x _ => ?_
      exact (ih hes x.2).bind fun y _ => succeeds_ok _

section Assignment

variable (ht : ∀ p ∈ t.preorder, p.IsLaidOut)

include ht

theorem hasRadii_source {source : Source} (h : source.style t = .ok style) : HasRadii style := by
  cases source with
  | layer id =>
      rw [Source.style, ofId] at h
      split at h
      · next p hp =>
          have hmem := t.postorder_perm_preorder.mem_iff.mp (List.mem_of_find?_eq_some hp)
          exact (of_yields (ht p hmem)).of_eq_ok (registrable_eq_ok_iff.mp h).1
      · cases h
        exact hasRadii_nil
  | layout l =>
      cases h
      exact (hasRadii_of_flowNames (names_ofLayout l)).normalizeFields

variable (hspelled : ∀ p ∈ t.preorder, p.isSpelled = true)

include hspelled

theorem ofId_succeeds (id : LayerId) : Succeeds (ofId t id) := by
  rw [ofId]
  split
  · next p hp =>
      have hmem := t.postorder_perm_preorder.mem_iff.mp (List.mem_of_find?_eq_some hp)
      obtain ⟨s, hs, -⟩ := of_yields (ht p hmem)
      exact ⟨s, registrable_eq_ok_iff.mpr ⟨hs, hspelled p hmem⟩⟩
  · exact succeeds_ok _

theorem assignPart_succeeds (r : Registry) (ref : Option String) (id : LayerId) :
    Succeeds (assignPart t r ref id) := by
  rw [assignPart.eq_def]
  split
  · refine Succeeds.unlessReturned fun _ => ?_
    exact (ofId_succeeds ht hspelled _).bind fun s _ => succeeds_ok _
  · exact succeeds_ok _

theorem assignLeaf_succeeds (r : Registry) (styleRef : String) (c : Leaf) :
    Succeeds (assignLeaf t r styleRef c) := by
  cases c with
  | text c | image c | icon c => exact succeeds_ok _
  | button b =>
      have hbutton : Succeeds (assignButton t r b) := by
        refine (assignPart_succeeds ht hspelled _ _ _).bind fun text _ => ?_
        exact (assignPart_succeeds ht hspelled _ _ _).bind fun icon _ => succeeds_ok _
      exact hbutton.bind fun _ _ => succeeds_ok _

/-- Elements of the closed set of variants can be given styles. -/
theorem assign_succeeds {e : Element} (he : ∀ x ∈ e.nodes, x.isForeign = false) (r : Registry) :
    Succeeds (assign t r e) := by
  induction e generalizing r with
  | leaf i c =>
      rw [assign]
      refine (ofId_succeeds ht hspelled i.id).bind fun s _ => ?_
      exact (assignLeaf_succeeds ht hspelled _ _ c).bind fun _ _ => succeeds_ok _
  | foreign i v => exact absurd (he _ (Element.mem_nodes_self _)) (by simp [Element.isForeign])
  | branch i b l es ih =>
      have hes (r : Registry) : Succeeds (assignAll t r es) :=
        assignAll_succeeds (fun e hmem => ih e hmem fun x hx =>
          he x (Element.nodes_subset_of_child hmem hx)) r
      cases b with
      | repeater b =>
          rw [assign]
          exact (hes _).bind fun _ _ => succeeds_ok _
      | container | card | component b =>
          rw [assign]
          · refine (ofId_succeeds ht hspelled i.id).bind fun s _ => ?_
            exact (hes _).bind fun _ _ => succeeds_ok _
          · intro b hb
            cases hb

end Assignment

end Style

namespace Tokens

theorem styleRadii_succeeds {style : Style} (h : style.HasRadii) : Succeeds (styleRadii style) := by
  rw [styleRadii]
  split
  · next corners hget =>
      rw [if_pos (List.all_eq_true.mpr (h _ (Fields.mem_of_get? hget) rfl corners rfl))]
      exact succeeds_ok _
  · exact succeeds_ok _
  · exact succeeds_ok _

theorem spacingOf_succeeds {t : Tree Placed} (ht : ∀ p ∈ t.preorder, p.IsLaidOut) :
    Succeeds (spacingOf (some t)) := by
  refine (succeeds_mapM fun p hp => ?_).bind fun _ _ => succeeds_ok _
  refine (succeeds_mapM fun n hn => ?_).bind fun _ _ => succeeds_ok _
  obtain ⟨a, rfl⟩ := Option.ne_none_iff_exists'.mp ((ht p hp).layout n hn)
  exact succeeds_ok a

end Tokens

namespace Style

theorem bundle_succeeds_of_hasRadii {t : Tree Placed} (ht : ∀ p ∈ t.preorder, p.IsLaidOut)
    {r : Registry} (hradii : ∀ entry ∈ r.styles, HasRadii entry.2) : Succeeds (r.bundle t) := by
  have htokens : Succeeds (Tokens.of r.styles (some t)) := by
    refine (Tokens.spacingOf_succeeds ht).bind fun spacing _ => ?_
    refine Succeeds.bind ?_ fun radii _ => succeeds_ok _
    refine (succeeds_mapM fun s hs => ?_).bind fun _ _ => succeeds_ok _
    obtain ⟨entry, hentry, rfl⟩ := List.mem_map.mp hs
    exact Tokens.styleRadii_succeeds (hradii entry hentry)
  exact htokens.lift.bind fun _ _ => succeeds_ok _

/-- What is assigned to a tree that is laid out can be bundled up. -/
theorem bundle_succeeds {t : Tree Placed} (ht : ∀ p ∈ t.preorder, p.IsLaidOut) {e e' : Element}
    {r : Registry} (h : assign t {} e = .ok (e', r)) : Succeeds (r.bundle t) :=
  bundle_succeeds_of_hasRadii ht (forall_styles_assign (fun _ _ hs => hasRadii_source ht hs) h)

end Style

end Mockup
