import Mockup.Proofs.Element.Recognition
import Mockup.Proofs.Naming.StyleRef
import Mockup.Proofs.Number.Rounding

namespace Mockup

open Result

/-- A layer with an id, an extent in the range of reals, and an opacity for each fill. -/
structure Placed.Complete (p : Placed) : Prop where
  id : p.id ≠ none
  extent : ∀ axis, ∃ a, p.box.extent axis = .ok a ∧ a.InRange
  opacity : ∀ f ∈ p.fills, f.opacity ≠ none

theorem Placed.Complete.extent_succeeds {p : Placed} (hp : p.Complete) (axis : Axis) :
    Succeeds (p.box.extent axis) := by
  obtain ⟨a, ha, -⟩ := hp.extent axis
  exact ⟨a, ha⟩

theorem Placed.Complete.inRange {p : Placed} (hp : p.Complete) {axis : Axis} {a : Number}
    (ha : p.box.extent axis = .ok a) : a.InRange := by
  obtain ⟨b, hb, hrange⟩ := hp.extent axis
  rw [ha] at hb
  exact Except.ok.inj hb ▸ hrange

namespace Role

variable {p : Placed} {ts : List (Tree Placed)}

theorem hasIconShape_succeeds (hp : p.Complete) : Succeeds (hasIconShape p.box) := by
  apply (hp.extent_succeeds .horizontal).bind
  intro width hwidth
  apply Succeeds.unlessReturned
  intro _
  apply (hp.extent_succeeds .vertical).bind
  intro height hheight
  apply Succeeds.unlessReturned
  intro hsize
  have hzero : height.isZero = false := by
    by_contra h
    have hlt : height.lt iconMinimum = true :=
      Number.lt_of_isZero (Bool.not_eq_false _ ▸ h) (by decide)
    exact hsize (by rw [hlt, Bool.or_true])
  apply Succeeds.bind (Number.div_eq_ok (hp.inRange hwidth) (hp.inRange hheight) hzero)
  exact fun _ _ => succeeds_ok _

theorem isIcon_succeeds (hp : p.Complete) : Succeeds (isIcon p ts) := by
  apply Succeeds.unlessReturned
  intro _
  apply (hasIconShape_succeeds hp).bind
  intro shape _
  apply Succeeds.unlessReturned
  exact fun _ => succeeds_ok _

theorem hasButtonShape_succeeds (hp : p.Complete) : Succeeds (hasButtonShape p.box) := by
  apply (hp.extent_succeeds .horizontal).bind
  intro width hwidth
  apply (hp.extent_succeeds .vertical).bind
  intro height hheight
  apply Succeeds.unlessReturned
  intro hsize
  have hzero : height.isZero = false := by
    by_contra h
    have hle := Number.le_of_isZero (Bool.not_eq_false _ ▸ h)
    exact hsize (by rw [hle, Bool.or_true])
  apply Succeeds.bind (Number.div_eq_ok (hp.inRange hwidth) (hp.inRange hheight) hzero)
  exact fun _ _ => succeeds_ok _

theorem isButton_succeeds (hp : p.Complete) : Succeeds (isButton p ts) := by
  apply Succeeds.unlessReturned
  intro _
  apply (hp.extent_succeeds .vertical).bind
  intro height _
  apply Succeeds.unlessReturned
  intro _
  apply Succeeds.unlessReturned
  intro _
  apply Succeeds.unlessReturned
  exact fun _ => hasButtonShape_succeeds hp

theorem isCard_succeeds (hp : p.Complete) : Succeeds (isCard p ts) := by
  apply Succeeds.unlessReturned
  intro _
  apply (hp.extent_succeeds .horizontal).bind
  intro width _
  apply Succeeds.unlessReturned
  intro _
  apply (hp.extent_succeeds .vertical).bind
  exact fun _ _ => succeeds_ok _

theorem of_succeeds (hp : p.Complete) : Succeeds (Role.of p ts) := by
  apply Succeeds.unlessReturned
  intro _
  apply Succeeds.unlessReturned
  intro _
  apply (isIcon_succeeds hp).bind
  intro icon _
  apply Succeeds.unlessReturned
  intro _
  apply Succeeds.unlessReturned
  intro _
  apply (isButton_succeeds hp).bind
  intro button _
  apply Succeeds.unlessReturned
  intro _
  apply (isCard_succeeds hp).bind
  intro card _
  apply Succeeds.unlessReturned
  exact fun _ => succeeds_ok _

theorem buttonVariant_succeeds (hp : p.Complete) : Succeeds (buttonVariant p.toTraits) := by
  have hany (test : Number → Bool) : Succeeds (p.fills.anyM (Fill.isSolidWith test)) := by
    apply succeeds_anyM
    intro f hf
    apply Succeeds.ite
    · intro _
      cases ho : f.opacity with
      | none => exact absurd ho (hp.opacity f hf)
      | some o => exact succeeds_ok _
    · exact fun _ => succeeds_ok _
  apply (hany _).bind
  intro filled _
  apply Succeeds.unlessReturned
  intro _
  apply (hany _).bind
  intro ghost _
  apply Succeeds.unlessReturned
  exact fun _ => succeeds_ok _

end Role

namespace Element

theorem linkAll_succeeds {n : Naming} {es : List Element}
    (h : ∀ e ∈ es, ∀ t, Succeeds (link n t e)) (t : PropertyTable) :
    Succeeds (linkAll n t es) := by
  induction es generalizing t with
  | nil => exact succeeds_ok _
  | cons e es ih =>
      rw [linkAll]
      apply (h e List.mem_cons_self t).bind
      rintro ⟨e', t'⟩ -
      apply (ih (fun e he => h e (List.mem_cons_of_mem _ he)) t').bind
      exact fun _ _ => succeeds_ok _

/-- Elements of the closed set of variants can be linked. -/
theorem link_succeeds {n : Naming} {e : Element} (h : ∀ x ∈ e.nodes, x.isForeign = false)
    (t : PropertyTable) : Succeeds (link n t e) := by
  induction e generalizing t with
  | leaf i c => exact succeeds_ok _
  | foreign i v => exact absurd (h _ (mem_nodes_self _)) (by simp [isForeign])
  | branch i r l es ih =>
      have hbelow : ∀ e ∈ es, ∀ t, Succeeds (link n t e) := by
        intro e he
        apply ih e he
        exact fun x hx => h x (nodes_subset_of_child he hx)
      cases r with
      | repeater r => exact succeeds_ok _
      | container | card | component =>
          rw [link]
          · apply (linkAll_succeeds hbelow t).bind
            exact fun _ _ => succeeds_ok _
          · intro r hr
            cases hr

end Element

namespace Recognition

variable {n : Naming} {p : Placed} {ts : List (Tree Placed)}

theorem styleRefOf_succeeds (hn : n.Readable) (hp : p.Complete) : Succeeds (styleRefOf n p ts) :=
  Naming.styleRef_succeeds hn hp.id _ _ _

theorem identityOf_succeeds (hn : n.Readable) (hp : p.Complete) : Succeeds (identityOf n p ts) :=
  (styleRefOf_succeeds hn hp).bind fun _ _ => succeeds_ok _

theorem styleRefOfTree_succeeds (hn : n.Readable) {t : Tree Placed} (ht : t.item.Complete) :
    Succeeds (styleRefOfTree n t) := by
  cases t with
  | node p ts => exact styleRefOf_succeeds hn ht

theorem button_succeeds (hn : n.Readable) (hp : p.Complete) (hts : ∀ t ∈ ts, t.item.Complete) :
    Succeeds (button n p ts) := by
  have hfind : Succeeds (ts.findM? Role.isIconTree) := by
    apply succeeds_findM
    intro t ht
    cases t with
    | node q us => exact Role.isIcon_succeeds (hts _ ht)
  rw [button]
  apply hfind.lift.bind
  intro icon hicon
  apply Succeeds.bind
  · apply succeeds_mapM_option
    rintro t rfl
    exact styleRefOfTree_succeeds hn (hts t (mem_of_findM_eq_ok (lift_eq_ok_iff.mp hicon)))
  intro iconRef _
  apply (identityOf_succeeds hn hp).bind
  intro i _
  apply (Role.buttonVariant_succeeds hp).lift.bind
  intro variant _
  apply Succeeds.bind
  · apply succeeds_mapM_option
    intro t ht
    exact styleRefOfTree_succeeds hn (hts t (List.mem_of_find?_eq_some ht))
  · exact fun _ _ => succeeds_ok _

theorem recognizeAll_succeeds (h : ∀ t ∈ ts, Succeeds (recognize n t)) :
    Succeeds (recognizeAll n ts) := by
  induction ts with
  | nil => exact succeeds_ok _
  | cons t ts ih =>
      rw [recognizeAll]
      apply (h t List.mem_cons_self).bind
      intro e _
      apply (ih fun t ht => h t (List.mem_cons_of_mem _ ht)).bind
      exact fun _ _ => succeeds_ok _

theorem extractProperties_succeeds {es : List Element} (h : recognizeAll n ts = .ok es) :
    Succeeds (Element.extractProperties n es) := by
  rw [Element.extractProperties]
  apply Succeeds.bind
  · apply Element.linkAll_succeeds
    intro e he
    obtain ⟨t, -, ht⟩ := Related.exists_of_mem (recognizeAll_eq_ok_iff.mp h) he
    exact Element.link_succeeds (recognize_closed ht)
  · exact fun _ _ => succeeds_ok _

/-- Every tree of complete layers is recognized. -/
theorem recognize_succeeds (hn : n.Readable) {t : Tree Placed}
    (ht : ∀ p ∈ t.preorder, p.Complete) : Succeeds (recognize n t) := by
  induction t with
  | node p ts ih =>
      rw [Tree.preorder_node] at ht
      have hp := ht p List.mem_cons_self
      have hbelow : ∀ t ∈ ts, ∀ p ∈ t.preorder, p.Complete := fun t hmem p hp =>
        ht p (List.mem_cons_of_mem _ (List.mem_flatMap.mpr ⟨t, hmem, hp⟩))
      have hes : Succeeds (recognizeAll n ts) :=
        recognizeAll_succeeds fun t hmem => ih t hmem (hbelow t hmem)
      rw [recognize]
      apply (Role.of_succeeds hp).lift.bind
      intro role _
      cases role with
      | component =>
          apply hes.bind
          intro es hes
          apply (extractProperties_succeeds hes).bind
          intro properties _
          apply (identityOf_succeeds hn hp).bind
          exact fun _ _ => succeeds_ok _
      | text | image =>
          apply (identityOf_succeeds hn hp).bind
          exact fun _ _ => succeeds_ok _
      | icon =>
          apply (identityOf_succeeds hn hp).bind
          intro i _
          have hside : Succeeds (longerSide p.box) := by
            apply (hp.extent_succeeds .horizontal).bind
            intro width _
            apply (hp.extent_succeeds .vertical).bind
            exact fun _ _ => succeeds_ok _
          apply hside.lift.bind
          exact fun _ _ => succeeds_ok _
      | button =>
          apply button_succeeds hn hp
          exact fun t hmem => hbelow t hmem _ (Tree.item_mem_preorder t.mem_subtrees_self)
      | card | container =>
          apply (identityOf_succeeds hn hp).bind
          intro i _
          apply hes.bind
          exact fun _ _ => succeeds_ok _

end Recognition

end Mockup
