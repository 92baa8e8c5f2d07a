import Mockup.Proofs.Element.Rejection
import Mockup.Proofs.Element.Totality
import Mockup.Proofs.Layout.Totality
import Mockup.Proofs.Style.Resolution

namespace Mockup

open Result Number

theorem Placed.IsLaidOut.complete {p : Placed} (hp : p.IsLaidOut) : p.Complete where
  id := hp.block.traits.id
  extent := fun axis => by
    obtain ⟨a, ha, hwhole⟩ := hp.block.box.extent axis
    exact ⟨a, ha, hwhole.within.inRange (by decide)⟩
  opacity := fun f hf => by
    obtain ⟨a, ha, -⟩ := (hp.block.traits.fills f hf).opacity
    rw [ha]
    exact Option.some_ne_none a

structure Identity.Bounded (i : Identity) : Prop where
  id : i.id ≠ none
  box : i.box.Bounded

namespace Recognition

variable {n : Naming} {p : Placed} {ts : List (Tree Placed)} {e : Element}

theorem bounded_identityOf (hp : p.IsLaidOut) {i : Identity} (h : identityOf n p ts = .ok i) :
    i.Bounded := by
  obtain ⟨ref, -, h⟩ := bind_eq_ok_iff.mp h
  cases h
  exact ⟨hp.block.traits.id, hp.block.box⟩

theorem bounded_nodes_of_recognize {t : Tree Placed} (ht : ∀ p ∈ t.preorder, p.IsLaidOut)
    (h : recognize n t = .ok e) : ∀ x ∈ e.nodes, x.identity.Bounded := by
  intro x hx
  refine forall_nodes_of_recognize (P := fun t x => (∀ p ∈ t.preorder, p.IsLaidOut) →
    x.identity.Bounded) ?_ ?_ ?_ ?_ ?_ ?_ h x hx ht
  · exact fun p ts role i c _ hi _ ht => bounded_identityOf (ht p List.mem_cons_self) hi
  · exact fun p ts i c es hi _ ht => bounded_identityOf (ht p List.mem_cons_self) hi
  · exact fun p ts role r i es _ hi _ _ ht => bounded_identityOf (ht p List.mem_cons_self) hi
  · -- a repeater always has an id, and its box is that of the first layer of its run
    exact fun t p item items hp _ _ ht => ⟨Option.some_ne_none _, (ht p hp).block.box⟩
  · exact fun t u x hmem h hu => h fun p hp => hu p ((Tree.preorder_sublist hmem).subset hp)
  · intro t x x' hxx h ht
    have hidentity : x'.identity = x.identity := Element.identity_of_relabel_eq hxx
    rw [hidentity]
    exact h ht

end Recognition

namespace Style

/-- Styles leave ids and boxes as they are. -/
theorem bounded_nodes_of_assign {t : Tree Placed} {e e' : Element} {r r' : Registry}
    (he : ∀ x ∈ e.nodes, x.identity.Bounded) (h : assign t r e = .ok (e', r')) :
    ∀ x ∈ e'.nodes, x.identity.Bounded := by
  intro x' hx'
  obtain ⟨x, hx, hxx⟩ := Element.exists_mem_nodes_of_relabel_eq (bare_assign h) hx'
  have hidentity := Element.identity_of_relabel_eq hxx
  obtain ⟨hid, hbox⟩ := he x hx
  exact ⟨fun hnone => hid ((congrArg Identity.id hidentity).symm.trans hnone),
    (congrArg Identity.box hidentity) ▸ hbox⟩

end Style

namespace Listing

variable {a b : Number} {x y : Box} {e : Element}

theorem similarExtent_succeeds (ha : a.Whole 500) (hb : b.Whole 500) :
    Succeeds (similarExtent a b) := by
  have hleast : leastExtent.Within 500 := by
    have hratio := Binary64.within_ofRatio (n := 1) (d := 100) (k := 0) false
      (by decide) (by decide)
    exact (Within.real _ hratio).mono (by decide)
  have hpositive : Number.lt 0 leastExtent = true := by decide +kernel
  have ha' := max_cases (Within 500) ha.within hleast
  have hb' := max_cases (Within 500) hb.within hleast
  have hzero := max_cases (fun n => n.isZero = false) (isZero_max a hpositive)
    (isZero_max b hpositive)
  refine (ha'.sub hb' (by decide)).andThen fun difference hdifference => ?_
  refine (div_yields (hdifference.abs.inRange (by decide))
    ((max_cases (Within 500) ha' hb').inRange (by decide)) hzero).andThen fun _ _ => ?_
  exact succeeds_ok _

theorem similarSize_succeeds (hx : x.Bounded) (hy : y.Bounded) : Succeeds (similarSize x y) := by
  refine (hx.extent .horizontal).andThen fun w hw => ?_
  refine (hy.extent .horizontal).andThen fun w' hw' => ?_
  refine (hx.extent .vertical).andThen fun k hk => ?_
  refine (hy.extent .vertical).andThen fun k' hk' => ?_
  refine (similarExtent_succeeds hw hw').bind fun similar _ => ?_
  exact Succeeds.ite (fun _ => similarExtent_succeeds hk hk') fun _ => succeeds_ok _

theorem itemTypeOf_succeeds (he : e.id ≠ none) : Succeeds (itemTypeOf e) := by
  have hbyId : Succeeds (itemTypeById e) := by
    obtain ⟨id, hid⟩ := Option.ne_none_iff_exists'.mp he
    rw [itemTypeById, hid]
    exact succeeds_ok _
  rw [itemTypeOf]
  split
  · exact Succeeds.unlessReturned fun _ => hbyId
  · exact hbyId

theorem of?_succeeds (i : Identity) (l : Layout) {es : List Element}
    (hes : ∀ e ∈ es, e.identity.Bounded) : Succeeds (of? i l es) := by
  rw [of?.eq_def]
  split
  · next first second third rest =>
      have hfirst := hes first List.mem_cons_self
      refine (succeeds_allM fun e he => ?_).bind fun alike _ => ?_
      · exact Succeeds.ite (fun _ => (similarSize_succeeds (hes e he).box hfirst.box).lift)
          fun _ => succeeds_ok _
      · refine Succeeds.ite (fun _ => ?_) fun _ => succeeds_ok _
        exact (itemTypeOf_succeeds hfirst.id).bind fun _ _ => succeeds_ok _
  · exact succeeds_ok _

/-- Lists can be looked for among elements of the closed set of variants with bounded boxes. -/
theorem detect_succeeds (hclosed : ∀ x ∈ e.nodes, x.isForeign = false)
    (hbounded : ∀ x ∈ e.nodes, x.identity.Bounded) : Succeeds (detect e) := by
  have htroubles : troubles e = [] := by
    refine List.filterMap_eq_nil_iff.mpr fun x hx => ?_
    have hx : x ∈ e.nodes := by
      obtain ⟨place, hplace, -, rfl⟩ := Element.mem_reached_iff.mp hx
      exact Element.map_snd_places e ▸ List.mem_map_of_mem hplace
    have hlist : Succeeds (listOf? x) := by
      cases x with
      | leaf i c => exact succeeds_ok _
      | foreign i v => exact succeeds_ok _
      | branch i r l es =>
          refine Succeeds.ite (fun _ => of?_succeeds i l fun e he => ?_) fun _ => succeeds_ok _
          exact hbounded e ((Element.nodes_sublist hx).subset
            (Element.nodes_subset_of_child he e.mem_nodes_self))
    obtain ⟨found, hfound⟩ := hlist
    rw [trouble?, hfound]
    exact Element.rejection?_eq_none_iff.mpr (hclosed x hx)
  have hfails := detect_failsFirst e
  rw [htroubles] at hfails
  exact hfails.succeeds_of_nil

end Listing

end Mockup
