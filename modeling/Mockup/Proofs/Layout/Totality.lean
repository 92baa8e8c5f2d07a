import Mockup.Layout.Placement
import Mockup.Proofs.Layer.Bounds
import Mockup.Proofs.Tree.Occurrence

namespace Mockup

open Result Number

namespace Layout

variable {a b : Number} {box : Box} {boxes : List Box}

def IsSpaced (l : Layout) : Prop := ∀ n ∈ l.gap :: l.padding.toList, n ≠ none

theorem inferFlow_succeeds (hboxes : ∀ b ∈ boxes, b.Bounded) : Succeeds (inferFlow boxes) := by
  match boxes with
  | [] | [_] => exact succeeds_ok _
  | a :: b :: rest =>
      refine (Box.isStack_succeeds hboxes).bind fun _ _ => Succeeds.unlessReturned fun _ => ?_
      refine (Box.flowsAlong_succeeds _ hboxes).bind fun _ _ => Succeeds.unlessReturned fun _ => ?_
      refine (Box.flowsAlong_succeeds _ hboxes).bind fun _ _ => Succeeds.unlessReturned fun _ => ?_
      exact succeeds_ok _

theorem flowOf_succeeds (t : Traits) (hboxes : ∀ b ∈ boxes, b.Bounded) :
    Succeeds (flowOf t boxes) := by
  rw [flowOf]
  split
  · exact succeeds_ok _
  · exact inferFlow_succeeds hboxes

theorem roundedSpace_yields (ha : a.Whole 501) (hb : b.Whole 501) :
    Yields (fun n => n ≠ none) (roundedSpace a b) := by
  refine (ha.sub hb).bind fun c hc => ?_
  exact (hc.within.roundHalfUp (by decide)).yields.bind fun _ _ => yields_ok (by simp)

theorem inferPadding_yields (hbox : box.Bounded) (hboxes : ∀ b ∈ boxes, b.Bounded) :
    Yields (fun p : Padding => ∀ n ∈ p.toList, n ≠ none) (inferPadding box boxes) := by
  cases boxes with
  | nil => exact yields_ok (by simp [Padding.toList])
  | cons b rest =>
      obtain ⟨hb, hrest⟩ := List.forall_mem_cons.mp hboxes
      have hstarts (axis : Axis) := yields_mapM fun c hc =>
        ((hrest c hc).start axis).mono fun _ h => h.mono (show 500 ≤ 501 by decide)
      have hfinishes (axis : Axis) := yields_mapM fun c hc => (hrest c hc).finish axis
      have hstart (axis : Axis) {c : Box} (hc : c.Bounded) :=
        (hc.start axis).mono fun _ h => h.mono (show 500 ≤ 501 by decide)
      refine (hstart .horizontal hb).bind fun l hl => (hstarts .horizontal).bind fun ls hls => ?_
      refine (hstart .vertical hb).bind fun t ht => (hstarts .vertical).bind fun ts hts => ?_
      refine (hb.finish .horizontal).bind fun r hr => (hfinishes .horizontal).bind fun rs hrs => ?_
      refine (hb.finish .vertical).bind fun u hu => (hfinishes .vertical).bind fun us hus => ?_
      refine (hstart .vertical hbox).bind fun top htop => ?_
      refine (roundedSpace_yields (minimum_cases _ ht hts.2) htop).bind fun _ hn₁ => ?_
      refine (hbox.finish .horizontal).bind fun right hright => ?_
      refine (roundedSpace_yields hright (maximum_cases _ hr hrs.2)).bind fun _ hn₂ => ?_
      refine (hbox.finish .vertical).bind fun bottom hbottom => ?_
      refine (roundedSpace_yields hbottom (maximum_cases _ hu hus.2)).bind fun _ hn₃ => ?_
      refine (hstart .horizontal hbox).bind fun left hleft => ?_
      refine (roundedSpace_yields (minimum_cases _ hl hls.2) hleft).bind fun _ hn₄ => yields_ok ?_
      simp [Padding.toList, hn₁, hn₂, hn₃, hn₄]

theorem classifySpace_succeeds {k : Nat} (ha : a.Within k) (hb : b.Within k) (hk : k + 3 < 1023) :
    Succeeds (classifySpace a b) := by
  refine (ha.sub hb hk).andThen fun _ _ => Succeeds.unlessReturned fun _ => ?_
  exact Succeeds.unlessReturned fun _ => succeeds_ok _

theorem inferMainAlign_succeeds (hbox : box.Bounded) (hboxes : ∀ b ∈ boxes, b.Bounded)
    (axis : Axis) : Succeeds (inferMainAlign box boxes axis) := by
  refine (Box.sortAlong_yields_of_bounded hboxes axis).andThen fun sorted hsorted => ?_
  have hsorted : ∀ b ∈ sorted, b.Bounded := fun b hb => hboxes b (hsorted.mem_iff.mp hb)
  cases sorted with
  | nil => exact succeeds_ok _
  | cons b rest =>
      have hb := hsorted b List.mem_cons_self
      have hlast : ((b :: rest).getLastD b).Bounded := by
        rw [List.getLastD_eq_getLast?, List.getLast?_eq_some_getLast (List.cons_ne_nil b rest)]
        exact hsorted _ (List.getLast_mem _)
      refine (hb.start axis).andThen fun s hs => (hbox.start axis).andThen fun t ht => ?_
      refine (hs.sub ht).andThen fun leading hleading => ?_
      refine (hbox.finish axis).andThen fun u hu => (hlast.finish axis).andThen fun v hv => ?_
      refine (hu.sub hv).andThen fun trailing htrailing => ?_
      have hleading := hleading.mono (show 501 ≤ 502 by decide)
      exact classifySpace_succeeds hleading.within htrailing.within (by decide)

theorem inferCrossAlign_succeeds (hbox : box.Bounded) (hboxes : ∀ b ∈ boxes, b.Bounded)
    (axis : Axis) : Succeeds (inferCrossAlign box boxes axis) := by
  refine Succeeds.unlessReturned fun hne => ?_
  have hcount : 0 < boxes.length := by rwa [List.length_pos_iff, ne_eq, ← List.isEmpty_iff]
  have hbefore := yields_mapM fun b hb =>
    ((hboxes b hb).start axis.other).bind fun s hs => (hbox.start axis.other).bind fun t ht =>
      hs.sub ht
  have hafter := yields_mapM fun b hb =>
    (hbox.finish axis.other).bind fun s hs => ((hboxes b hb).finish axis.other).bind fun t ht =>
      hs.sub ht
  refine hbefore.andThen fun before ⟨hlength, hbefore⟩ => ?_
  have hleading := mean_yields hcount hlength hbefore (by decide)
  -- The sum and its division are taken as one result, the mean.
  rw [← bind_assoc]
  refine hleading.andThen fun leading hleading => ?_
  refine hafter.andThen fun after ⟨hlength, hafter⟩ => ?_
  have htrailing := mean_yields hcount hlength hafter (by decide)
  rw [← bind_assoc]
  refine htrailing.andThen fun trailing htrailing => ?_
  exact classifySpace_succeeds (hleading.mono (by decide)) htrailing (by decide)

theorem infer_yields {b : Block} (hb : b.Bounded) (hboxes : ∀ b ∈ boxes, b.Bounded)
    (parent : Option Flow) : Yields IsSpaced (infer b boxes parent) := by
  refine (flowOf_succeeds b.toTraits hboxes).yields.bind fun flow _ => ?_
  cases hauto : b.autoLayout with
  | some a => exact yields_ok (hb.traits.spacing a hauto)
  | none =>
      cases flow.axis? with
      | some axis =>
          refine (Box.meanGap_succeeds axis hboxes).yields.bind fun gap _ => ?_
          refine (inferMainAlign_succeeds hb.box hboxes axis).yields.bind fun _ _ => ?_
          refine (inferCrossAlign_succeeds hb.box hboxes axis).yields.bind fun _ _ => ?_
          refine (inferPadding_yields hb.box hboxes).bind fun padding hpadding => yields_ok ?_
          exact List.forall_mem_cons.mpr ⟨by simp, hpadding⟩
      | none =>
          refine (inferPadding_yields hb.box hboxes).bind fun padding hpadding => yields_ok ?_
          exact List.forall_mem_cons.mpr ⟨by simp, hpadding⟩

end Layout

namespace Position

variable {a b : Number} {box parent : Box}

inductive IsEntry : Value → Prop
  | text (s : String) : IsEntry (.text s)
  | number {n : Number} (hn : n.Whole 503) : IsEntry (.number n)

theorem formatPercent_succeeds (ha : a.InRange) : Succeeds (formatPercent a) :=
  (Succeeds.yields ha).andThen fun _ _ => succeeds_ok _

theorem percent_succeeds {k : Nat} (ha : a.Whole k) (hb : b.Whole k) (hk : k < 1023) :
    Succeeds (percent a b) := by
  have hzero : (0 : Number).InRange :=
    (Within.int 0 (Nat.zero_le (2 ^ 0))).inRange (by decide)
  have hhundred : (100 : Number).InRange :=
    (Within.int (k := 7) 100 (by decide)).inRange (by decide)
  refine Succeeds.ite (fun _ => formatPercent_succeeds hzero) fun hne => ?_
  refine (div_yields (ha.within.inRange hk) (hb.within.inRange hk) (by simpa using hne)).andThen
    fun part hpart => ?_
  exact (hpart.mul hhundred).andThen fun _ hshare => formatPercent_succeeds hshare.inRange

theorem isEntry_normalize (ha : a.Whole 503) : IsEntry (.number a.normalize) := by
  obtain ⟨i, hi⟩ := ha
  exact .number (.int i hi)

theorem along_yields (axis : Axis) (tie : Tie) (hbox : box.Bounded) (hparent : parent.Bounded) :
    Yields (fun fields => ∀ entry ∈ fields, IsEntry entry.2) (along axis tie box parent) := by
  refine (hbox.start axis).bind fun s hs => (hparent.start axis).bind fun t ht => ?_
  refine (hs.sub ht).bind fun offset hoffset => ?_
  refine (hbox.extent axis).bind fun size hsize => (hparent.extent axis).bind fun whole hwhole => ?_
  refine (hoffset.add (hsize.mono (show 500 ≤ 501 by decide))).bind fun last hlast => ?_
  refine ((hwhole.mono (show 500 ≤ 502 by decide)).sub hlast).bind fun trailing htrailing => ?_
  have hnear := isEntry_normalize (hoffset.mono (show 501 ≤ 503 by decide))
  have hfar := isEntry_normalize htrailing
  cases tie with
  | near => exact yields_ok (List.forall_mem_singleton.mpr hnear)
  | far => exact yields_ok (List.forall_mem_singleton.mpr hfar)
  | both => exact yields_ok (by simp [hnear, hfar, IsEntry.text])
  | scale =>
      have hwhole := hwhole.mono (show 500 ≤ 501 by decide)
      have hsize := hsize.mono (show 500 ≤ 501 by decide)
      refine (percent_succeeds hoffset hwhole (by decide)).yields.bind fun _ _ => ?_
      refine (percent_succeeds hsize hwhole (by decide)).yields.bind fun _ _ => ?_
      exact yields_ok (by simp [IsEntry.text])

theorem of_yields {b : Block} (hb : b.box.Bounded) (flow : Option Flow) {parent : Option Box}
    (hparent : ∀ box, parent = some box → box.Bounded) :
    Yields (fun position => ∀ entry ∈ position.getD [], IsEntry entry.2)
      (of b flow parent) := by
  rw [of.eq_def]
  split
  · split
    · next hbox _ =>
        refine Yields.bind ?_ fun fields hfields => yields_ok hfields
        refine (along_yields _ _ hb (hparent _ rfl)).bind fun across hacross => ?_
        refine (along_yields _ _ hb (hparent _ rfl)).bind fun down hdown => yields_ok ?_
        exact List.forall_mem_cons.mpr
          ⟨.text "absolute", List.forall_mem_append.mpr ⟨hacross, hdown⟩⟩
    · exact yields_ok (by simp)
  · exact yields_ok (by simp)

end Position

structure Placed.IsLaidOut (p : Placed) : Prop where
  block : p.toBlock.Bounded
  layout : p.layout.IsSpaced
  position : ∀ entry ∈ p.position.getD [], Position.IsEntry entry.2

namespace Layout

variable {flow : Option Flow} {parent : Option Box}

theorem placeBlock_yields {b : Block} (hb : b.Bounded) {ts : List (Tree Block)}
    (hts : ∀ t ∈ ts, t.item.Bounded) (hparent : ∀ box, parent = some box → box.Bounded) :
    Yields Placed.IsLaidOut (placeBlock b ts flow parent) := by
  have hboxes : ∀ box ∈ ts.map (fun t => t.item.box), box.Bounded :=
    List.forall_mem_map.mpr fun t ht => (hts t ht).box
  refine (infer_yields hb hboxes flow).bind fun layout hlayout => ?_
  exact (Position.of_yields hb.box flow hparent).bind fun position hposition =>
    yields_ok ⟨hb, hlayout, hposition⟩

theorem placeAll_yields {ts : List (Tree Block)}
    (h : ∀ t ∈ ts, Yields (fun p => ∀ q ∈ p.preorder, q.IsLaidOut) (place flow parent t)) :
    Yields (fun ps => ∀ p ∈ ps, ∀ q ∈ p.preorder, q.IsLaidOut) (placeAll flow parent ts) := by
  induction ts with
  | nil => exact yields_ok (by simp)
  | cons t ts ih =>
      obtain ⟨ht, hts⟩ := List.forall_mem_cons.mp h
      rw [placeAll]
      exact ht.bind fun p hp => (ih hts).bind fun ps hps =>
        yields_ok (List.forall_mem_cons.mpr ⟨hp, hps⟩)

/-- Every tree of bounded blocks is placed. -/
theorem place_yields {t : Tree Block} (ht : ∀ b ∈ t.preorder, b.Bounded)
    (hparent : ∀ box, parent = some box → box.Bounded) :
    Yields (fun p => ∀ q ∈ p.preorder, q.IsLaidOut) (place flow parent t) := by
  induction t generalizing flow parent with
  | node b ts ih =>
      rw [Tree.preorder_node] at ht
      obtain ⟨hb, hbelow⟩ := List.forall_mem_cons.mp ht
      have hts : ∀ t ∈ ts, ∀ b ∈ t.preorder, b.Bounded := fun t ht b hb =>
        hbelow b (List.mem_flatMap.mpr ⟨t, ht, hb⟩)
      have hitems : ∀ t ∈ ts, t.item.Bounded := fun t ht =>
        hts t ht _ (Tree.item_mem_preorder t.mem_subtrees_self)
      rw [place]
      refine (placeBlock_yields hb hitems hparent).bind fun p hp => ?_
      have hplaced : ∀ t ∈ ts, Yields (fun p => ∀ q ∈ p.preorder, q.IsLaidOut)
          (place (some p.layout.flow) (some b.box) t) :=
        fun t ht => ih t ht (hts t ht) (by rintro _ ⟨⟩; exact hb.box)
      refine (placeAll_yields hplaced).bind fun ps hps => yields_ok ?_
      rw [Tree.preorder_node]
      refine List.forall_mem_cons.mpr ⟨hp, fun q hq => ?_⟩
      obtain ⟨p, hp, hq⟩ := List.mem_flatMap.mp hq
      exact hps p hp q hq

end Layout

end Mockup
