import Mockup.Layout.Placement
import Mockup.Proofs.Box.Flow
import Mockup.Proofs.Layer.Alike

namespace Mockup

structure Placed.Alike (c : Change) (a b : Placed) : Prop where
  block : a.toBlock.Alike c b.toBlock
  layout : a.layout = b.layout
  position : a.position = b.position

namespace Layout

variable {c : Change} {box box' : Box} {bs bs' : List Box}

theorem inferFlow_eq (h : List.Forall₂ c.Moves bs bs') : inferFlow bs = inferFlow bs' := by
  cases h with
  | nil => rfl
  | cons hb h =>
      cases h with
      | nil => rfl
      | cons hb' h =>
          have hall := List.Forall₂.cons hb (.cons hb' h)
          simp only [inferFlow, Box.isStack_eq hall, Box.flowsAlong_eq _ hall]

theorem inferPadding_eq (hbox : c.Moves box box') (h : List.Forall₂ c.Moves bs bs') :
    inferPadding box bs = inferPadding box' bs' := by
  cases h with
  | nil => rfl
  | cons hb h =>
      rw [inferPadding, inferPadding]
      refine (hb.start .horizontal).bind_eq fun left left' hleft => ?_
      refine (Result.agree_mapM h fun a b hab => hab.start .horizontal).bind_eq
        fun lefts lefts' hlefts => ?_
      refine (hb.start .vertical).bind_eq fun top top' htop => ?_
      refine (Result.agree_mapM h fun a b hab => hab.start .vertical).bind_eq
        fun tops tops' htops => ?_
      refine (hb.finish .horizontal).bind_eq fun right right' hright => ?_
      refine (Result.agree_mapM h fun a b hab => hab.finish .horizontal).bind_eq
        fun rights rights' hrights => ?_
      refine (hb.finish .vertical).bind_eq fun bottom bottom' hbottom => ?_
      refine (Result.agree_mapM h fun a b hab => hab.finish .vertical).bind_eq
        fun bottoms bottoms' hbottoms => ?_
      -- the edges of the box around the children move with the box that they are measured from
      have hspace {axis : Axis} {s s' t t' : Number} (hs : c.Shifts axis s s')
          (ht : c.Shifts axis t t') : roundedSpace s t = roundedSpace s' t' := by
        rw [roundedSpace, roundedSpace, hs.sub_eq ht]
      refine (hbox.start .vertical).bind_eq fun s s' hs => ?_
      rw [hspace (htop.minimum htops) hs]
      congr 1
      funext above
      refine (hbox.finish .horizontal).bind_eq fun s s' hs => ?_
      rw [hspace hs (hright.maximum hrights)]
      congr 1
      funext after
      refine (hbox.finish .vertical).bind_eq fun s s' hs => ?_
      rw [hspace hs (hbottom.maximum hbottoms)]
      congr 1
      funext below
      refine (hbox.start .horizontal).bind_eq fun s s' hs => ?_
      rw [hspace (hleft.minimum hlefts) hs]

theorem getLastD_related {a a' : Box} (ha : c.Moves a a') (h : List.Forall₂ c.Moves bs bs') :
    c.Moves (bs.getLastD a) (bs'.getLastD a') := by
  induction h generalizing a a' with
  | nil => exact ha
  | cons hb _ ih =>
      rw [List.getLastD_cons, List.getLastD_cons]
      exact ih hb

theorem inferMainAlign_eq (axis : Axis) (hbox : c.Moves box box')
    (h : List.Forall₂ c.Moves bs bs') :
    inferMainAlign box bs axis = inferMainAlign box' bs' axis := by
  rw [inferMainAlign, inferMainAlign]
  refine (Box.sortAlong_agree axis h).bind_eq fun as as' has => ?_
  cases has with
  | nil => rfl
  | cons hb h =>
      have hlast := (getLastD_related hb (.cons hb h)).finish axis
      refine (Change.difference_eq (hb.start axis) (hbox.start axis) _).trans ?_
      refine bind_congr fun s => bind_congr fun t => bind_congr fun leading => ?_
      exact Change.difference_eq (hbox.finish axis) hlast _

theorem inferCrossAlign_eq (axis : Axis) (hbox : c.Moves box box')
    (h : List.Forall₂ c.Moves bs bs') :
    inferCrossAlign box bs axis = inferCrossAlign box' bs' axis := by
  have hbefore : (bs.mapM fun b => b.start axis.other >>= fun s =>
      box.start axis.other >>= fun t => s.sub t) =
      bs'.mapM fun b => b.start axis.other >>= fun s => box'.start axis.other >>= fun t =>
        s.sub t :=
    Result.mapM_eq h fun a a' ha => (ha.start axis.other).bind_eq fun s s' hs =>
      (hbox.start axis.other).bind_eq fun t t' ht => hs.sub_eq ht
  have hafter : (bs.mapM fun b => box.finish axis.other >>= fun s =>
      b.finish axis.other >>= fun t => s.sub t) =
      bs'.mapM fun b => box'.finish axis.other >>= fun s => b.finish axis.other >>= fun t =>
        s.sub t :=
    Result.mapM_eq h fun a a' ha => (hbox.finish axis.other).bind_eq fun s s' hs =>
      (ha.finish axis.other).bind_eq fun t t' ht => hs.sub_eq ht
  rw [inferCrossAlign, inferCrossAlign, Related.isEmpty_eq h, h.length_eq]
  simp only [hbefore, hafter]

theorem infer_eq {b b' : Block} (hb : b.Alike c b') (h : List.Forall₂ c.Moves bs bs')
    (parent : Option Flow) : infer b bs parent = infer b' bs' parent := by
  have hflow : flowOf b.toTraits bs = flowOf b'.toTraits bs' := by
    rw [hb.traits.eq_of (fun t => flowOf t bs) fun _ => rfl, flowOf, flowOf, inferFlow_eq h]
  have hsizing := hb.traits.eq_of (fun t => sizingOf t parent) fun _ => rfl
  have hoverflow := hb.traits.eq_of (fun t => overflowOf t) fun _ => rfl
  have hauto := hb.traits.eq_of (fun t => t.autoLayout) fun _ => rfl
  simp only [infer, hflow, hsizing, hoverflow, hauto, Box.meanGap_eq _ h,
    inferMainAlign_eq _ hb.box h, inferCrossAlign_eq _ hb.box h, inferPadding_eq hb.box h]

end Layout

namespace Position

variable {c : Change} {box box' parent parent' : Box}

theorem along_eq (axis : Axis) (tie : Tie) (hbox : c.Moves box box')
    (hparent : c.Moves parent parent') :
    along axis tie box parent = along axis tie box' parent' := by
  rw [along, along, hbox.extent_eq, hparent.extent_eq]
  exact Change.difference_eq (hbox.start axis) (hparent.start axis) _

theorem of_eq {b b' : Block} (hb : b.Alike c b') (flow : Option Flow) {parent parent' : Option Box}
    (hparent : Option.Rel c.Moves parent parent') :
    of b flow parent = of b' flow parent' := by
  have hconstraints := hb.traits.eq_of (fun t => t.constraints) fun _ => rfl
  have hfree := hb.traits.eq_of (fun t => isFree t) fun _ => rfl
  rw [of.eq_def, of.eq_def, hconstraints, hfree]
  cases b'.constraints with
  | none => rfl
  | some k =>
      cases flow with
      | none => rfl
      | some flow =>
          cases hparent with
          | none => rfl
          | some hbox => simp only [ofConstraints, along_eq _ _ hb.box hbox]

end Position

namespace Layout

variable {c : Change}

theorem placeBlock_agree {b b' : Block} {ts ts' : List (Tree Block)} (hb : b.Alike c b')
    (hts : List.Forall₂ (Tree.Related (Block.Alike c)) ts ts') (flow : Option Flow)
    {box box' : Option Box} (hbox : Option.Rel c.Moves box box') :
    Result.Agree (Placed.Alike c) (placeBlock b ts flow box) (placeBlock b' ts' flow box') := by
  have hboxes : List.Forall₂ c.Moves (ts.map fun t => t.item.box) (ts'.map fun t => t.item.box) := by
    rw [List.forall₂_map_left_iff, List.forall₂_map_right_iff]
    exact hts.imp fun t t' ht => ht.item.box
  rw [placeBlock, placeBlock, infer_eq hb hboxes, Position.of_eq hb flow hbox]
  exact Result.agree_bind_of_eq rfl fun layout => Result.agree_bind_of_eq rfl fun position =>
    .ok ⟨hb, rfl, rfl⟩

theorem placeAll_agree {ts ts' : List (Tree Block)} {flow : Option Flow} {box box' : Option Box}
    (h : List.Forall₂ (fun t t' => Result.Agree (Tree.Related (Placed.Alike c))
      (place flow box t) (place flow box' t')) ts ts') :
    Result.Agree (List.Forall₂ (Tree.Related (Placed.Alike c))) (placeAll flow box ts)
      (placeAll flow box' ts') := by
  induction h with
  | nil => exact .ok .nil
  | cons h _ ih =>
      rw [placeAll, placeAll]
      exact h.bind fun p p' hp => ih.bind fun ps ps' hps => .ok (.cons hp hps)

theorem place_agree {t t' : Tree Block} (h : t.Related (Block.Alike c) t') :
    ∀ (flow : Option Flow) {box box' : Option Box}, Option.Rel c.Moves box box' →
      Result.Agree (Tree.Related (Placed.Alike c)) (place flow box t) (place flow box' t') := by
  induction t generalizing t' with
  | node b ts ih =>
      intro flow box box' hbox
      cases h with
      | node hb hts =>
          rw [place, place]
          -- children are placed in the layout just found, which is the same, and in a box that moves
          refine (placeBlock_agree hb hts flow hbox).bind fun p p' hp => ?_
          rw [hp.layout]
          have hall := Related.imp_mem hts fun t ht u h => ih t ht h (some p'.layout.flow)
            (.some hb.box)
          exact (placeAll_agree hall).bind fun ps ps' hps => .ok (.node hp hps)

end Layout

end Mockup
