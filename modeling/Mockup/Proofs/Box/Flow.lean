import Mockup.Box.Flow
import Mockup.Proofs.Box.Motion

namespace Mockup.Box

variable {c : Change} {a a' b b' : Box} {bs bs' : List Box}

theorem startsBefore_eq (axis : Axis) (ha : c.Moves a a') (hb : c.Moves b b') :
    startsBefore axis a b = startsBefore axis a' b' := by
  have hs := ha.start axis
  have ht := hb.start axis
  rw [startsBefore, startsBefore]
  generalize a.start axis = s, a'.start axis = s' at hs ⊢
  generalize b.start axis = t, b'.start axis = t' at ht ⊢
  cases hs with
  | error f => rfl
  | ok hs =>
      cases ht with
      | error f => rfl
      | ok ht => exact hs.lt_eq ht

theorem forM_start_eq (axis : Axis) (h : List.Forall₂ c.Moves bs bs') :
    (bs.forM fun b => b.start axis >>= fun _ => pure ()) =
      bs'.forM fun b => b.start axis >>= fun _ => pure () := by
  induction h with
  | nil => rfl
  | cons hb _ ih =>
      rw [List.forM, List.forM, ih, (hb.start axis).bind_eq fun _ _ _ => rfl]

theorem sortAlong_agree (axis : Axis) (h : List.Forall₂ c.Moves bs bs') :
    Result.Agree (List.Forall₂ c.Moves) (sortAlong axis bs) (sortAlong axis bs') := by
  have hsorted := Related.mergeSort (p := fun a b => !startsBefore axis b a)
    (q := fun a b => !startsBefore axis b a) h
    fun a b a' b' ha ha' => congrArg (!·) (startsBefore_eq axis ha' ha)
  rw [sortAlong, sortAlong, h.length_eq]
  split
  · exact Result.agree_bind_of_eq (forM_start_eq axis h) fun _ => .ok hsorted
  · exact .ok hsorted

theorem inSequence_eq (axis : Axis) (h : List.Forall₂ c.Moves bs bs') :
    inSequence axis bs = inSequence axis bs' := by
  induction h with
  | nil => rfl
  | cons ha h ih =>
      cases h with
      | nil => rfl
      | cons hb h =>
          rw [inSequence, inSequence]
          refine (ha.finish axis).bind_eq fun s s' hs => ?_
          refine (hs.sub_int 2).bind_eq fun t t' ht => ?_
          refine (hb.start axis).bind_eq fun u u' hu => ?_
          rw [hu.lt_eq ht, ih]

theorem flowsAlong_eq (axis : Axis) (h : List.Forall₂ c.Moves bs bs') :
    flowsAlong axis bs = flowsAlong axis bs' := by
  cases h with
  | nil => rfl
  | cons ha h =>
      cases h with
      | nil => rfl
      | cons hb h =>
          rw [flowsAlong, flowsAlong]
          refine (Result.agree_mapM (.cons hb h) fun a b hab => hab.start axis.other).bind_eq
            fun ss ss' hss => ?_
          refine (ha.start axis.other).bind_eq fun s s' hs => ?_
          rw [spread, spread, (hs.maximum hss).sub_eq (hs.minimum hss)]
          congr 1
          funext n
          rw [(sortAlong_agree axis (.cons ha (.cons hb h))).bind_eq
            fun as bs hab => inSequence_eq axis hab]

theorem sharedExtent_eq (axis : Axis) (ha : c.Moves a a') (hb : c.Moves b b') :
    sharedExtent axis a b = sharedExtent axis a' b' := by
  refine (ha.finish axis).bind_eq fun s s' hs => (hb.finish axis).bind_eq fun t t' ht => ?_
  refine (ha.start axis).bind_eq fun u u' hu => (hb.start axis).bind_eq fun v v' hv => ?_
  rw [(hs.min ht).sub_eq (hu.max hv)]

theorem covers_eq (ha : c.Moves a a') (hb : c.Moves b b') : covers a b = covers a' b' := by
  simp only [covers, overlapArea, sharedExtent_eq _ ha hb, ha.area_eq, hb.area_eq]

theorem isStack_eq (h : List.Forall₂ c.Moves bs bs') : isStack bs = isStack bs' := by
  induction h with
  | nil => rfl
  | cons ha h ih => rw [isStack, isStack, Result.anyM_eq h fun a b hab => covers_eq ha hab, ih]

theorem gaps_eq (axis : Axis) (h : List.Forall₂ c.Moves bs bs') : gaps axis bs = gaps axis bs' := by
  induction h with
  | nil => rfl
  | cons ha h ih =>
      cases h with
      | nil => rfl
      | cons hb h =>
          rw [gaps, gaps, ih]
          exact Change.difference_eq (hb.start axis) (ha.finish axis) _

theorem meanGap_eq (axis : Axis) (h : List.Forall₂ c.Moves bs bs') :
    meanGap axis bs = meanGap axis bs' := by
  refine (sortAlong_agree axis h).bind_eq fun as bs hab => ?_
  rw [gaps_eq axis hab]

end Mockup.Box
