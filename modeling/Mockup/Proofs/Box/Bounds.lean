import Mockup.Box.Flow
import Mockup.Proofs.Number.Magnitude

namespace Mockup.Box

open Result Number

def Bounded (b : Box) : Prop :=
  ∀ n ∈ [b.x, b.y, b.width, b.height], ∃ a, n = some a ∧ a.Whole 500

variable {a b : Box} {boxes : List Box}

theorem bounded_of_ints {x y w h : Int} {k : Nat} (hk : k ≤ 500)
    (hi : ∀ i ∈ [x, y, w, h], i.natAbs ≤ 2 ^ k) :
    Bounded ⟨some (.int x), some (.int y), some (.int w), some (.int h)⟩ := by
  change ∀ n ∈ [x, y, w, h].map fun i => some (Number.int i), ∃ a, n = some a ∧ Whole 500 a
  exact List.forall_mem_map.mpr fun i hmem => ⟨.int i, rfl, Whole.mono hk (.int i (hi i hmem))⟩

theorem bounded_default : Bounded {} := bounded_of_ints (k := 0) (by decide) (by decide)

theorem Bounded.start (hb : b.Bounded) (axis : Axis) : Yields (Whole 500) (b.start axis) := by
  cases axis with
  | horizontal => exact known_yields (hb b.x (by simp))
  | vertical => exact known_yields (hb b.y (by simp))

theorem Bounded.extent (hb : b.Bounded) (axis : Axis) : Yields (Whole 500) (b.extent axis) := by
  cases axis with
  | horizontal => exact known_yields (hb b.width (by simp))
  | vertical => exact known_yields (hb b.height (by simp))

theorem Bounded.finish (hb : b.Bounded) (axis : Axis) : Yields (Whole 501) (b.finish axis) :=
  (hb.start axis).bind fun _ hs => (hb.extent axis).bind fun _ he => hs.add he

theorem Bounded.area (hb : b.Bounded) : Yields (Whole 1000) b.area :=
  (hb.extent .horizontal).bind fun _ hw => (hb.extent .vertical).bind fun _ hh => hw.mul hh

/-- Boxes that have starts can be put in order. -/
theorem sortAlong_eq {axis : Axis} (hstarts : ∀ b ∈ boxes, Succeeds (b.start axis)) :
    sortAlong axis boxes = .ok (boxes.mergeSort fun a b => !startsBefore axis b a) := by
  obtain ⟨_, hall⟩ := succeeds_forM fun b hb =>
    (hstarts b hb).bind fun _ _ => succeeds_ok PUnit.unit
  rw [sortAlong]
  split
  · exact bind_eq_ok_iff.mpr ⟨_, hall, rfl⟩
  · rfl

theorem sortAlong_yields {axis : Axis} (hstarts : ∀ b ∈ boxes, Succeeds (b.start axis)) :
    Yields (fun sorted => sorted.Perm boxes) (sortAlong axis boxes) := by
  rw [sortAlong_eq hstarts]
  exact yields_ok (List.mergeSort_perm _ _)

theorem sortAlong_yields_of_bounded (hboxes : ∀ b ∈ boxes, b.Bounded) (axis : Axis) :
    Yields (fun sorted => sorted.Perm boxes) (sortAlong axis boxes) :=
  sortAlong_yields fun b hb => (Bounded.start (hboxes b hb) axis).succeeds

theorem inSequence_succeeds (axis : Axis) (hboxes : ∀ b ∈ boxes, b.Bounded) :
    Succeeds (inSequence axis boxes) := by
  induction boxes with
  | nil => exact succeeds_ok _
  | cons a boxes ih =>
      obtain ⟨ha, hboxes⟩ := List.forall_mem_cons.mp hboxes
      cases boxes with
      | nil => exact succeeds_ok _
      | cons b rest =>
          have hb := hboxes b List.mem_cons_self
          refine (ha.finish axis).andThen fun finish hfinish => ?_
          have htwo : (2 : Number).Whole 501 := Whole.mono (j := 1) (by decide) (.int 2 (by decide))
          refine (hfinish.sub htwo).andThen fun limit _ => ?_
          refine (hb.start axis).andThen fun start _ => ?_
          exact Succeeds.unlessReturned fun _ => ih hboxes

theorem spread_succeeds {n : Number} {rest : List Number} {k : Nat} (hn : n.Whole k)
    (hrest : ∀ m ∈ rest, m.Whole k) : Succeeds (spread n rest) :=
  ((maximum_cases (Whole k) hn hrest).sub (minimum_cases (Whole k) hn hrest)).succeeds

theorem flowsAlong_succeeds (axis : Axis) (hboxes : ∀ b ∈ boxes, b.Bounded) :
    Succeeds (flowsAlong axis boxes) := by
  cases boxes with
  | nil => exact succeeds_ok _
  | cons a boxes =>
      cases boxes with
      | nil => exact succeeds_ok _
      | cons b rest =>
          obtain ⟨ha, hrest⟩ := List.forall_mem_cons.mp hboxes
          refine (yields_mapM fun c hc => (hrest c hc).start axis.other).andThen
            fun starts ⟨_, hstarts⟩ => ?_
          refine (ha.start axis.other).andThen fun start hstart => ?_
          refine (spread_succeeds hstart hstarts).bind fun width _ => ?_
          refine Succeeds.unlessReturned fun _ => ?_
          refine (sortAlong_yields_of_bounded hboxes axis).andThen fun sorted hsorted => ?_
          exact inSequence_succeeds axis fun b hb => hboxes b (hsorted.mem_iff.mp hb)

theorem sharedExtent_yields (axis : Axis) (ha : a.Bounded) (hb : b.Bounded) :
    Yields (Whole 502) (sharedExtent axis a b) := by
  refine (ha.finish axis).bind fun s hs => (hb.finish axis).bind fun t ht => ?_
  refine (ha.start axis).bind fun u hu => (hb.start axis).bind fun v hv => ?_
  have hstart := (max_cases (Whole 500) hu hv).mono (show 500 ≤ 501 by decide)
  refine ((min_cases (Whole 501) hs ht).sub hstart).bind fun shared hshared => yields_ok ?_
  exact max_cases (Whole 502) (.int 0 (Nat.zero_le _)) hshared

theorem covers_succeeds (ha : a.Bounded) (hb : b.Bounded) : Succeeds (covers a b) := by
  have hoverlap : Succeeds (overlapArea a b) :=
    (sharedExtent_yields .horizontal ha hb).andThen fun _ hw =>
      (sharedExtent_yields .vertical ha hb).andThen fun _ hh => (hw.mul hh).succeeds
  refine hoverlap.bind fun overlap _ => ?_
  refine ha.area.andThen fun s hs => hb.area.andThen fun t ht => ?_
  have hlimit := (min_cases (Whole 1000) hs ht).within.mul within_fraction_half (by decide)
  exact hlimit.andThen fun _ _ => succeeds_ok _

theorem isStack_cons (a : Box) (rest : List Box) : isStack (a :: rest) =
    rest.anyM (covers a) >>= fun found => if found then .ok true else isStack rest := rfl

theorem isStack_succeeds_of_pairwise (h : boxes.Pairwise fun a b => Succeeds (covers a b)) :
    Succeeds (isStack boxes) := by
  induction h with
  | nil => exact succeeds_ok _
  | cons ha _ ih =>
      rw [isStack_cons]
      exact (succeeds_anyM ha).bind fun _ _ => Succeeds.unlessReturned fun _ => ih

theorem isStack_succeeds (hboxes : ∀ b ∈ boxes, b.Bounded) : Succeeds (isStack boxes) :=
  isStack_succeeds_of_pairwise <| List.pairwise_of_forall_mem_list fun a ha b hb =>
    covers_succeeds (hboxes a ha) (hboxes b hb)

theorem gaps_yields (axis : Axis) (hboxes : ∀ b ∈ boxes, b.Bounded) :
    Yields (fun gs => ∀ g ∈ gs, g.Whole 502) (gaps axis boxes) := by
  induction boxes with
  | nil => exact yields_ok (by simp)
  | cons a boxes ih =>
      obtain ⟨ha, hboxes⟩ := List.forall_mem_cons.mp hboxes
      cases boxes with
      | nil => exact yields_ok (by simp)
      | cons b rest =>
          refine ((hboxes b List.mem_cons_self).start axis).bind fun start hstart => ?_
          refine (ha.finish axis).bind fun finish hfinish => ?_
          refine ((hstart.mono (show 500 ≤ 501 by decide)).sub hfinish).bind fun gap hgap => ?_
          exact (ih hboxes).bind fun gs hgs => yields_ok (List.forall_mem_cons.mpr ⟨hgap, hgs⟩)

/-- The mean of gaps is no larger than they are, and there is one only if there are gaps. -/
theorem meanGap_succeeds (axis : Axis) (hboxes : ∀ b ∈ boxes, b.Bounded) :
    Succeeds (meanGap axis boxes) := by
  refine (sortAlong_yields_of_bounded hboxes axis).andThen fun sorted hsorted => ?_
  refine (gaps_yields axis fun b hb => hboxes b (hsorted.mem_iff.mp hb)).andThen fun gs hgs => ?_
  refine Succeeds.unlessReturned fun hne => ?_
  have hpositive : ∀ g ∈ gs.filter (Number.lt 0), g.Whole 502 := fun g hg =>
    hgs g (List.mem_filter.mp hg).1
  have hlength : 0 < (gs.filter (Number.lt 0)).length := by
    rwa [List.length_pos_iff, ne_eq, ← List.isEmpty_iff]
  have hmean := mean_yields hlength rfl hpositive (by decide)
  have hround := hmean.andThen fun mean hmean => hmean.roundHalfUp (by decide)
  rwa [bind_assoc] at hround

end Mockup.Box
