import Mockup.Proofs.Box.Reordering
import Mockup.Proofs.Layout.Arrangement
import Mockup.Proofs.Layout.Integral
import Mockup.Proofs.Layout.Totality

namespace Mockup

open Result

namespace Arrangement

variable {a : Arrangement}

/-- Boxes that start together do not follow one another, unless the first of them is no longer than
what boxes in a row may overlap. -/
theorem not_flows_boxes_across (hwide : ∀ e ∈ a.sizes, 3 ≤ e.along a.axis.other) :
    ¬Rect.Flows a.axis.other a.boxes := by
  rintro ⟨hlength, -, hchain⟩
  have hstart : ∀ r ∈ a.boxes, r.start a.axis.other = a.start a.axis.other := fun r hr =>
    start_of_mem_boxesFrom hr a.axis.other_ne
  have hsorted : a.boxes.Pairwise fun p q => p.start a.axis.other ≤ q.start a.axis.other :=
    List.pairwise_of_forall_mem_list fun p hp q hq => ((hstart p hp).trans (hstart q hq).symm).le
  -- all of them start together, so that sorting leaves the first two where they are
  rw [Rect.sortAlong_eq_self hsorted] at hchain
  match hboxes : a.boxes, hlength with
  | p :: q :: rest, _ =>
      have hp : p ∈ a.boxes := hboxes ▸ List.mem_cons_self
      have hq : q ∈ a.boxes := hboxes ▸ List.mem_cons_of_mem p List.mem_cons_self
      obtain ⟨e, he, hextent⟩ := List.mem_map.mp (extent_mem hp a.axis.other)
      have he := hwide e he
      rw [hboxes] at hchain
      have hfollows := (List.isChain_cons_cons.mp hchain).1
      rw [Rect.Follows, Rect.finish, hstart p hp, hstart q hq, ← hextent] at hfollows
      omega

namespace IsModest

variable (h : a.IsModest)

include h

theorem pairwise_boxes : a.boxes.Pairwise fun p q => p.finish a.axis ≤ q.start a.axis :=
  pairwise_boxesFrom h.gap.1 fun e he => (h.sizes e he a.axis).1

theorem isStack_boxes : Box.isStack (a.boxes.map Rect.toBox) = .ok false := by
  have harea {r : Rect} (hr : r ∈ a.boxes) : 0 ≤ r.area ∧ r.area.natAbs ≤ 2 ^ 80 := by
    have hwidth : 0 < r.width ∧ r.width < 2 ^ 40 := h.extent_bounds hr .horizontal
    have hheight : 0 < r.height ∧ r.height < 2 ^ 40 := h.extent_bounds hr .vertical
    refine ⟨Int.mul_nonneg hwidth.1.le hheight.1.le, ?_⟩
    rw [Rect.area, Int.natAbs_mul, show 2 ^ 80 = 2 ^ 40 * 2 ^ 40 from rfl]
    exact Nat.mul_le_mul (by omega) (by omega)
  rw [Box.isStack_eq_ok_false_iff, List.pairwise_map]
  refine h.pairwise_boxes.imp_of_mem fun {p q} hp hq hpq => ?_
  have hp := harea hp
  have hq := harea hq
  refine Rect.covers_eq_false hpq hp.1 hq.1 ?_
  have hmin : (p.area ⊓ q.area).natAbs ≤ 2 ^ 80 := by
    rcases min_choice p.area q.area with hmin | hmin
    · rw [hmin]
      exact hp.2
    · rw [hmin]
      exact hq.2
  exact (Number.Within.int _ hmin).inRange (by decide)

theorem sortAlong_boxes : Rect.sortAlong a.axis a.boxes = a.boxes := by
  refine Rect.sortAlong_eq_self (h.pairwise_boxes.imp_of_mem fun {p q} hp _ hpq => ?_)
  have hextent := h.extent_bounds hp a.axis
  rw [Rect.finish] at hpq
  omega

theorem flows_boxes : Rect.Flows a.axis a.boxes := by
  have hspread : Rect.spread a.axis.other a.boxes = 0 :=
    Rect.spread_eq_zero h.boxes_ne_nil fun r hr => start_of_mem_boxesFrom hr a.axis.other_ne
  refine ⟨?_, hspread.trans_le (by decide), ?_⟩
  · rw [boxes, length_boxesFrom]
    exact h.several
  · rw [h.sortAlong_boxes]
    refine (h.pairwise_boxes.imp fun {p q} hpq => ?_).isChain
    rw [Rect.Follows]
    omega

theorem meanGap_boxes : Box.meanGap a.axis (a.boxes.map Rect.toBox) = .ok a.gap := by
  obtain ⟨n, hn⟩ := Int.eq_ofNat_of_zero_le h.gap.1
  have hlt := h.gap.2
  have hseveral := h.several
  rw [Box.meanGap, Rect.sortAlong_toBox, ok_bind, h.sortAlong_boxes, Rect.gaps_toBox, ok_bind,
    boxes, distances_boxesFrom, List.map_replicate, List.filter_replicate]
  have hpos : Number.lt 0 (.int a.gap) = decide (0 < a.gap) := Number.lt_int 0 a.gap
  obtain ⟨m, hm⟩ : ∃ m, a.sizes.length - 1 = m + 1 := ⟨a.sizes.length - 2, by omega⟩
  rw [hpos, hm]
  -- gaps count if they are positive, and where none does their mean is zero
  by_cases hgap : 0 < a.gap
  · obtain ⟨mean, hmean, hinteger⟩ :=
      Number.div_mul_count (n := n) (m := m + 1) (by omega) (by omega)
    have hsum : Number.sum (List.replicate (m + 1) (.int a.gap)) =
        .ok (.int ((m + 1) * n : Nat)) := by
      rw [← List.map_replicate, Number.sum_int, List.sum_replicate, hn]
      simp
    rw [decide_eq_true hgap, if_pos rfl]
    dsimp only
    rw [hsum, ok_bind, List.length_replicate, hmean, ok_bind, hinteger.roundHalfUp (by omega), hn]
    rfl
  · have hzero : a.gap = 0 := by omega
    rw [hzero]
    rfl

theorem inferPadding_boxes :
    Layout.inferPadding a.container.toBox (a.boxes.map Rect.toBox) = .ok a.margins.toPadding := by
  have hbefore (axis : Axis) : Layout.roundedSpace (.int (Rect.least axis a.boxes))
      (.int (a.container.start axis)) = .ok (some (.int (a.margins.before axis))) := by
    have hspace : Rect.least axis a.boxes - a.container.start axis = a.margins.before axis := by
      rw [h.least_boxes, container, Rect.start_ofAxes, start]
      omega
    have hnonneg := h.before axis
    rw [Layout.roundedSpace_int (by omega), hspace, max_eq_right hnonneg.1]
  have hafter (axis : Axis) : Layout.roundedSpace (.int (a.container.finish axis))
      (.int (Rect.greatest axis a.boxes)) = .ok (some (.int (a.margins.after axis))) := by
    have hspace : a.container.finish axis - Rect.greatest axis a.boxes = a.margins.after axis := by
      rw [h.greatest_boxes, container, Rect.finish_ofAxes, start]
      omega
    have hnonneg := h.after axis
    rw [Layout.roundedSpace_int (by omega), hspace, max_eq_right hnonneg.1]
  rw [Layout.inferPadding_toBox a.container h.boxes_ne_nil, hbefore, hafter, hafter, hbefore]
  rfl

end IsModest

end Arrangement

namespace Layout

variable {a : Arrangement}

theorem flowOf_boxes (h : a.IsModest) (hwide : a.axis = .vertical → ∀ e ∈ a.sizes, 3 ≤ e.width)
    {t : Traits} (hauto : t.autoLayout = none) :
    flowOf t (a.boxes.map Rect.toBox) = .ok (.along a.axis) := by
  have hlength : 2 ≤ (a.boxes.map Rect.toBox).length := by
    rw [List.length_map]
    exact h.flows_boxes.1
  have hflows := h.flows_boxes
  have hacross := Arrangement.not_flows_boxes_across (a := a)
  have hstack := h.isStack_boxes
  cases haxis : a.axis with
  | horizontal =>
      rw [haxis] at hflows
      refine flowOf_eq_row hauto hlength hstack ?_
      rw [Rect.flowsAlong_toBox, decide_eq_true hflows]
  | vertical =>
      rw [haxis] at hflows hacross
      refine flowOf_eq_column hauto hlength hstack ?_ ?_
      · rw [Rect.flowsAlong_toBox]
        exact congrArg Except.ok (decide_eq_false (hacross (hwide haxis)))
      · rw [Rect.flowsAlong_toBox, decide_eq_true hflows]

/-- Without an auto layout, boxes that were set along an axis are found to be a row or a column, with
the gap and the padding by which they were set. The boxes of a column have to be too wide to be taken
for a row in which all of them overlap. -/
theorem infer_inverts (h : a.IsModest) (hwide : a.axis = .vertical → ∀ e ∈ a.sizes, 3 ≤ e.width)
    {b : Block} (hauto : b.autoLayout = none) (hbox : b.box = a.container.toBox)
    (parent : Option Flow) :
    ∃ l, infer b (a.boxes.map Rect.toBox) parent = .ok l ∧ l.flow = .along a.axis ∧
      l.gap = some (.int a.gap) ∧ l.padding = a.margins.toPadding := by
  have haxis : (Flow.along a.axis).axis? = some a.axis := by cases a.axis <;> rfl
  obtain ⟨main, hmain⟩ := inferMainAlign_succeeds h.bounded_container h.bounded_boxes a.axis
  obtain ⟨cross, hcross⟩ := inferCrossAlign_succeeds h.bounded_container h.bounded_boxes a.axis
  rw [infer, flowOf_boxes h hwide hauto, ok_bind, hauto, hbox]
  dsimp only
  rw [haxis]
  dsimp only
  rw [h.meanGap_boxes, ok_bind, hmain, ok_bind, hcross, ok_bind, h.inferPadding_boxes]
  exact ⟨_, rfl, rfl, rfl, rfl⟩

def fence : Arrangement where
  axis := .horizontal
  origin := fun _ => -7
  margins := ⟨4, 0, 12, 8⟩
  gap := 0
  sizes := [⟨10, 60⟩, ⟨1, 20⟩, ⟨30, 2⟩]

def rack : Arrangement where
  axis := .vertical
  origin := fun _ => 100
  margins := ⟨16, 16, 0, 16⟩
  gap := 24
  sizes := [⟨3, 1⟩, ⟨200, 8⟩]

def framed (a : Arrangement) : Block :=
  { id := some "1", name := some "Frame", kind := some "FRAME", box := a.container.toBox }

theorem infer_inverts_fence_rack : ∃ row column,
    infer (framed fence) (fence.boxes.map Rect.toBox) none = .ok row ∧
    infer (framed rack) (rack.boxes.map Rect.toBox) (some .row) = .ok column ∧
    row.flow = .row ∧ row.gap = some 0 ∧ row.padding = ⟨some 4, some 0, some 12, some 8⟩ ∧
    column.flow = .column ∧ column.gap = some 24 ∧
    column.padding = ⟨some 16, some 16, some 0, some 16⟩ := by
  have hrow : fence.IsModest := by constructor <;> decide
  have hcolumn : rack.IsModest := by constructor <;> decide
  obtain ⟨row, hrun, hflow, hgap, hpadding⟩ :=
    infer_inverts hrow (by decide) (b := framed fence) rfl rfl none
  obtain ⟨column, hrun', hflow', hgap', hpadding'⟩ :=
    infer_inverts hcolumn (by decide) (b := framed rack) rfl rfl (some .row)
  exact ⟨row, column, hrun, hrun', hflow, hgap, hpadding, hflow', hgap', hpadding'⟩

end Layout

end Mockup
