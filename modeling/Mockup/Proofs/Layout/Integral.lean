import Mockup.Layout.Inference
import Mockup.Proofs.Box.Rect

namespace Mockup.Layout

open Result Rect

variable {boxes : List Box}

theorem inferFlow_eq_of_two_le (h : 2 ≤ boxes.length) : inferFlow boxes = do
    if ← Box.isStack boxes then return .stack
    if ← Box.flowsAlong .horizontal boxes then return .row
    if ← Box.flowsAlong .vertical boxes then return .column
    return .absolute := by
  match boxes, h with
  | a :: b :: rest, _ => rfl

theorem flowOf_eq_row {t : Traits} (hauto : t.autoLayout = none) (hlength : 2 ≤ boxes.length)
    (hstack : Box.isStack boxes = .ok false) (hrow : Box.flowsAlong .horizontal boxes = .ok true) :
    flowOf t boxes = .ok .row := by
  rw [flowOf, hauto]
  dsimp only
  rw [inferFlow_eq_of_two_le hlength, hstack, ok_bind, hrow]
  rfl

theorem flowOf_eq_column {t : Traits} (hauto : t.autoLayout = none) (hlength : 2 ≤ boxes.length)
    (hstack : Box.isStack boxes = .ok false) (hrow : Box.flowsAlong .horizontal boxes = .ok false)
    (hcolumn : Box.flowsAlong .vertical boxes = .ok true) : flowOf t boxes = .ok .column := by
  rw [flowOf, hauto]
  dsimp only
  rw [inferFlow_eq_of_two_le hlength, hstack, ok_bind, hrow, ok_bind, hcolumn]
  rfl

theorem roundedSpace_int {i j : Int} (h : (i - j).natAbs < 2 ^ 52) :
    roundedSpace (.int i) (.int j) = .ok (some (.int (0 ⊔ (i - j)))) := by
  rw [roundedSpace, Number.sub_int, ok_bind, Number.roundHalfUp_int h, ok_bind]
  exact congrArg (fun n => Except.ok (some n)) (Number.max_int 0 (i - j))

theorem inferPadding_toBox (box : Rect) {rs : List Rect} (h : rs ≠ []) :
    inferPadding box.toBox (rs.map toBox) = do
      return {
        top := ← roundedSpace (.int (least .vertical rs)) (.int (box.start .vertical))
        right := ← roundedSpace (.int (box.finish .horizontal)) (.int (greatest .horizontal rs))
        bottom := ← roundedSpace (.int (box.finish .vertical)) (.int (greatest .vertical rs))
        left := ← roundedSpace (.int (least .horizontal rs)) (.int (box.start .horizontal)) } := by
  cases rs with
  | nil => exact absurd rfl h
  | cons r rs =>
      have hleft := mapM_toBox (f := Box.left) (fun r => r.start_toBox .horizontal) rs
      have htop := mapM_toBox (f := Box.top) (fun r => r.start_toBox .vertical) rs
      have hright := mapM_toBox (f := Box.right) (fun r => r.finish_toBox .horizontal) rs
      have hbottom := mapM_toBox (f := Box.bottom) (fun r => r.finish_toBox .vertical) rs
      have hleast (axis : Axis) := minimum_toBox (fun r => r.start axis) r rs
      have hgreatest (axis : Axis) := maximum_toBox (fun r => r.finish axis) r rs
      simp only [least, greatest, ← hleast, ← hgreatest]
      rw [List.map_cons, inferPadding, hleft, htop, hright, hbottom]
      simp only [Box.left, Box.top, Box.right, Box.bottom, start_toBox, finish_toBox]
      rfl

/-- Across the flow it is the sums that count. -/
theorem inferCrossAlign_toBox (box : Rect) (rs : List Rect) (axis : Axis) :
    inferCrossAlign box.toBox (rs.map toBox) axis =
      if rs.isEmpty then .ok .start
      else (do
        let before := (rs.map fun r => r.start axis.other - box.start axis.other).sum
        let after := (rs.map fun r => box.finish axis.other - r.finish axis.other).sum
        let leading ← (Number.int before).div (.int rs.length)
        let trailing ← (Number.int after).div (.int rs.length)
        classifySpace leading trailing) := by
  have hbefore := mapM_toBox
    (f := fun c => c.start axis.other >>= fun s => box.toBox.start axis.other >>= fun t => s.sub t)
    (g := fun r => r.start axis.other - box.start axis.other)
    (fun r => by rw [start_toBox, start_toBox]; rfl) rs
  have hafter := mapM_toBox
    (f := fun c => box.toBox.finish axis.other >>= fun s => c.finish axis.other >>= fun t => s.sub t)
    (g := fun r => box.finish axis.other - r.finish axis.other)
    (fun r => by rw [finish_toBox, finish_toBox]; rfl) rs
  simp only [inferCrossAlign, List.isEmpty_map, List.length_map, hbefore, hafter, ok_bind,
    Number.sum_int]

end Mockup.Layout
