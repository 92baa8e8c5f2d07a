import Mathlib.Algebra.BigOperators.Group.List.Basic
import Mockup.Layer
import Mockup.Proofs.Box.Bounds
import Mockup.Proofs.Box.Rect

namespace Mockup

theorem Axis.other_ne (axis : Axis) : axis.other ≠ axis := by
  cases axis <;> decide

instance Axis.decidableForall {p : Axis → Prop} [DecidablePred p] : Decidable (∀ axis, p axis) :=
  decidable_of_iff (p .horizontal ∧ p .vertical)
    ⟨fun h axis => by cases axis with
      | horizontal => exact h.1
      | vertical => exact h.2, fun h => ⟨h _, h _⟩⟩

structure Extents where
  width : Int
  height : Int

def Extents.along (e : Extents) : Axis → Int
  | .horizontal => e.width
  | .vertical => e.height

structure Margins where
  top : Int
  right : Int
  bottom : Int
  left : Int

namespace Margins

def before (i : Margins) : Axis → Int
  | .horizontal => i.left
  | .vertical => i.top

def after (i : Margins) : Axis → Int
  | .horizontal => i.right
  | .vertical => i.bottom

def toPadding (i : Margins) : Padding :=
  ⟨some (.int i.top), some (.int i.right), some (.int i.bottom), some (.int i.left)⟩

end Margins

namespace Rect

def ofAxes (start extent : Axis → Int) : Rect :=
  ⟨start .horizontal, start .vertical, extent .horizontal, extent .vertical⟩

@[simp] theorem start_ofAxes (start extent : Axis → Int) (axis : Axis) :
    (ofAxes start extent).start axis = start axis := by
  cases axis <;> rfl

@[simp] theorem extent_ofAxes (start extent : Axis → Int) (axis : Axis) :
    (ofAxes start extent).extent axis = extent axis := by
  cases axis <;> rfl

@[simp] theorem finish_ofAxes (start extent : Axis → Int) (axis : Axis) :
    (ofAxes start extent).finish axis = start axis + extent axis := by
  rw [finish, start_ofAxes, extent_ofAxes]

theorem bounded_toBox {r : Rect} {k : Nat} (hk : k ≤ 500)
    (h : ∀ axis, (r.start axis).natAbs ≤ 2 ^ k ∧ (r.extent axis).natAbs ≤ 2 ^ k) :
    r.toBox.Bounded := by
  refine Box.bounded_of_ints hk ?_
  simp only [List.forall_mem_cons]
  exact ⟨(h .horizontal).1, (h .vertical).1, (h .horizontal).2, (h .vertical).2, nofun⟩

end Rect

/-- By what boxes of given sizes are set along an axis: from an origin on, after the padding, with a
gap between each two. -/
structure Arrangement where
  axis : Axis
  origin : Axis → Int
  margins : Margins
  gap : Int
  sizes : List Extents

namespace Arrangement

def start (a : Arrangement) (axis : Axis) : Int := a.origin axis + a.margins.before axis

def boxAt (a : Arrangement) (start : Int) (e : Extents) : Rect :=
  .ofAxes (fun axis => if axis = a.axis then start else a.start axis) e.along

def boxesFrom (a : Arrangement) : Int → List Extents → List Rect
  | _, [] => []
  | start, e :: es => a.boxAt start e :: a.boxesFrom (start + e.along a.axis + a.gap) es

def boxes (a : Arrangement) : List Rect := a.boxesFrom (a.start a.axis) a.sizes

def length (a : Arrangement) (es : List Extents) : Int :=
  (es.map fun e => e.along a.axis).sum + a.gap * (es.length - 1)

def content (a : Arrangement) (axis : Axis) : Int :=
  if axis = a.axis then a.length a.sizes else (a.sizes.map fun e => e.along axis).max?.getD 0

def container (a : Arrangement) : Rect :=
  .ofAxes a.origin fun axis => a.margins.before axis + a.content axis + a.margins.after axis

/-- At least two boxes that are not empty, and padding and a gap that are not negative, all below
2^40 in magnitude, in a container below 2^50. -/
structure IsModest (a : Arrangement) : Prop where
  several : 2 ≤ a.sizes.length
  origin : ∀ axis, (a.origin axis).natAbs < 2 ^ 40
  sizes : ∀ e ∈ a.sizes, ∀ axis, 0 < e.along axis ∧ e.along axis < 2 ^ 40
  gap : 0 ≤ a.gap ∧ a.gap < 2 ^ 40
  before : ∀ axis, 0 ≤ a.margins.before axis ∧ a.margins.before axis < 2 ^ 40
  after : ∀ axis, 0 ≤ a.margins.after axis ∧ a.margins.after axis < 2 ^ 40
  total : ∀ axis, a.container.extent axis < 2 ^ 50

variable {a : Arrangement} {es : List Extents} {s : Int}

theorem start_boxAt_self (a : Arrangement) (s : Int) (e : Extents) :
    (a.boxAt s e).start a.axis = s := by
  rw [boxAt, Rect.start_ofAxes, if_pos rfl]

theorem start_boxAt_of_ne (s : Int) (e : Extents) {axis : Axis} (h : axis ≠ a.axis) :
    (a.boxAt s e).start axis = a.start axis := by
  rw [boxAt, Rect.start_ofAxes, if_neg h]

theorem extent_boxAt (a : Arrangement) (s : Int) (e : Extents) (axis : Axis) :
    (a.boxAt s e).extent axis = e.along axis := by
  rw [boxAt, Rect.extent_ofAxes]

theorem finish_boxAt_self (a : Arrangement) (s : Int) (e : Extents) :
    (a.boxAt s e).finish a.axis = s + e.along a.axis := by
  rw [Rect.finish, start_boxAt_self, extent_boxAt]

theorem length_cons (a : Arrangement) (e : Extents) (es : List Extents) :
    a.length (e :: es) = e.along a.axis + a.gap + a.length es := by
  simp only [length, List.map_cons, List.sum_cons, List.length_cons]
  push_cast
  ring

theorem gap_add_length_nonneg (hgap : 0 ≤ a.gap) (hes : ∀ e ∈ es, 0 < e.along a.axis) :
    0 ≤ a.gap + a.length es := by
  induction es with
  | nil => simp [length]
  | cons e es ih =>
      obtain ⟨he, hes⟩ := List.forall_mem_cons.mp hes
      have := ih hes
      rw [length_cons]
      omega

section Along

variable (hgap : 0 ≤ a.gap) (hes : ∀ e ∈ es, 0 < e.along a.axis)

include hgap hes

theorem bounds_of_mem_boxesFrom {r : Rect} (hr : r ∈ a.boxesFrom s es) :
    s ≤ r.start a.axis ∧ r.finish a.axis ≤ s + a.length es := by
  induction es generalizing s with
  | nil => cases hr
  | cons e es ih =>
      obtain ⟨he, hes⟩ := List.forall_mem_cons.mp hes
      have hrest := gap_add_length_nonneg hgap hes
      rw [length_cons]
      rcases List.mem_cons.mp hr with rfl | hr
      · rw [start_boxAt_self, finish_boxAt_self]
        omega
      · have := ih hes hr
        omega

theorem pairwise_boxesFrom :
    (a.boxesFrom s es).Pairwise fun p q => p.finish a.axis ≤ q.start a.axis := by
  induction es generalizing s with
  | nil => exact .nil
  | cons e es ih =>
      obtain ⟨he, hes⟩ := List.forall_mem_cons.mp hes
      refine .cons (fun q hq => ?_) (ih hes)
      have := (bounds_of_mem_boxesFrom hgap hes hq).1
      rw [finish_boxAt_self]
      omega

end Along

theorem exists_last_of_boxesFrom (hne : es ≠ []) :
    ∃ r ∈ a.boxesFrom s es, r.finish a.axis = s + a.length es := by
  induction es generalizing s with
  | nil => exact absurd rfl hne
  | cons e es ih =>
      rw [length_cons]
      cases es with
      | nil => exact ⟨_, List.mem_cons_self, by rw [finish_boxAt_self]; simp [length]⟩
      | cons e' es =>
          obtain ⟨r, hr, hfinish⟩ := ih (List.cons_ne_nil _ _)
          exact ⟨r, List.mem_cons_of_mem _ hr, by rw [hfinish]; omega⟩

theorem distances_boxesFrom (a : Arrangement) (s : Int) (es : List Extents) :
    Rect.distances a.axis (a.boxesFrom s es) = List.replicate (es.length - 1) a.gap := by
  induction es generalizing s with
  | nil => rfl
  | cons e es ih =>
      cases es with
      | nil => rfl
      | cons e' es =>
          have hgap : s + e.along a.axis + a.gap - (s + e.along a.axis) = a.gap := by omega
          rw [boxesFrom, boxesFrom, Rect.distances, start_boxAt_self, finish_boxAt_self, hgap]
          exact congrArg (a.gap :: ·) (ih (s + e.along a.axis + a.gap))

theorem start_of_mem_boxesFrom {r : Rect} (hr : r ∈ a.boxesFrom s es) {axis : Axis}
    (h : axis ≠ a.axis) : r.start axis = a.start axis := by
  induction es generalizing s with
  | nil => cases hr
  | cons e es ih =>
      rcases List.mem_cons.mp hr with rfl | hr
      · exact start_boxAt_of_ne _ _ h
      · exact ih hr

theorem map_extent_boxesFrom (a : Arrangement) (s : Int) (es : List Extents) (axis : Axis) :
    (a.boxesFrom s es).map (fun r => r.extent axis) = es.map fun e => e.along axis := by
  induction es generalizing s with
  | nil => rfl
  | cons e es ih => rw [boxesFrom, List.map_cons, List.map_cons, extent_boxAt, ih]

theorem length_boxesFrom (a : Arrangement) (s : Int) (es : List Extents) :
    (a.boxesFrom s es).length = es.length := by
  simpa using congrArg List.length (map_extent_boxesFrom a s es a.axis)

theorem extent_mem {r : Rect} (hr : r ∈ a.boxes) (axis : Axis) :
    r.extent axis ∈ a.sizes.map fun e => e.along axis := by
  rw [← map_extent_boxesFrom a (a.start a.axis)]
  exact List.mem_map_of_mem hr

namespace IsModest

variable (h : a.IsModest) {r : Rect}

include h

theorem sizes_ne_nil : a.sizes ≠ [] := fun hnil => by
  have hseveral := h.several
  rw [hnil] at hseveral
  cases hseveral

theorem extent_bounds (hr : r ∈ a.boxes) (axis : Axis) :
    0 < r.extent axis ∧ r.extent axis < 2 ^ 40 := by
  obtain ⟨e, he, hextent⟩ := List.mem_map.mp (extent_mem hr axis)
  rw [← hextent]
  exact h.sizes e he axis

theorem exists_content_across {axis : Axis} (hacross : axis ≠ a.axis) :
    (a.sizes.map fun e => e.along axis).max? = some (a.content axis) := by
  cases hmax : (a.sizes.map fun e => e.along axis).max? with
  | none => exact absurd (List.map_eq_nil_iff.mp (List.max?_eq_none_iff.mp hmax)) h.sizes_ne_nil
  | some i => rw [content, if_neg hacross, hmax, Option.getD_some]

theorem bounds (hr : r ∈ a.boxes) (axis : Axis) :
    a.start axis ≤ r.start axis ∧ r.finish axis ≤ a.start axis + a.content axis := by
  by_cases haxis : axis = a.axis
  · subst haxis
    rw [content, if_pos rfl]
    exact bounds_of_mem_boxesFrom h.gap.1 (fun e he => (h.sizes e he a.axis).1) hr
  · have hstart := start_of_mem_boxesFrom hr haxis
    have hmax := List.max?_eq_some_iff.mp (h.exists_content_across haxis)
    have hle := hmax.2 _ (extent_mem hr axis)
    rw [Rect.finish, hstart]
    exact ⟨le_rfl, Int.add_le_add_left hle _⟩

theorem exists_first (axis : Axis) : ∃ r ∈ a.boxes, r.start axis = a.start axis := by
  obtain ⟨e, es, hsizes⟩ := List.exists_cons_of_ne_nil h.sizes_ne_nil
  have hmem : a.boxAt (a.start a.axis) e ∈ a.boxes := by
    rw [boxes, hsizes]
    exact List.mem_cons_self
  refine ⟨_, hmem, ?_⟩
  by_cases haxis : axis = a.axis
  · rw [haxis, start_boxAt_self]
  · exact start_of_mem_boxesFrom hmem haxis

theorem boxes_ne_nil : a.boxes ≠ [] := by
  obtain ⟨r, hr, -⟩ := h.exists_first a.axis
  exact List.ne_nil_of_mem hr

theorem exists_last (axis : Axis) :
    ∃ r ∈ a.boxes, r.finish axis = a.start axis + a.content axis := by
  by_cases haxis : axis = a.axis
  · rw [haxis, content, if_pos rfl]
    exact exists_last_of_boxesFrom h.sizes_ne_nil
  -- across the axis it is the largest box, wherever it stands
  · have hmem := (List.max?_eq_some_iff.mp (h.exists_content_across haxis)).1
    rw [← map_extent_boxesFrom a (a.start a.axis)] at hmem
    obtain ⟨r, hr, hextent⟩ := List.mem_map.mp hmem
    exact ⟨r, hr, by rw [Rect.finish, start_of_mem_boxesFrom hr haxis, hextent]⟩

theorem least_boxes (axis : Axis) : Rect.least axis a.boxes = a.start axis :=
  Rect.least_eq (h.exists_first axis) fun _ hr => (h.bounds hr axis).1

theorem greatest_boxes (axis : Axis) :
    Rect.greatest axis a.boxes = a.start axis + a.content axis :=
  Rect.greatest_eq (h.exists_last axis) fun _ hr => (h.bounds hr axis).2

theorem content_pos (axis : Axis) : 0 < a.content axis := by
  obtain ⟨r, hr, -⟩ := h.exists_first axis
  have hextent := h.extent_bounds hr axis
  have hbounds := h.bounds hr axis
  rw [Rect.finish] at hbounds
  omega

theorem natAbs_start_le (hr : r ∈ a.boxes) (axis : Axis) : (r.start axis).natAbs ≤ 2 ^ 51 := by
  have hbounds := h.bounds hr axis
  have hextent := h.extent_bounds hr axis
  have horigin := h.origin axis
  have hbefore := h.before axis
  have hafter := h.after axis
  have htotal := h.total axis
  rw [container, Rect.extent_ofAxes] at htotal
  rw [Rect.finish, start] at hbounds
  omega

theorem bounded_boxes : ∀ b ∈ a.boxes.map Rect.toBox, b.Bounded := by
  refine List.forall_mem_map.mpr fun r hr => Rect.bounded_toBox (k := 51) (by decide) fun axis => ?_
  have hextent := h.extent_bounds hr axis
  exact ⟨h.natAbs_start_le hr axis, by omega⟩

theorem bounded_container : a.container.toBox.Bounded := by
  refine Rect.bounded_toBox (k := 51) (by decide) fun axis => ?_
  have horigin := h.origin axis
  have hbefore := h.before axis
  have hcontent := h.content_pos axis
  have hafter := h.after axis
  have htotal := h.total axis
  rw [container, Rect.extent_ofAxes] at htotal
  rw [container, Rect.start_ofAxes, Rect.extent_ofAxes]
  omega

end IsModest

end Arrangement

end Mockup
