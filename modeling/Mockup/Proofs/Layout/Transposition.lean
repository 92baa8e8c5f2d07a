import Mockup.Proofs.Layout.Integral
import Mockup.Proofs.Box.Transposition

namespace Mockup

open Result

def Padding.transpose (p : Padding) : Padding := ⟨p.left, p.bottom, p.right, p.top⟩

def Flow.transpose : Flow → Flow
  | .row => .column
  | .column => .row
  | f => f

namespace Layout

variable {box b : Box} {rest boxes : List Box} {p : Padding}

def spaceBefore (axis : Axis) (box b : Box) (rest : List Box) : Number.Result (Option Number) := do
  let first := Number.minimum (← b.start axis) (← rest.mapM fun c => c.start axis)
  roundedSpace first (← box.start axis)

def spaceAfter (axis : Axis) (box b : Box) (rest : List Box) : Number.Result (Option Number) := do
  let last := Number.maximum (← b.finish axis) (← rest.mapM fun c => c.finish axis)
  roundedSpace (← box.finish axis) last

/-- There is padding if there is some on each side, whatever comes first. -/
theorem inferPadding_cons_eq_ok_iff : inferPadding box (b :: rest) = .ok p ↔
    spaceBefore .vertical box b rest = .ok p.top ∧
    spaceAfter .horizontal box b rest = .ok p.right ∧
    spaceAfter .vertical box b rest = .ok p.bottom ∧
    spaceBefore .horizontal box b rest = .ok p.left := by
  simp only [inferPadding, spaceBefore, spaceAfter, bind_eq_ok_iff]
  constructor
  · rintro ⟨l, hl, ls, hls, t, ht, ts, hts, r, hr, rs, hrs, u, hu, us, hus, y, hy, top, htop,
      x, hx, right, hright, z, hz, bottom, hbottom, w, hw, left, hleft, h⟩
    cases h
    exact ⟨⟨t, ht, ts, hts, y, hy, htop⟩, ⟨r, hr, rs, hrs, x, hx, hright⟩,
      ⟨u, hu, us, hus, z, hz, hbottom⟩, ⟨l, hl, ls, hls, w, hw, hleft⟩⟩
  · rintro ⟨⟨t, ht, ts, hts, y, hy, htop⟩, ⟨r, hr, rs, hrs, x, hx, hright⟩,
      ⟨u, hu, us, hus, z, hz, hbottom⟩, ⟨l, hl, ls, hls, w, hw, hleft⟩⟩
    exact ⟨l, hl, ls, hls, t, ht, ts, hts, r, hr, rs, hrs, u, hu, us, hus, y, hy, _, htop,
      x, hx, _, hright, z, hz, _, hbottom, w, hw, _, hleft, rfl⟩

theorem spaceBefore_transpose (axis : Axis) (box b : Box) (rest : List Box) :
    spaceBefore axis box.transpose b.transpose (rest.map Box.transpose) =
      spaceBefore axis.other box b rest := by
  have hstarts := Box.mapM_transpose (f := fun c => c.start axis) (g := fun c => c.start axis.other)
    (fun c => c.start_transpose axis) rest
  rw [spaceBefore, spaceBefore, hstarts, Box.start_transpose, Box.start_transpose]

theorem spaceAfter_transpose (axis : Axis) (box b : Box) (rest : List Box) :
    spaceAfter axis box.transpose b.transpose (rest.map Box.transpose) =
      spaceAfter axis.other box b rest := by
  have hfinishes := Box.mapM_transpose (f := fun c => c.finish axis)
    (g := fun c => c.finish axis.other) (fun c => c.finish_transpose axis) rest
  rw [spaceAfter, spaceAfter, hfinishes, Box.finish_transpose, Box.finish_transpose]

theorem inferPadding_transpose_eq_ok_iff :
    inferPadding box.transpose (boxes.map Box.transpose) = .ok p.transpose ↔
      inferPadding box boxes = .ok p := by
  cases boxes with
  | nil =>
      obtain ⟨top, right, bottom, left⟩ := p
      constructor <;> (intro h; cases h; rfl)
  | cons b rest =>
      rw [List.map_cons, inferPadding_cons_eq_ok_iff, inferPadding_cons_eq_ok_iff]
      simp only [spaceBefore_transpose, spaceAfter_transpose, Axis.other, Padding.transpose]
      tauto

theorem getLastD_transpose (b : Box) (bs : List Box) :
    (bs.map Box.transpose).getLastD b.transpose = (bs.getLastD b).transpose := by
  rw [List.getLastD_eq_getLast?, List.getLast?_map, List.getLastD_eq_getLast?]
  cases bs.getLast? <;> rfl

theorem inferMainAlign_transpose (box : Box) (boxes : List Box) (axis : Axis) :
    inferMainAlign box.transpose (boxes.map Box.transpose) axis =
      inferMainAlign box boxes axis.other := by
  refine Box.sortAlong_transpose_bind (fun sorted => ?_) axis boxes
  cases sorted with
  | nil => rfl
  | cons b rest =>
      have hlast := getLastD_transpose b (b :: rest)
      rw [List.map_cons] at *
      simp only [hlast, Box.start_transpose, Box.finish_transpose]

theorem inferCrossAlign_transpose (box : Box) (boxes : List Box) (axis : Axis) :
    inferCrossAlign box.transpose (boxes.map Box.transpose) axis =
      inferCrossAlign box boxes axis.other := by
  have hbefore := Box.mapM_transpose
    (f := fun c => c.start axis.other >>= fun s => box.transpose.start axis.other >>= fun t => s.sub t)
    (g := fun c => c.start axis.other.other >>= fun s => box.start axis.other.other >>= fun t =>
      s.sub t)
    (fun c => by rw [Box.start_transpose, Box.start_transpose]) boxes
  have hafter := Box.mapM_transpose
    (f := fun c => box.transpose.finish axis.other >>= fun s => c.finish axis.other >>= fun t =>
      s.sub t)
    (g := fun c => box.finish axis.other.other >>= fun s => c.finish axis.other.other >>= fun t =>
      s.sub t)
    (fun c => by rw [Box.finish_transpose, Box.finish_transpose]) boxes
  simp only [inferCrossAlign, List.isEmpty_map, List.length_map, hbefore, hafter]

/-- If one of the tests for a row and for a column holds, the other one neither holds nor fails. -/
def AreDistinguished (boxes : List Box) : Prop :=
  ∀ axis, Box.flowsAlong axis boxes = .ok true → Box.flowsAlong axis.other boxes = .ok false

/-- Which test comes first does not matter if no two of them hold, and none fails after another. -/
theorem flowOf_transpose {t : Traits} (hauto : t.autoLayout = none) (hlength : 2 ≤ boxes.length)
    (hboxes : ∀ b ∈ boxes, b.IsFinite) (hdistinguished : AreDistinguished boxes) :
    flowOf t (boxes.map Box.transpose) = Flow.transpose <$> flowOf t boxes := by
  have hrow := hdistinguished .horizontal
  have hcolumn := hdistinguished .vertical
  have hrowFault := Box.flowsAlong_blames hboxes .horizontal
  have hcolumnFault := Box.flowsAlong_blames hboxes .vertical
  rw [flowOf, flowOf, hauto]
  dsimp only
  rw [inferFlow_eq_of_two_le hlength, inferFlow_eq_of_two_le (by rwa [List.length_map]),
    Box.isStack_transpose hboxes, Box.flowsAlong_transpose, Box.flowsAlong_transpose]
  simp only [Axis.other] at *
  generalize Box.flowsAlong .horizontal boxes = row at *
  generalize Box.flowsAlong .vertical boxes = column at *
  cases Box.isStack boxes with
  | error fault => rfl
  | ok stack =>
      cases stack with
      | true => rfl
      | false =>
          cases row with
          | error fault =>
              cases column with
              | error fault' =>
                  obtain rfl := hrowFault fault rfl
                  obtain rfl := hcolumnFault fault' rfl
                  rfl
              | ok c =>
                  cases c with
                  | true => cases hcolumn rfl
                  | false => rfl
          | ok r =>
              cases r with
              | true =>
                  rw [hrow rfl]
                  rfl
              | false =>
                  cases column with
                  | error fault => rfl
                  | ok c => cases c <;> rfl

/-- Rows and columns mirror each other, as to flow, gap, alignment and padding; a stack is a stack
from either side. Where at most one of a row and a column is found, and the search for the other one
does not fail, the flow is mirrored too. -/
theorem layout_mirrors (box : Box) (hboxes : ∀ b ∈ boxes, b.IsFinite) :
    (∀ axis, Box.flowsAlong axis (boxes.map .transpose) = Box.flowsAlong axis.other boxes ∧
      Box.meanGap axis (boxes.map .transpose) = Box.meanGap axis.other boxes ∧
      inferMainAlign box.transpose (boxes.map .transpose) axis =
        inferMainAlign box boxes axis.other ∧
      inferCrossAlign box.transpose (boxes.map .transpose) axis =
        inferCrossAlign box boxes axis.other) ∧
    Box.isStack (boxes.map .transpose) = Box.isStack boxes ∧
    (∀ p : Padding, inferPadding box.transpose (boxes.map .transpose) = .ok p.transpose ↔
      inferPadding box boxes = .ok p) ∧
    ∀ t : Traits, t.autoLayout = none → 2 ≤ boxes.length → AreDistinguished boxes →
      flowOf t (boxes.map .transpose) = Flow.transpose <$> flowOf t boxes :=
  ⟨fun axis => ⟨Box.flowsAlong_transpose axis boxes, Box.meanGap_transpose axis boxes,
      inferMainAlign_transpose box boxes axis, inferCrossAlign_transpose box boxes axis⟩,
    Box.isStack_transpose hboxes, fun _ => inferPadding_transpose_eq_ok_iff,
    fun _ hauto hlength hdistinguished => flowOf_transpose hauto hlength hboxes hdistinguished⟩

def unnamed : Traits := { id := none, name := none, kind := none }

def lampRow : List Box :=
  [⟨some 0, some 0, some 10, some 60⟩, ⟨some (.fraction 41 2), some 2, some 12, some 30⟩]

theorem layout_mirrors_lampRow :
    (∀ b ∈ lampRow, b.IsFinite) ∧ AreDistinguished lampRow ∧ flowOf unnamed lampRow = .ok .row ∧
    flowOf unnamed (lampRow.map .transpose) = .ok .column := by
  have hfinite : ∀ b ∈ lampRow, b.IsFinite := by
    simp only [lampRow, Box.IsFinite, List.forall_mem_cons]
    decide +kernel
  have hcolumn : Box.flowsAlong .vertical lampRow = .ok false :=
    (Box.flowsAlong_pair hfinite (by decide +kernel)).trans (by decide +kernel)
  have hrow : Box.flowsAlong .horizontal lampRow = .ok true :=
    (Box.flowsAlong_pair hfinite (by decide +kernel)).trans (by decide +kernel)
  have hdistinguished : AreDistinguished lampRow := by
    intro axis h
    cases axis with
    | horizontal => exact hcolumn
    | vertical => cases hcolumn.symm.trans h
  have hflow := flowOf_eq_row (t := unnamed) rfl (by decide) (by decide +kernel) hrow
  have hmirror := (layout_mirrors {} hfinite).2.2.2 unnamed rfl (by decide) hdistinguished
  exact ⟨hfinite, hdistinguished, hflow, hmirror.trans (by rw [hflow]; rfl)⟩

def wideGround : List Box :=
  [⟨some (.int (-10 ^ 309)), some 0, some (.int (10 ^ 309)), some 10⟩,
    ⟨some (.fraction 1 2), some 0, some 10, some 10⟩]

/-- A row is found before it is asked for a column. Where that question fails over an integer that is
too large, the mirror image has no flow. -/
theorem not_mirrored_wideGround :
    (∀ b ∈ wideGround, b.IsFinite) ∧ Box.flowsAlong .vertical wideGround ≠ .ok true ∧
    flowOf unnamed wideGround = .ok .row ∧
    flowOf unnamed (wideGround.map .transpose) ≠ .ok .column := by
  have hfinite : ∀ b ∈ wideGround, b.IsFinite := by
    simp only [wideGround, Box.IsFinite, List.forall_mem_cons]
    decide +kernel
  have hrow : Box.flowsAlong .horizontal wideGround = .ok true :=
    (Box.flowsAlong_pair hfinite (by decide +kernel)).trans (by decide +kernel)
  refine ⟨hfinite, by decide +kernel, ?_, by decide +kernel⟩
  exact flowOf_eq_row rfl (by decide) (by decide +kernel) hrow

end Layout

end Mockup
