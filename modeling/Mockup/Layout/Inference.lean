import Mockup.Layout

namespace Mockup.Layout

/-- Below this difference of the space before and after, content is centred. -/
def centerThreshold : Number := 10

def leadingMinimum : Number := 20

/-- Overlapping boxes are a stack; otherwise a row is looked for before a column. -/
def inferFlow (boxes : List Box) : Number.Result Flow :=
  match boxes with
  | [] => .ok .absolute
  | [_] => .ok .column
  | _ => do
    if ← Box.isStack boxes then return .stack
    if ← Box.flowsAlong .horizontal boxes then return .row
    if ← Box.flowsAlong .vertical boxes then return .column
    return .absolute

def flowOf (t : Traits) (boxes : List Box) : Number.Result Flow :=
  match t.autoLayout with
  | some a => .ok (.along a.axis)
  | none => inferFlow boxes

def roundedSpace (a b : Number) : Number.Result (Option Number) := do
  return some (Number.max 0 (.int (← (← a.sub b).roundHalfUp)))

/-- The space between a box and the smallest box around its children, never negative. -/
def inferPadding (box : Box) : List Box → Number.Result Padding
  | [] => .ok {}
  | b :: rest => do
    let left := Number.minimum (← b.left) (← rest.mapM Box.left)
    let top := Number.minimum (← b.top) (← rest.mapM Box.top)
    let right := Number.maximum (← b.right) (← rest.mapM Box.right)
    let bottom := Number.maximum (← b.bottom) (← rest.mapM Box.bottom)
    return {
      top := ← roundedSpace top (← box.top)
      right := ← roundedSpace (← box.right) right
      bottom := ← roundedSpace (← box.bottom) bottom
      left := ← roundedSpace left (← box.left) }

def classifySpace (leading trailing : Number) : Number.Result Alignment := do
  if (← leading.sub trailing).abs.lt centerThreshold then return .center
  if trailing.lt centerThreshold && leadingMinimum.lt leading then return .finish
  return .start

/-- Alignment along the flow, by the space before the first and after the last box. -/
def inferMainAlign (box : Box) (boxes : List Box) (axis : Axis) : Number.Result Alignment := do
  match ← Box.sortAlong axis boxes with
  | [] => return .start
  | b :: rest =>
    let leading ← (← b.start axis).sub (← box.start axis)
    let trailing ← (← box.finish axis).sub (← ((b :: rest).getLastD b).finish axis)
    classifySpace leading trailing

def inferCrossAlign (box : Box) (boxes : List Box) (axis : Axis) : Number.Result Alignment :=
  if boxes.isEmpty then .ok .start
  else do
    let across := axis.other
    let count : Number := .int boxes.length
    let before ← boxes.mapM fun b => do (← b.start across).sub (← box.start across)
    let leading ← (← Number.sum before).div count
    let after ← boxes.mapM fun b => do (← box.finish across).sub (← b.finish across)
    let trailing ← (← Number.sum after).div count
    classifySpace leading trailing

/-- Filling follows the flow of the parent, hugging the block's own. -/
def sizingOf (t : Traits) (parent : Option Flow) (own : Flow) : Sizing :=
  let parentAxis := parent.bind Flow.axis?
  let fill (grows : Bool) (axis : Option Axis) (s : Sizing) : Sizing :=
    match axis with
    | some axis => if grows then s.set .fill axis else s
    | none => s
  let ownAxis := match t.autoLayout with
    | some a => a.axis
    | none => if own = .row then .horizontal else .vertical
  let hug (mode : Option String) (axis : Axis) (s : Sizing) : Sizing :=
    if mode = some "AUTO" then s.set .hug axis else s
  let grown := fill (t.layoutGrow.any (Number.eq 1)) parentAxis {}
  let stretched := fill (t.layoutAlign = some "STRETCH") (parentAxis.map Axis.other) grown
  hug t.counterSizing ownAxis.other (hug t.primarySizing ownAxis stretched)

def overflowOf (t : Traits) : Option String :=
  match t.overflowDirection with
  | some s => if s.isEmpty || s = "NONE" then none else some "scroll"
  | none => none

def infer (b : Block) (boxes : List Box) (parent : Option Flow) : Number.Result Layout := do
  let flow ← flowOf b.toTraits boxes
  let sizing := sizingOf b.toTraits parent flow
  let overflow := overflowOf b.toTraits
  match b.autoLayout with
  | some a =>
    return ⟨flow, a.gap, a.padding, .ofMain a.mainAlign, .ofCross a.crossAlign, sizing, overflow⟩
  | none =>
    match flow.axis? with
    | some axis =>
      let gap ← Box.meanGap axis boxes
      let mainAlign ← inferMainAlign b.box boxes axis
      let crossAlign ← inferCrossAlign b.box boxes axis
      let padding ← inferPadding b.box boxes
      return ⟨flow, some (.int gap), padding, mainAlign, crossAlign, sizing, overflow⟩
    | none => return ⟨flow, some 0, ← inferPadding b.box boxes, .start, .start, sizing, overflow⟩

end Mockup.Layout
