import Mockup.Layout

namespace Mockup.Position

def trimZeros (cs : List Char) : List Char :=
  Text.trimEndBy (· == '.') (Text.trimEndBy (· == '0') cs)

/-- A percentage with at most two places. Zero has no sign. -/
def formatPercent (n : Number) : Number.Result String := do
  let text := trimZeros ((← n.toReal).fixedText .plain)
  return String.ofList ((if text = ['-', '0'] || text.isEmpty then ['0'] else text) ++ ['%'])

def percent (part whole : Number) : Number.Result String := do
  if whole.isZero then formatPercent 0
  else formatPercent (← (← part.div whole).mul 100)

/-- The edges of the parent to which a block is tied along one axis. -/
inductive Tie where
  | near
  | far
  | both
  | scale
  deriving DecidableEq

/-- The names for either axis mean the same on both. All other names tie to the near edge. -/
def Tie.ofName : Option String → Tie
  | some "RIGHT" | some "BOTTOM" => .far
  | some "LEFT_RIGHT" | some "TOP_BOTTOM" => .both
  | some "SCALE" => .scale
  | _ => .near

def nearName : Axis → String
  | .horizontal => "left"
  | .vertical => "top"

def farName : Axis → String
  | .horizontal => "right"
  | .vertical => "bottom"

def extentName : Axis → String
  | .horizontal => "width"
  | .vertical => "height"

def along (axis : Axis) (tie : Tie) (box parent : Box) : Number.Result Fields := do
  let offset ← (← box.start axis).sub (← parent.start axis)
  let size ← box.extent axis
  let whole ← parent.extent axis
  let trailing ← whole.sub (← offset.add size)
  match tie with
  | .near => return [(nearName axis, .number offset.normalize)]
  | .far => return [(farName axis, .number trailing.normalize)]
  | .both => return [(nearName axis, .number offset.normalize),
      (farName axis, .number trailing.normalize), (extentName axis, .text "auto")]
  | .scale => return [(nearName axis, .text (← percent offset whole)),
      (extentName axis, .text (← percent size whole))]

def ofConstraints (c : Constraints) (box parent : Box) : Number.Result Fields := do
  let across ← along .horizontal (.ofName c.horizontal) box parent
  let down ← along .vertical (.ofName c.vertical) box parent
  return ("position", .text "absolute") :: across ++ down

/-- A block is placed freely when it says so or when its parent is neither a row nor a column. -/
def isFree (t : Traits) (parent : Flow) : Bool :=
  t.positioning = some "ABSOLUTE" || parent.axis?.isNone

def of (b : Block) (parent : Option Flow) (parentBox : Option Box) :
    Number.Result (Option Fields) :=
  match b.constraints, parent, parentBox with
  | some c, some flow, some box =>
    if isFree b.toTraits flow then do return some (← ofConstraints c b.box box) else .ok none
  | _, _, _ => .ok none

end Mockup.Position
