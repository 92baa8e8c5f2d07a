import Mockup.Box

namespace Mockup.Box

/-- Boxes in a row may overlap by this much. -/
def overlapAllowance : Number := 2

/-- How far apart the starts across the flow may be. -/
def alignmentSpread : Number := 22

def startsBefore (axis : Axis) (a b : Box) : Bool :=
  match a.start axis, b.start axis with
  | .ok s, .ok t => s.lt t
  | _, _ => false

/-- Boxes in the order of their starts; those that start together keep their order. It takes all
starts to put several boxes in order. -/
def sortAlong (axis : Axis) (boxes : List Box) : Number.Result (List Box) := do
  if 1 < boxes.length then
    boxes.forM fun b => do let _ ← b.start axis
  return boxes.mergeSort fun a b => !startsBefore axis b a

def inSequence (axis : Axis) : List Box → Number.Result Bool
  | a :: b :: rest => do
    let limit ← (← a.finish axis).sub overlapAllowance
    if (← b.start axis).lt limit then return false
    inSequence axis (b :: rest)
  | _ => .ok true

def spread (n : Number) (rest : List Number) : Number.Result Number :=
  (Number.maximum n rest).sub (Number.minimum n rest)

/-- Whether at least two boxes follow one another along an axis, aligned across it. -/
def flowsAlong (axis : Axis) (boxes : List Box) : Number.Result Bool :=
  match boxes with
  | a :: b :: rest => do
    let starts ← (b :: rest).mapM fun c => c.start axis.other
    if alignmentSpread.lt (← spread (← a.start axis.other) starts) then return false
    inSequence axis (← sortAlong axis boxes)
  | _ => .ok false

def sharedExtent (axis : Axis) (a b : Box) : Number.Result Number := do
  let finish := Number.min (← a.finish axis) (← b.finish axis)
  let shared ← finish.sub ((← a.start axis).max (← b.start axis))
  return Number.max 0 shared

def overlapArea (a b : Box) : Number.Result Number := do
  (← sharedExtent .horizontal a b).mul (← sharedExtent .vertical a b)

/-- Whether two boxes overlap by more than half of the smaller one. -/
def covers (a b : Box) : Number.Result Bool := do
  let overlap ← overlapArea a b
  let limit ← ((← a.area).min (← b.area)).mul (.fraction 1 2)
  return limit.lt overlap

def isStack : List Box → Number.Result Bool
  | [] => .ok false
  | a :: rest => do
    if ← rest.anyM (covers a) then return true
    isStack rest

def gaps (axis : Axis) : List Box → Number.Result (List Number)
  | a :: b :: rest => do
    let gap ← (← b.start axis).sub (← a.finish axis)
    return gap :: (← gaps axis (b :: rest))
  | _ => .ok []

/-- The mean of those gaps that are positive, rounded, or zero when there are none. -/
def meanGap (axis : Axis) (boxes : List Box) : Number.Result Int := do
  let positive := (← gaps axis (← sortAlong axis boxes)).filter (Number.lt 0)
  if positive.isEmpty then return 0
  (← (← Number.sum positive).div (.int positive.length)).roundHalfUp

end Mockup.Box
