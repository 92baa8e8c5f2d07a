import Mockup.Value

namespace Mockup

inductive Axis where
  | horizontal
  | vertical
  deriving DecidableEq, Repr

def Axis.other : Axis → Axis
  | .horizontal => .vertical
  | .vertical => .horizontal

structure Box where
  x : Option Number := some 0
  y : Option Number := some 0
  width : Option Number := some 0
  height : Option Number := some 0
  deriving DecidableEq, Repr

namespace Box

def start (b : Box) : Axis → Number.Result Number
  | .horizontal => Number.known b.x
  | .vertical => Number.known b.y

def extent (b : Box) : Axis → Number.Result Number
  | .horizontal => Number.known b.width
  | .vertical => Number.known b.height

def finish (b : Box) (axis : Axis) : Number.Result Number := do
  (← b.start axis).add (← b.extent axis)

def left (b : Box) : Number.Result Number := b.start .horizontal

def top (b : Box) : Number.Result Number := b.start .vertical

def right (b : Box) : Number.Result Number := b.finish .horizontal

def bottom (b : Box) : Number.Result Number := b.finish .vertical

def area (b : Box) : Number.Result Number := do
  (← b.extent .horizontal).mul (← b.extent .vertical)

def toValue (b : Box) : Value :=
  .record [("x", b.x.map Value.number), ("y", b.y.map Value.number),
    ("width", b.width.map Value.number), ("height", b.height.map Value.number)]

def ofFields (fields : Fields) : Box :=
  ⟨fields.numberOr? "x" 0, fields.numberOr? "y" 0, fields.numberOr? "width" 0,
    fields.numberOr? "height" 0⟩

end Box

end Mockup
