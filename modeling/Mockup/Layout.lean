import Mockup.Layer.Selection
import Mockup.Box.Flow

namespace Mockup

inductive Flow where
  | row
  | column
  | stack
  | absolute
  | other (name : String)
  deriving DecidableEq

namespace Flow

def name : Flow → String
  | .row => "row"
  | .column => "column"
  | .stack => "stack"
  | .absolute => "absolute"
  | .other s => s

def ofName (s : String) : Flow :=
  if s = "row" then .row
  else if s = "column" then .column
  else if s = "stack" then .stack
  else if s = "absolute" then .absolute
  else .other s

def along : Axis → Flow
  | .horizontal => .row
  | .vertical => .column

def axis? : Flow → Option Axis
  | .row => some .horizontal
  | .column => some .vertical
  | _ => none

end Flow

inductive Alignment where
  | start
  | center
  | finish
  | spaceBetween
  | spaceAround
  | baseline
  | stretch
  | other (name : String)
  deriving DecidableEq

namespace Alignment

def name : Alignment → String
  | .start => "start"
  | .center => "center"
  | .finish => "end"
  | .spaceBetween => "space-between"
  | .spaceAround => "space-around"
  | .baseline => "baseline"
  | .stretch => "stretch"
  | .other s => s

def named : List Alignment :=
  [.start, .center, .finish, .spaceBetween, .spaceAround, .baseline, .stretch]

def ofName (s : String) : Alignment := (named.find? fun a => a.name == s).getD (.other s)

def ofMain (s : String) : Alignment :=
  (Fields.get? s [("MAX", .finish), ("CENTER", .center), ("SPACE_BETWEEN", .spaceBetween),
    ("SPACE_AROUND", .spaceAround)]).getD .start

def ofCross (s : String) : Alignment :=
  (Fields.get? s [("MAX", .finish), ("CENTER", .center), ("BASELINE", .baseline),
    ("STRETCH", .stretch)]).getD .start

end Alignment

/-- Where a block takes its size from: its own, its parent or its content. -/
inductive Size where
  | fixed
  | fill
  | hug
  | other (name : String)
  deriving DecidableEq

namespace Size

def name : Size → String
  | .fixed => "fixed"
  | .fill => "fill"
  | .hug => "hug"
  | .other s => s

def ofName (s : String) : Size :=
  if s = "fixed" then .fixed else if s = "fill" then .fill else if s = "hug" then .hug else .other s

end Size

structure Sizing where
  horizontal : Size := .fixed
  vertical : Size := .fixed
  deriving DecidableEq

namespace Sizing

def set (s : Sizing) (size : Size) : Axis → Sizing
  | .horizontal => { s with horizontal := size }
  | .vertical => { s with vertical := size }

def get (s : Sizing) : Axis → Size
  | .horizontal => s.horizontal
  | .vertical => s.vertical

def toValue (s : Sizing) : Value :=
  .object [("horizontal", .text s.horizontal.name), ("vertical", .text s.vertical.name)]

end Sizing

structure Layout where
  flow : Flow := .absolute
  gap : Option Number := some 0
  padding : Padding := {}
  mainAlign : Alignment := .start
  crossAlign : Alignment := .start
  sizing : Sizing := {}
  overflow : Option String := none
  deriving DecidableEq

def Layout.toValue (l : Layout) : Value :=
  .record [("type", some (.text l.flow.name)), ("gap", l.gap.map Value.number),
    ("padding", some l.padding.toValue), ("mainAlign", some (.text l.mainAlign.name)),
    ("crossAlign", some (.text l.crossAlign.name)), ("sizing", some l.sizing.toValue),
    ("overflow", l.overflow.map Value.text)]

/-- A block with its layout, and its position if it is placed freely in its parent. -/
structure Placed extends Block where
  layout : Layout := {}
  position : Option Fields := none

namespace Placed

mutual

def toValue : Tree Placed → Value
  | .node p ts => .record (p.parts (some p.box) (itemValues ts) ++
      [("layout", some p.layout.toValue), ("position", p.position.map Value.object)])

def itemValues : List (Tree Placed) → List Value
  | [] => []
  | t :: ts => toValue t :: itemValues ts

end

end Placed

end Mockup
