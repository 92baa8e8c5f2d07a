import Mockup.Fault
import Mockup.Number.Angle
import Mockup.Text.Scan
import Mockup.Text.Surrogate

namespace Mockup

/-- Channels from 0 to 255 and an alpha from 0 to 1. -/
structure Color where
  red : Int := 0
  green : Int := 0
  blue : Int := 0
  alpha : Option Number := some (.real (.ofInt 1))
  deriving DecidableEq

namespace Color

def hexByte (i : Int) : List Char :=
  let ds := (Nat.toDigits 16 i.natAbs).map Char.toUpper
  let signed := if i < 0 then '-' :: ds else ds
  if signed.length < 2 then '0' :: signed else signed

def hexChannels (c : Color) : List Char :=
  '#' :: hexByte c.red ++ hexByte c.green ++ hexByte c.blue

def fullAlpha : Number := .fraction 995 1000

/-- The colour in upper case hexadecimal digits, the opacity of its paint folded into the alpha. A
full colour is written without alpha. -/
def resolve (c : Color) (opacity : Number) : Number.Result String := do
  let alpha ← (← Number.known c.alpha).mul opacity
  if fullAlpha.le alpha then return String.ofList c.hexChannels
  let scaled ← (← alpha.mul 255).add (.fraction 1 2)
  return String.ofList (c.hexChannels ++ hexByte (← scaled.truncate))

def hex (c : Color) : Number.Result String := c.resolve (.real (.ofInt 1))

def toValue (c : Color) : Value :=
  .record [("r", some (.ofInt c.red)), ("g", some (.ofInt c.green)), ("b", some (.ofInt c.blue)),
    ("a", c.alpha.map Value.number)]

def channel (fields : Fields) (name : String) : Number.Result Int := do
  (← (← Number.known (fields.numberOr? name 0)).mul 255).roundHalfEven

def ofFields (fields : Fields) : Number.Result Color := do
  return ⟨← channel fields "r", ← channel fields "g", ← channel fields "b",
    fields.numberOr? "a" 1⟩

end Color

structure GradientStop where
  position : Option Number := some 0
  color : Color := {}
  deriving DecidableEq

def GradientStop.toValue (s : GradientStop) : Value :=
  .record [("position", s.position.map Value.number), ("color", some s.color.toValue)]

inductive GradientShape where
  | linear
  | radial
  deriving DecidableEq

def GradientShape.name : GradientShape → String
  | .linear => "linear"
  | .radial => "radial"

structure Gradient where
  shape : GradientShape := .linear
  stops : List GradientStop := []
  angle : Option Number := none
  deriving DecidableEq

inductive Paint where
  | solid (color : Color)
  | gradient (gradient : Gradient)
  | image (reference : String) (scaleMode : Option String)
  deriving DecidableEq

structure Fill where
  paint : Paint
  opacity : Option Number := some (.real (.ofInt 1))
  deriving DecidableEq

namespace Fill

def solid? (f : Fill) : Option Color :=
  match f.paint with
  | .solid c => some c
  | _ => none

def isSolid (f : Fill) : Bool := f.solid?.isSome

def image? (f : Fill) : Option String :=
  match f.paint with
  | .image reference _ => some reference
  | _ => none

def isImage (f : Fill) : Bool := f.image?.isSome

def toValue (f : Fill) : Value :=
  let opacity := ("opacity", f.opacity.map Value.number)
  match f.paint with
  | .solid c => .record [("type", some (.text "solid")), ("color", some c.toValue), opacity]
  | .gradient g => .record [("type", some (.text "gradient")),
      ("gradientType", some (.text g.shape.name)),
      ("stops", some (.list (g.stops.map GradientStop.toValue))), opacity,
      ("angle", g.angle.map Value.number)]
  | .image reference scaleMode => .record [("type", some (.text "image")),
      ("imageRef", some (.text reference)), opacity, ("scaleMode", scaleMode.map Value.text)]

def stopOf (v : Value) : Result GradientStop := do
  let fields ← v.objectFields
  let color ← ((Fields.get? "color" fields).getD (.object [])).objectFields
  return ⟨fields.numberOr? "position" 0, ← (Color.ofFields color).lift⟩

def handleSpan (a b : Fields) (name : String) : Number.Result Number := do
  (← Number.known (b.numberOr? name 0)).sub (← Number.known (a.numberOr? name 0))

/-- The direction from one handle to another; none when they coincide. -/
def handleAngle (a b : Fields) : Number.Result (Option Number) := do
  let dx ← handleSpan a b "x"
  let dy ← handleSpan a b "y"
  if dx.isZero && dy.isZero then return none
  return some (.real (Number.Angle.direction (← dx.toReal) (← dy.toReal)))

def handleAngle? : List Value → Result (Option Number)
  | a :: b :: _ => do (handleAngle (← a.objectFields) (← b.objectFields)).lift
  | _ => .ok none

def gradientOf (fields : Fields) (shape : GradientShape) : Result (Option Paint) := do
  let stops := fields.items "gradientStops"
  if stops.isEmpty then return none
  let stops ← stops.mapM stopOf
  let angle ← if shape = .linear then handleAngle? (fields.items "gradientHandlePositions")
    else pure none
  return some (.gradient ⟨shape, stops, angle⟩)

def paintOf (fields : Fields) : Result (Option Paint) :=
  match fields.text? "type" with
  | some "SOLID" =>
    let color := fields.nested "color"
    if color.isEmpty then .ok none else do return some (.solid (← (Color.ofFields color).lift))
  | some "GRADIENT_LINEAR" => gradientOf fields .linear
  | some "GRADIENT_RADIAL" => gradientOf fields .radial
  | some "IMAGE" =>
    let reference := fields.textOr "imageRef" ""
    if reference.isEmpty then .ok none
    else
      let mode := fields.textOr "scaleMode" ""
      .ok (some (.image reference (if mode.isEmpty then none else some (Text.lower mode))))
  | _ => .ok none

def ofValue (v : Value) : Result (Option Fill) := do
  let fields ← v.objectFields
  let opacity := fields.numberOr? "opacity" 1
  if fields.isFalse "visible" || opacity.any Number.isZero then return none
  return (← paintOf fields).map fun paint => ⟨paint, opacity⟩

def ofItems (items : List Value) : Result (List Fill) := do
  return (← items.mapM ofValue).filterMap id

end Fill

structure Stroke where
  color : Color := {}
  weight : Option Number := some 1
  opacity : Option Number := some (.real (.ofInt 1))
  align : String := "inside"
  deriving DecidableEq

namespace Stroke

def toValue (s : Stroke) : Value :=
  .record [("color", some s.color.toValue), ("weight", s.weight.map Value.number),
    ("opacity", s.opacity.map Value.number), ("align", some (.text s.align))]

def ofLayer (fields : Fields) : Result (List Stroke) :=
  match fields.items "strokes" with
  | [] => .ok []
  | v :: _ => do
    let stroke ← v.objectFields
    let color := stroke.nested "color"
    if stroke.isFalse "visible" || stroke.text? "type" != some "SOLID" || color.isEmpty then
      return []
    return [⟨← (Color.ofFields color).lift, fields.numberOr? "strokeWeight" 1,
      stroke.numberOr? "opacity" 1, Text.lower (fields.textOr "strokeAlign" "INSIDE")⟩]

end Stroke

structure Shadow where
  color : Color := {}
  offsetX : Option Number := some 0
  offsetY : Option Number := some 0
  radius : Option Number := some 0
  spread : Option Number := some 0
  deriving DecidableEq

inductive Effect where
  | dropShadow (shadow : Shadow)
  | innerShadow (shadow : Shadow)
  | layerBlur (radius : Option Number)
  | backgroundBlur (radius : Option Number)
  deriving DecidableEq

namespace Effect

def name : Effect → String
  | .dropShadow _ => "drop-shadow"
  | .innerShadow _ => "inner-shadow"
  | .layerBlur _ => "layer-blur"
  | .backgroundBlur _ => "background-blur"

def isDropShadow : Effect → Bool
  | .dropShadow _ => true
  | _ => false

def shadowValue (name : String) (s : Shadow) : Value :=
  .record [("type", some (.text name)), ("color", some s.color.toValue),
    ("offsetX", s.offsetX.map Value.number), ("offsetY", s.offsetY.map Value.number),
    ("radius", s.radius.map Value.number), ("spread", s.spread.map Value.number)]

def toValue (e : Effect) : Value :=
  match e with
  | .dropShadow s | .innerShadow s => shadowValue e.name s
  | .layerBlur r | .backgroundBlur r =>
    .record [("type", some (.text e.name)), ("radius", r.map Value.number)]

def shadowOf (fields : Fields) : Number.Result (Option Shadow) := do
  let color := fields.nested "color"
  if color.isEmpty then return none
  let offset := fields.nested "offset"
  return some ⟨← Color.ofFields color, offset.numberOr? "x" 0, offset.numberOr? "y" 0,
    fields.numberOr? "radius" 0, fields.numberOr? "spread" 0⟩

def ofValue (v : Value) : Result (Option Effect) := do
  let fields ← v.objectFields
  if fields.isFalse "visible" then return none
  match fields.text? "type" with
  | some "DROP_SHADOW" => return (← (shadowOf fields).lift).map .dropShadow
  | some "INNER_SHADOW" => return (← (shadowOf fields).lift).map .innerShadow
  | some "LAYER_BLUR" => return some (.layerBlur (fields.numberOr? "radius" 0))
  | some "BACKGROUND_BLUR" => return some (.backgroundBlur (fields.numberOr? "radius" 0))
  | _ => return none

def ofItems (items : List Value) : Result (List Effect) := do
  return (← items.mapM ofValue).filterMap id

end Effect

structure Corners where
  topLeft : Option Number := some 0
  topRight : Option Number := some 0
  bottomRight : Option Number := some 0
  bottomLeft : Option Number := some 0
  deriving DecidableEq

namespace Corners

def toList (c : Corners) : List (Option Number) :=
  [c.topLeft, c.topRight, c.bottomRight, c.bottomLeft]

def toValue (c : Corners) : Value :=
  .record [("topLeft", c.topLeft.map Value.number), ("topRight", c.topRight.map Value.number),
    ("bottomRight", c.bottomRight.map Value.number),
    ("bottomLeft", c.bottomLeft.map Value.number)]

end Corners

inductive CornerRadius where
  | uniform (radius : Number)
  | each (corners : Corners)
  deriving DecidableEq

namespace CornerRadius

def corners? : CornerRadius → Option Corners
  | .each c => some c
  | .uniform _ => none

def isRounded : CornerRadius → Bool
  | .uniform r => !r.isZero
  | .each c => c.toList.any fun r => !r.any Number.isZero

def toValue : CornerRadius → Value
  | .uniform r => .number r
  | .each c => c.toValue

def sameRadius : Option Number → Option Number → Bool
  | some a, some b => a.eq b
  | none, none => true
  | _, _ => false

/-- Four radii count before the single one; four equal ones are a single one. -/
def ofFields (fields : Fields) : Option CornerRadius :=
  match (fields.items "rectangleCornerRadii").map Value.number? with
  | [a, b, c, d] =>
    if [b, c, d].all (sameRadius a) then a.map .uniform else some (.each ⟨a, b, c, d⟩)
  | _ => (fields.number? "cornerRadius").map .uniform

end CornerRadius

/-- A family with half a surrogate pair in its name is kept by the code points of the name. -/
inductive FontFamily where
  | named (name : String)
  | torn (points : List Nat) (h : points.any Text.isHalf = true)
  deriving DecidableEq

namespace FontFamily

def isSpelled : FontFamily → Bool
  | named _ => true
  | torn .. => false

def shown : FontFamily → String
  | named name => name
  | torn points _ => String.ofList (points.map Text.shownPoint)

end FontFamily

structure Typography where
  fontFamily : FontFamily := .named "System"
  fontSize : Number := 14
  fontWeight : Number := 400
  lineHeight : Option Number := none
  letterSpacing : Number := 0
  textAlign : String := "left"
  textDecoration : Option String := none
  textTransform : Option String := none
  deriving DecidableEq

namespace Typography

def toFields (t : Typography) : List (String × Option Value) :=
  [("fontFamily", some (.text t.fontFamily.shown)), ("fontSize", some (.number t.fontSize)),
    ("fontWeight", some (.number t.fontWeight)), ("lineHeight", t.lineHeight.map Value.number),
    ("letterSpacing", some (.number t.letterSpacing)), ("textAlign", some (.text t.textAlign)),
    ("textDecoration", t.textDecoration.map Value.text),
    ("textTransform", t.textTransform.map Value.text)]

def toValue (t : Typography) : Value := .record t.toFields

def alignments : List (String × String) :=
  [("LEFT", "left"), ("RIGHT", "right"), ("CENTER", "center"), ("JUSTIFIED", "justify")]

def decorations : List (String × String) :=
  [("UNDERLINE", "underline"), ("STRIKETHROUGH", "line-through")]

def transforms : List (String × String) :=
  [("UPPER", "uppercase"), ("LOWER", "lowercase"), ("TITLE", "capitalize")]

def look (table : List (String × String)) (fields : Fields) (name : String) : Option String :=
  (fields.text? name).bind fun s => Fields.get? s table

def ofFields (fields : Fields) : Number.Result (Option Typography) := do
  if fields.isEmpty then return none
  let size := fields.nonzeroOr "fontSize" 14
  let lineHeight ← match fields.number? "lineHeightPx" with
    | some h => if h.isZero then size.mul (.fraction 12 10) else pure h
    | none => size.mul (.fraction 12 10)
  return some {
    fontFamily := .named (fields.textOr "fontFamily" "System")
    fontSize := size
    fontWeight := fields.nonzeroOr "fontWeight" 400
    lineHeight := some lineHeight
    letterSpacing := fields.nonzeroOr "letterSpacing" 0
    textAlign := (look alignments fields "textAlignHorizontal").getD "left"
    textDecoration := look decorations fields "textDecoration"
    textTransform := look transforms fields "textCase" }

end Typography

end Mockup
