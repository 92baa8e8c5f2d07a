import Mockup.Box
import Mockup.Paint
import Mockup.Tree

namespace Mockup

structure Padding where
  top : Option Number := some 0
  right : Option Number := some 0
  bottom : Option Number := some 0
  left : Option Number := some 0
  deriving DecidableEq

def Padding.toList (p : Padding) : List (Option Number) := [p.top, p.right, p.bottom, p.left]

def Padding.toValue (p : Padding) : Value :=
  .record [("top", p.top.map Value.number), ("right", p.right.map Value.number),
    ("bottom", p.bottom.map Value.number), ("left", p.left.map Value.number)]

def Axis.name : Axis → String
  | .horizontal => "horizontal"
  | .vertical => "vertical"

structure AutoLayout where
  axis : Axis := .vertical
  gap : Option Number := some 0
  padding : Padding := {}
  mainAlign : String := "MIN"
  crossAlign : String := "MIN"
  wrap : Bool := false
  deriving DecidableEq

namespace AutoLayout

def toValue (a : AutoLayout) : Value :=
  .record [("mode", some (.text a.axis.name)), ("gap", a.gap.map Value.number),
    ("padding", some a.padding.toValue), ("mainAxisAlign", some (.text a.mainAlign)),
    ("crossAxisAlign", some (.text a.crossAlign)), ("wrap", some (.bool a.wrap))]

def ofFields (fields : Fields) : Option AutoLayout :=
  let mode := fields.textOr "layoutMode" "NONE"
  if mode = "NONE" then none
  else some {
    axis := if mode = "HORIZONTAL" then .horizontal else .vertical
    gap := fields.numberOr? "itemSpacing" 0
    padding := ⟨fields.numberOr? "paddingTop" 0, fields.numberOr? "paddingRight" 0,
      fields.numberOr? "paddingBottom" 0, fields.numberOr? "paddingLeft" 0⟩
    mainAlign := fields.textOr "primaryAxisAlignItems" "MIN"
    crossAlign := fields.textOr "counterAxisAlignItems" "MIN"
    wrap := fields.text? "layoutWrap" = some "WRAP" }

end AutoLayout

structure Constraints where
  horizontal : Option String := some "LEFT"
  vertical : Option String := some "TOP"
  deriving DecidableEq

namespace Constraints

def toValue (c : Constraints) : Value :=
  .record [("horizontal", c.horizontal.map Value.text), ("vertical", c.vertical.map Value.text)]

def ofFields (fields : Fields) : Option Constraints :=
  if fields.isEmpty then none
  else some ⟨fields.textOr? "horizontal" "LEFT", fields.textOr? "vertical" "TOP"⟩

end Constraints

inductive PropertyKind where
  | variant
  | text
  | boolean
  | instanceSwap
  deriving DecidableEq

namespace PropertyKind

def name : PropertyKind → String
  | .variant => "VARIANT"
  | .text => "TEXT"
  | .boolean => "BOOLEAN"
  | .instanceSwap => "INSTANCE_SWAP"

def ofName : Option String → PropertyKind
  | some "VARIANT" => .variant
  | some "BOOLEAN" => .boolean
  | some "INSTANCE_SWAP" => .instanceSwap
  | _ => .text

end PropertyKind

structure ComponentProperty where
  kind : PropertyKind := .text
  value : Option Value := none
  options : Option (List String) := none

namespace ComponentProperty

def toValue (p : ComponentProperty) : Value :=
  .record [("type", some (.text p.kind.name)), ("value", p.value),
    ("options", p.options.map Value.texts)]

def ofFields (fields : Fields) : ComponentProperty where
  kind := .ofName (fields.text? "type")
  value := match Fields.get? "defaultValue" fields with
    | none => some (.text "")
    | some .null => none
    | some v => some v
  options := match Fields.get? "variantOptions" fields with
    | some (.list items) => some (items.filterMap Value.text?)
    | _ => none

end ComponentProperty

/-- The id of a layer. It may be null, which is an id like any other. -/
abbrev LayerId := Option String

namespace LayerId

/-- The id that a value is; no value but a text and null is one. -/
def ofValue? : Value → Option LayerId
  | .text s => some (some s)
  | .null => some none
  | _ => none

def shown (id : LayerId) : String := id.getD "None"

end LayerId

structure Traits where
  id : LayerId
  name : Option String
  kind : Option String
  fills : List Fill := []
  strokes : List Stroke := []
  effects : List Effect := []
  cornerRadius : Option CornerRadius := none
  opacity : Option Number := none
  text : Option String := none
  typography : Option Typography := none
  autoLayout : Option AutoLayout := none
  primarySizing : Option String := none
  counterSizing : Option String := none
  layoutAlign : Option String := none
  layoutGrow : Option Number := none
  positioning : Option String := none
  constraints : Option Constraints := none
  overflowDirection : Option String := none
  componentId : Option String := none
  properties : List (String × ComponentProperty) := []

namespace Traits

def label (t : Traits) : String := t.name.getD ""

def isKind (t : Traits) (kinds : List String) : Bool := t.kind.any fun k => kinds.contains k

def isSpelled (t : Traits) : Bool := t.typography.all fun type => type.fontFamily.isSpelled

def textEntry (name : String) (s : Option String) : String × Option Value := (name, s.map .text)

/-- The parts of a written layer, all but those that only some kinds of layer have. -/
def parts (t : Traits) (box : Option Box) (children : List Value) : List (String × Option Value) :=
  [textEntry "id" t.id, textEntry "name" t.name, textEntry "type" t.kind,
    ("boundingBox", box.map Box.toValue), ("children", some (.list children)),
    ("fills", some (.list (t.fills.map Fill.toValue))),
    ("strokes", some (.list (t.strokes.map Stroke.toValue))),
    ("effects", some (.list (t.effects.map Effect.toValue))),
    ("cornerRadius", t.cornerRadius.map CornerRadius.toValue),
    ("opacity", t.opacity.map Value.number), textEntry "text" t.text,
    ("typography", t.typography.map Typography.toValue),
    ("autoLayout", t.autoLayout.map AutoLayout.toValue),
    textEntry "primaryAxisSizingMode" t.primarySizing,
    textEntry "counterAxisSizingMode" t.counterSizing, textEntry "layoutAlign" t.layoutAlign,
    ("layoutGrow", t.layoutGrow.map Value.number),
    textEntry "layoutPositioning" t.positioning,
    ("constraints", t.constraints.map Constraints.toValue),
    textEntry "overflowDirection" t.overflowDirection, textEntry "componentId" t.componentId,
    ("componentProperties",
      some (.object (t.properties.map fun p => (p.1, p.2.toValue))))]

def ofFields (fields : Fields) : Result Traits := do
  return {
    id := fields.textOr? "id" ""
    name := fields.textOr? "name" "Unnamed"
    kind := fields.textOr? "type" "FRAME"
    fills := ← Fill.ofItems (fields.items "fills")
    strokes := ← Stroke.ofLayer fields
    effects := ← Effect.ofItems (fields.items "effects")
    cornerRadius := CornerRadius.ofFields fields
    opacity := fields.number? "opacity"
    text := fields.text? "characters"
    typography := ← (Typography.ofFields (fields.nested "style")).lift
    autoLayout := AutoLayout.ofFields fields
    primarySizing := fields.text? "primaryAxisSizingMode"
    counterSizing := fields.text? "counterAxisSizingMode"
    layoutAlign := fields.text? "layoutAlign"
    layoutGrow := fields.number? "layoutGrow"
    positioning := fields.text? "layoutPositioning"
    constraints := Constraints.ofFields (fields.nested "constraints")
    overflowDirection := fields.text? "overflowDirection"
    componentId := fields.text? "componentId"
    properties := ← (fields.nested "componentPropertyDefinitions").mapM fun p => do
      return (p.1, ComponentProperty.ofFields (← p.2.objectFields)) }

end Traits

structure Layer extends Traits where
  box : Option Box := none
  visible : Bool := true

abbrev Document := Tree Layer

/-- Only a layer that says so is hidden. A box without any entry is no box. -/
def Layer.ofFields (fields : Fields) : Result Layer := do
  let traits ← Traits.ofFields fields
  let box := fields.nested "absoluteBoundingBox"
  return { traits with
    box := if box.isEmpty then none else some (Box.ofFields box)
    visible := !fields.isFalse "visible" }

namespace Document

mutual

def ofValue : Value → Result Document
  | .object fields => do
    let layer ← Layer.ofFields fields
    return .node layer (← childrenOf fields)
  | _ => .error .notAnObject

def childrenOf : Fields → Result (List Document)
  | [] => .ok []
  | (name, v) :: rest =>
    if name = "children" then
      match v with
      | .list items => ofItems items
      | _ => .ok []
    else childrenOf rest

def ofItems : List Value → Result (List Document)
  | [] => .ok []
  | v :: rest => do
    let t ← ofValue v
    return t :: (← ofItems rest)

end

mutual

def toValue : Document → Value
  | .node layer children =>
    .record (layer.parts layer.box (itemValues children) ++
      [("visible", some (.bool layer.visible))])

def itemValues : List Document → List Value
  | [] => []
  | t :: ts => toValue t :: itemValues ts

end

end Document

end Mockup
