import Mockup.Layer

namespace Mockup

structure VariantProperty where
  name : String
  values : List String
  default : Value

def VariantProperty.toValue (p : VariantProperty) : Value :=
  .object [("name", .text p.name), ("values", Value.texts p.values), ("defaultValue", p.default)]

inductive Interaction where
  | default
  | pressed
  | disabled
  | loading
  | error
  | hover
  | focused
  deriving DecidableEq

def Interaction.name : Interaction → String
  | .default => "default"
  | .pressed => "pressed"
  | .disabled => "disabled"
  | .loading => "loading"
  | .error => "error"
  | .hover => "hover"
  | .focused => "focused"

structure StateStyle where
  state : Interaction
  overrides : Fields := []
  hasIndicator : Bool := false

def StateStyle.toValue (s : StateStyle) : Value :=
  .object [("state", .text s.state.name), ("styleOverrides", .object s.overrides),
    ("hasIndicator", .bool s.hasIndicator)]

structure Variants where
  isComponentSet : Bool := false
  properties : List VariantProperty := []
  states : List StateStyle := []

def Variants.toValue (v : Variants) : Value :=
  .object [("isComponentSet", .bool v.isComponentSet),
    ("variants", .list (v.properties.map VariantProperty.toValue)),
    ("states", .list (v.states.map StateStyle.toValue))]

namespace Variants

/-- A part `property=value` of a variant name. The value is on one line and not empty. -/
def parsePart? (part : List Char) : Option (String × String) :=
  let cs := Text.trimChars part
  match cs.dropWhile (· != '=') with
  | '=' :: value =>
    let name := cs.takeWhile (· != '=')
    if name.isEmpty || value.isEmpty || value.contains '\n' then none
    else some (String.ofList (Text.trimChars name), String.ofList (Text.trimChars value))
  | _ => none

def parseName (name : String) : List (String × String) :=
  Fields.ofList ((Text.splitOn ',' name.toList).filterMap parsePart?)

def addValue (table : List (String × List String)) (entry : String × String) :
    List (String × List String) :=
  Fields.put table entry.1 ((Fields.get? entry.1 table).getD [] ++ [entry.2])

def propertyOf (entry : String × List String) : VariantProperty :=
  let values := entry.2.eraseDups.mergeSort fun a b => decide (a ≤ b)
  ⟨entry.1, values, (values.head?.map Value.text).getD .null⟩

def components (children : List Document) : List Layer :=
  (children.map Tree.item).filter fun l => l.isKind ["COMPONENT"]

def ofChildren (children : List Document) : List VariantProperty :=
  let entries := (components children).flatMap fun l => parseName l.label
  (entries.foldl addValue []).map propertyOf

def ofDefinitions (definitions : List (String × ComponentProperty)) : List VariantProperty :=
  definitions.filterMap fun d =>
    match d.2.kind, d.2.options with
    | .variant, some (first :: rest) =>
      let value := d.2.value.getD .null
      some ⟨d.1, first :: rest, if value.isVacant then .text first else value⟩
    | _, _ => none

def plainKey (s : String) : String :=
  String.ofList ((Text.lowerChars s.toList).filter fun c => c.isLower || c.isDigit)

def statePropertyNames : List String := ["state", "variant", "status"]

def interactionOf? (property value : String) : Option Interaction :=
  if !statePropertyNames.contains (plainKey property) then none
  else
    let v := plainKey value
    let has (part : String) := Text.within part v
    if has "press" || v = "active" then some .pressed
    else if has "disable" then some .disabled
    else if has "load" then some .loading
    else if has "error" || has "invalid" then some .error
    else if has "hover" then some .hover
    else if has "focus" then some .focused
    else if has "default" || has "normal" || v = "idle" then some .default
    else none

def indicatorWords : List String :=
  ["spinner", "loader", "loading", "error", "alert", "warning", "check", "success"]

def disabledOpacity : Number := .fraction 6 10

def alphaText (alpha : Number) : Number.Result (List Char) := do
  let x ← alpha.toReal
  return (if x.isInteger then alpha.normalize else alpha).text .plain

def rgbaText (c : Color) : Number.Result String := do
  let parts := [Number.intText c.red, Number.intText c.green, Number.intText c.blue,
    ← alphaText (← Number.known c.alpha)]
  return String.ofList ("rgba(".toList ++ (", ".toList).intercalate parts ++ [')'])

def firstColor? (fills : List Fill) : Option Color := fills.head?.bind Fill.solid?

def isIndicator (layer : Layer) : Bool :=
  indicatorWords.any fun word => Text.within word (plainKey layer.label)

def analyze (layer : Layer) (children : List Document) : Number.Result (Fields × Bool) := do
  let faded := layer.opacity.filter fun o => o.lt 1
  let background ← (firstColor? layer.fills).mapM rgbaText
  let overrides := [("opacity", faded.map Value.number),
    ("display", if layer.visible then none else some (.text "none")),
    ("backgroundColor", background.map Value.text)].filterMap
      fun part => part.2.map fun v => (part.1, v)
  return (overrides, faded.any (fun o => o.le disabledOpacity) ||
    children.any fun t => isIndicator t.item)

def findState (states : List StateStyle) (s : Interaction) : Option StateStyle :=
  states.find? fun style => style.state = s

def addState (states : List StateStyle) (s : Interaction) : List StateStyle :=
  if (findState states s).isSome then states else states ++ [{ state := s }]

def merge (style : StateStyle) (overrides : Fields) (hasIndicator : Bool) : StateStyle :=
  { style with
    overrides := Fields.putAll style.overrides overrides
    hasIndicator := style.hasIndicator || hasIndicator }

def mergeState (states : List StateStyle) (s : Interaction) (overrides : Fields)
    (hasIndicator : Bool) : List StateStyle :=
  (addState states s).map fun style =>
    if style.state = s then merge style overrides hasIndicator else style

def stateOf? (layer : Layer) : Option Interaction :=
  (parseName layer.label).findSome? fun p => interactionOf? p.1 p.2

def addComponent (states : List StateStyle) (t : Document) : Number.Result (List StateStyle) :=
  match if t.item.isKind ["COMPONENT"] then stateOf? t.item else none with
  | none => .ok states
  | some s => do
    let (overrides, hasIndicator) ← analyze t.item t.children
    return mergeState states s overrides hasIndicator

/-- The states that the values of the properties name, and the looks of the components that show
them. The default state is always there. -/
def statesOf (children : List Document) (properties : List VariantProperty) :
    Number.Result (List StateStyle) :=
  let named := properties.flatMap fun p => p.values.filterMap (interactionOf? p.name)
  children.foldlM addComponent (named.foldl addState [{ state := .default }])

def detect : Document → Number.Result Variants
  | .node layer children => do
    let isSet := layer.isKind ["COMPONENT_SET"]
    let properties :=
      if isSet && !children.isEmpty then ofChildren children else ofDefinitions layer.properties
    return ⟨isSet, properties, ← statesOf children properties⟩

end Variants

end Mockup
