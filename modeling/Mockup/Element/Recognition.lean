import Mockup.Element.Role
import Mockup.Element.Properties
import Mockup.Content

namespace Mockup.Recognition

/-- Cuts a list into runs: each run goes on as long as the items are like its first one. -/
def runsFrom {α : Type} (alike : α → α → Bool) (first : α) (run : List α) : List α → List (List α)
  | [] => [first :: run.reverse]
  | a :: rest =>
    if alike first a then runsFrom alike first (a :: run) rest
    else (first :: run.reverse) :: runsFrom alike a [] rest

def runs {α : Type} (alike : α → α → Bool) : List α → List (List α)
  | [] => []
  | a :: rest => runsFrom alike a [] rest

def baseName (p : Placed) : String := Naming.stripTrailingDigits p.label

/-- Whether two siblings are of one kind, with as many children, and share a name of more than two
characters or a component. -/
def alike (a b : Tree Placed) : Bool :=
  let name := baseName a.item
  let sameName := decide (2 < name.length) && name == baseName b.item
  let component := a.item.componentId.getD ""
  let sameComponent := !component.isEmpty && a.item.componentId == b.item.componentId
  (sameName || sameComponent) && a.item.kind == b.item.kind &&
    a.children.length == b.children.length

def runLength : List (Tree Placed) → Nat
  | [] => 0
  | t :: ts => (ts.takeWhile (alike t)).length + 1

def styleRefOf (n : Naming) (p : Placed) (children : List (Tree Placed)) : Result String :=
  n.styleRef p.label p.id p.kind (!children.isEmpty)

def styleRefOfTree (n : Naming) : Tree Placed → Result String
  | .node p ts => styleRefOf n p ts

def identityOf (n : Naming) (p : Placed) (children : List (Tree Placed)) : Result Identity := do
  return ⟨p.id, p.name, p.box, ← styleRefOf n p children⟩

def textOf (n : Naming) (p : Placed) : TextElement :=
  let text := p.text.getD ""
  let pattern := (Content.detect text).map Content.Pattern.name
  ⟨text, n.textPropName p.label pattern, some text, pattern⟩

def button (n : Naming) (p : Placed) (children : List (Tree Placed)) : Result Element := do
  let text := Role.textChild? children
  let icon ← (children.findM? Role.isIconTree).lift
  let iconRef ← icon.mapM (styleRefOfTree n)
  let identity ← identityOf n p children
  let variant ← (Role.buttonVariant p.toTraits).lift
  let textRef ← text.mapM (styleRefOfTree n)
  return .leaf identity (.button {
    label := (text.bind fun t => t.item.text).getD "Button"
    variant
    iconRef
    textId := text.bind fun t => t.item.id
    iconId := icon.bind fun t => t.item.id
    textStyleRef := textRef
    iconStyleRef := iconRef })

def longerSide (box : Box) : Number.Result Number := do
  return (← box.extent .horizontal).max (← box.extent .vertical)

/-- The properties that an instance declares. What follows a number sign in a name is an id. -/
def instanceProperties (n : Naming) (p : Placed) : List (String × Property) :=
  Fields.ofList (p.properties.filterMap fun entry =>
    let name := n.identifier (String.ofList ((Text.splitOn '#' entry.1.toList).headD []))
    let value := entry.2.value.getD .null
    match entry.2.kind with
    | .text => some (name, ⟨"string", value⟩)
    | .boolean => some (name, ⟨"boolean", value⟩)
    | _ => none)

def layoutOr (e : Element) : Layout :=
  match e with
  | .branch _ _ layout _ => layout
  | _ => { flow := .column }

def repeater (n : Naming) (p : Placed) (es : List Element) : Element :=
  let base := baseName p
  let names := n.repeaterNames base
  .branch ⟨some ("repeater_" ++ p.id.shown), some (base ++ " (Repeater)"), p.box, names.style⟩
    (.repeater ⟨names.component, names.data⟩) ((es.head?.map layoutOr).getD {}) es

def foldRun (n : Naming) : List (Tree Placed × Element) → List Element
  | [] => []
  | [(_, e)] => [e]
  | (t, e) :: rest => [repeater n t.item (e :: rest.map (·.2))]

def foldRuns (n : Naming) (ts : List (Tree Placed)) (es : List Element) : List Element :=
  (runs (fun a b => alike a.1 b.1) (ts.zip es)).flatMap (foldRun n)

mutual

def recognize (n : Naming) : Tree Placed → Result Element
  | .node p ts => do
    match ← (Role.of p ts).lift with
    | .component =>
      let es ← recognizeAll n ts
      let (properties, es) ← Element.extractProperties n es
      let properties := Fields.putAll (instanceProperties n p) properties
      let id := p.componentId.getD ""
      return .branch (← identityOf n p ts)
        (.component ⟨if id.isEmpty then "unknown" else id, n.componentName p.label, properties⟩)
        p.layout es
    | .text => return .leaf (← identityOf n p ts) (.text (textOf n p))
    | .icon =>
      let identity ← identityOf n p ts
      return .leaf identity (.icon ⟨identity.styleRef, ← (longerSide p.box).lift⟩)
    | .image =>
      return .leaf (← identityOf n p ts) (.image ⟨p.fills.findSome? Fill.image?, none⟩)
    | .button => button n p ts
    | .card =>
      return .branch (← identityOf n p ts) .card p.layout (foldRuns n ts (← recognizeAll n ts))
    | .container =>
      return .branch (← identityOf n p ts) .container p.layout
        (foldRuns n ts (← recognizeAll n ts))

def recognizeAll (n : Naming) : List (Tree Placed) → Result (List Element)
  | [] => .ok []
  | t :: ts => do
    let e ← recognize n t
    return e :: (← recognizeAll n ts)

end

end Mockup.Recognition
