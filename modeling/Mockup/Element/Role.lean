import Mockup.Element
import Mockup.Layout.Placement
import Mockup.Naming

namespace Mockup

inductive Role where
  | component
  | text
  | icon
  | image
  | button
  | card
  | container
  deriving DecidableEq

namespace Role

def iconMinimum : Number := 8
def iconMaximum : Number := 48
def buttonMaximumHeight : Number := 80
def buttonMinimumWidth : Number := 40
def smallButtonWidth : Number := 60
def cardMinimum : Number := 60

def vectorKinds : List String :=
  ["VECTOR", "BOOLEAN_OPERATION", "STAR", "ELLIPSE", "REGULAR_POLYGON", "LINE"]

def iconPartKinds : List String :=
  ["VECTOR", "BOOLEAN_OPERATION", "LINE", "ELLIPSE", "REGULAR_POLYGON"]

def groupKinds : List String := ["FRAME", "GROUP"]

def isComponent (t : Traits) : Bool := t.isKind ["INSTANCE", "COMPONENT"]

def isText (t : Traits) : Bool := t.isKind ["TEXT"] && t.text.any fun s => !s.isEmpty

def isImage (t : Traits) : Bool := t.fills.any Fill.isImage || t.isKind vectorKinds

def hasIconShape (box : Box) : Number.Result Bool := do
  let width ← box.extent .horizontal
  if iconMaximum.lt width then return false
  let height ← box.extent .vertical
  if iconMaximum.lt height || width.lt iconMinimum || height.lt iconMinimum then return false
  let aspect ← width.div height
  return !(aspect.lt (.fraction 1 2) || Number.lt 2 aspect)

def isIcon (p : Placed) (children : List (Tree Placed)) : Number.Result Bool :=
  if !p.isKind groupKinds && !isImage p.toTraits then .ok false
  else do
    if !(← hasIconShape p.box) then return false
    return isImage p.toTraits || (!children.isEmpty &&
      children.all fun t => t.item.isKind iconPartKinds)

def isIconTree : Tree Placed → Number.Result Bool
  | .node p ts => isIcon p ts

def textChild? (children : List (Tree Placed)) : Option (Tree Placed) :=
  children.find? fun t => isText t.item.toTraits

def isButtonName (name : String) : Bool :=
  Text.anyTail (fun cs => !(Naming.afterAny ["button", "btn"] cs).isEmpty) name.toList

/-- A low filled shape. A narrow one has to be almost square. -/
def hasButtonShape (box : Box) : Number.Result Bool := do
  let width ← box.extent .horizontal
  let height ← box.extent .vertical
  if width.lt buttonMinimumWidth || height.le 0 then return false
  let aspect ← width.div height
  return !(aspect.lt (.fraction 3 2) && width.lt smallButtonWidth &&
    (aspect.lt (.fraction 8 10) || (Number.fraction 12 10).lt aspect))

def isButton (p : Placed) (children : List (Tree Placed)) : Number.Result Bool := do
  if (textChild? children).isNone then return false
  if buttonMaximumHeight.lt (← p.box.extent .vertical) then return false
  if isButtonName p.label then return true
  if !p.fills.any Fill.isSolid then return false
  hasButtonShape p.box

def isCard (p : Placed) (children : List (Tree Placed)) : Number.Result Bool := do
  let treatments := [p.cornerRadius.any CornerRadius.isRounded, p.effects.any Effect.isDropShadow,
    !p.fills.isEmpty]
  if children.isEmpty || treatments.countP (fun b => b) < 2 then return false
  if !cardMinimum.le (← p.box.extent .horizontal) then return false
  return cardMinimum.le (← p.box.extent .vertical)

def of (p : Placed) (children : List (Tree Placed)) : Number.Result Role := do
  if isComponent p.toTraits then return .component
  if isText p.toTraits then return .text
  if ← isIcon p children then return .icon
  if isImage p.toTraits then return .image
  if ← isButton p children then return .button
  if ← isCard p children then return .card
  return .container

end Role

namespace Fill

/-- Whether a fill is solid with an opacity that passes a test. The opacity has to be given. -/
def isSolidWith (test : Number → Bool) (f : Fill) : Number.Result Bool :=
  if f.isSolid then
    match f.opacity with
    | some o => .ok (test o)
    | none => .error .missing
  else .ok false

end Fill

/-- How a button is drawn: with an outline alone, with next to nothing, or filled. -/
def Role.buttonVariant (t : Traits) : Number.Result String := do
  let filled ← t.fills.anyM (Fill.isSolidWith fun o => (Number.fraction 1 10).lt o)
  if !t.strokes.isEmpty && !filled then return "outline"
  if ← t.fills.anyM (Fill.isSolidWith fun o => o.lt (.fraction 2 10)) then return "ghost"
  return "primary"

end Mockup
