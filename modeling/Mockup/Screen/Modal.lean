import Mockup.Layer

namespace Mockup

inductive SheetKind where
  | bottom
  | top
  deriving DecidableEq

def SheetKind.name : SheetKind → String
  | .bottom => "bottom-sheet"
  | .top => "top-sheet"

structure Modal where
  kind : SheetKind
  overlayId : LayerId
  contentId : LayerId
  contentName : Option String
  backgroundIds : List LayerId

def Modal.toValue : Option Modal → Value
  | none => .object [("hasModalOverlay", .bool false), ("backgroundIds", .list [])]
  | some m => .record [("hasModalOverlay", some (.bool true)),
      ("modalType", some (.text m.kind.name)), Traits.textEntry "overlayId" m.overlayId,
      Traits.textEntry "contentId" m.contentId, Traits.textEntry "contentName" m.contentName,
      ("backgroundIds", some (.list (m.backgroundIds.map Value.ofText?)))]

namespace Modal

def coverTolerance : Number := 2
def edgeTolerance : Number := 5
def minimumHeight : Number := 50
def scrimMinimum : Number := .fraction 1 10
def scrimMaximum : Number := .fraction 8 10

def sheetWords : List String := ["sheet", "modal", "bottom", "drawer", "overlay"]

def near (tolerance a b : Number) : Number.Result Bool := do
  return (← a.sub b).abs.le tolerance

def isScrimFill (f : Fill) : Number.Result Bool :=
  match f.solid?, f.opacity with
  | none, _ => .ok false
  | some _, none => .error .missing
  | some c, some o => do
    let alpha ← o.mul (← Number.known c.alpha)
    return scrimMinimum.lt alpha && alpha.lt scrimMaximum

/-- Whether two boxes extend about as far along an axis. -/
def alike (axis : Axis) (a b : Box) : Number.Result Bool := do
  near coverTolerance (← a.extent axis) (← b.extent axis)

def coversParent (layer parent : Layer) : Number.Result Bool :=
  match layer.box, parent.box with
  | some a, some b => do
    if ← alike .horizontal a b then alike .vertical a b else return false
  | _, _ => .ok false

def alignsBottom (layer parent : Layer) : Number.Result Bool :=
  match layer.box, parent.box with
  | some a, some b => do near edgeTolerance (← a.bottom) (← b.bottom)
  | _, _ => .ok false

def alignsTop (layer parent : Layer) : Number.Result Bool :=
  match layer.box, parent.box with
  | some a, some b => do near edgeTolerance (← a.top) (← b.top)
  | _, _ => .ok false

def corners? (layer : Layer) : Option Corners := layer.cornerRadius.bind CornerRadius.corners?

def isSharp (radius : Option Number) : Bool := radius.any Number.isZero

/-- Whether both of two radii are positive. The second one counts only if the first one is. -/
def areRound (a b : Option Number) : Number.Result Bool := do
  if Number.lt 0 (← Number.known a) then return Number.lt 0 (← Number.known b) else return false

def hasTopCorners (c : Corners) : Number.Result Bool := do
  return (← areRound c.topLeft c.topRight) && isSharp c.bottomRight && isSharp c.bottomLeft

def hasBottomCorners (c : Corners) : Number.Result Bool :=
  if isSharp c.topLeft && isSharp c.topRight then areRound c.bottomRight c.bottomLeft
  else .ok false

def cornersPass (test : Corners → Number.Result Bool) (layer : Layer) : Number.Result Bool :=
  match corners? layer with
  | some c => test c
  | none => .ok false

def hasSheetName (layer : Layer) : Bool :=
  sheetWords.any fun word => Text.within word (Text.lower layer.label)

/-- The kind of sheet that a layer is in its parent: pinned to an edge with the corners away from it
rounded, or pinned to an edge and named for a sheet. -/
def sheetKind? (layer parent : Layer) : Number.Result (Option SheetKind) := do
  if ← cornersPass hasTopCorners layer then
    if ← alignsBottom layer parent then return some .bottom
  if ← cornersPass hasBottomCorners layer then
    if ← alignsTop layer parent then return some .top
  if hasSheetName layer then
    if ← alignsBottom layer parent then return some .bottom
    if ← alignsTop layer parent then return some .top
  return none

def isTallEnough (layer : Layer) : Number.Result Bool :=
  match layer.box with
  | some b => do return !(← b.extent .vertical).lt minimumHeight
  | none => .ok false

mutual

def sheetIn? (parent : Layer) : Document → Number.Result (Option (Layer × SheetKind))
  | .node layer ts => do
    if !(← isTallEnough layer) then return none
    match ← sheetKind? layer parent with
    | some kind => return some (layer, kind)
    | none => sheetInAny? layer ts

def sheetInAny? (parent : Layer) : List Document → Number.Result (Option (Layer × SheetKind))
  | [] => .ok none
  | t :: ts => do
    match ← sheetIn? parent t with
    | some found => return some found
    | none => sheetInAny? parent ts

end

def isScrim (layer screen : Layer) : Number.Result Bool := do
  if !layer.isKind ["FRAME", "GROUP"] then return false
  if !(← coversParent layer screen) then return false
  layer.fills.anyM isScrimFill

def idsOutside (children : List Document) (overlayId : LayerId) : List LayerId :=
  (children.filter fun t => t.item.id != overlayId).flatMap fun t => t.preorder.map fun l => l.id

def inScrim? (screen : Layer) (t : Document) : Number.Result (Option (Layer × SheetKind)) := do
  if ← isScrim t.item screen then sheetInAny? t.item t.children else return none

def among? (screen : Layer) (all : List Document) :
    List Document → Number.Result (Option Modal)
  | [] => .ok none
  | t :: ts => do
    match ← inScrim? screen t with
    | some (content, kind) =>
      let id := t.item.id
      return some ⟨kind, id, content.id, content.name, idsOutside all id⟩
    | none => among? screen all ts

def detect? (d : Document) : Number.Result (Option Modal) := among? d.item d.children d.children

def contentWith? (d : Document) (id : LayerId) : Option Document :=
  d.subtrees.find? fun t => t.item.id == id

end Modal

end Mockup
