import Mockup.Layer

namespace Mockup

inductive ChromeKind where
  | statusBar
  | homeIndicator
  | safeArea
  | navigationBar
  deriving DecidableEq

def ChromeKind.name : ChromeKind → String
  | .statusBar => "status-bar"
  | .homeIndicator => "home-indicator"
  | .safeArea => "safe-area"
  | .navigationBar => "navigation-bar"

structure Chrome where
  id : LayerId
  name : Option String
  kind : ChromeKind
  box : Box

def Chrome.toValue (c : Chrome) : Value :=
  .record [Traits.textEntry "id" c.id, Traits.textEntry "name" c.name,
    ("type", some (.text c.kind.name)), ("boundingBox", some c.box.toValue)]

structure Insets where
  top : Number := 0
  bottom : Number := 0
  left : Number := 0
  right : Number := 0
  deriving DecidableEq

def Insets.toValue (i : Insets) : Value :=
  .object [("top", .number i.top), ("bottom", .number i.bottom), ("left", .number i.left),
    ("right", .number i.right)]

structure SafeArea where
  insets : Insets := {}
  chrome : List Chrome := []
  excludedIds : List LayerId := []
  hasLayout : Bool := false

/-- Ids in ascending order, each once. A null one has no place among others. -/
def LayerId.sorted (ids : List LayerId) : Result (List LayerId) :=
  let distinct := ids.eraseDups
  if distinct = [none] then .ok distinct
  else match distinct.mapM fun id => id with
    | some texts => .ok ((texts.mergeSort fun a b => decide (a ≤ b)).map some)
    | none => .error .unorderedIds

def SafeArea.toValue (s : SafeArea) : Result Value := do
  return .object [("insets", s.insets.toValue),
    ("chromeElements", .list (s.chrome.map Chrome.toValue)),
    ("excludeIds", .list ((← LayerId.sorted s.excludedIds).map Value.ofText?)),
    ("hasSafeAreaLayout", .bool s.hasLayout)]

namespace SafeArea

def defaultScreen : Box := { width := some 375, height := some 812 }

def statusBarMinimum : Number := 18
def statusBarMaximum : Number := 64
def homeIndicatorMinimum : Number := 30
def homeIndicatorMaximum : Number := 40
def fullWidth : Number := 365
def edgeTolerance : Number := 5

def kindByName? (name : String) : Option ChromeKind :=
  let lowered := Text.lower name
  let has (part : String) := Text.within part lowered
  if has "statusbar" || (has "status" && has "bar") then some .statusBar
  else if has "homeindicator" || (has "home" && has "indicator") then some .homeIndicator
  else if has "safearea" || (has "safe" && has "area") then some .safeArea
  else if lowered = "navbar" || (has "navigation" && has "bar") then some .navigationBar
  else none

def closeTo (a b : Number) : Number.Result Bool := do
  return (← a.sub b).abs.lt edgeTolerance

def isBar (box : Box) (least most : Number) : Number.Result Bool := do
  let height ← box.extent .vertical
  if !(least.le height && height.le most) then return false
  return fullWidth.le (← box.extent .horizontal)

def looksLikeStatusBar (box screen : Box) : Number.Result Bool := do
  if ← closeTo (← box.top) (← screen.top) then isBar box statusBarMinimum statusBarMaximum
  else return false

def looksLikeHomeIndicator (box screen : Box) : Number.Result Bool := do
  if ← closeTo (← box.bottom) (← screen.bottom) then
    isBar box homeIndicatorMinimum homeIndicatorMaximum
  else return false

def kindByPlace? (box screen : Box) : Number.Result (Option ChromeKind) := do
  if ← looksLikeStatusBar box screen then return some .statusBar
  if ← looksLikeHomeIndicator box screen then return some .homeIndicator
  return none

/-- The chrome that a layer is. Only a direct child of the screen is known by its place. -/
def chromeOf? (screen : Box) (direct : Bool) (layer : Layer) : Number.Result (Option Chrome) :=
  match layer.box with
  | none => .ok none
  | some box => do
    let kind ← match kindByName? layer.label with
      | some kind => pure (some kind)
      | none => if direct then kindByPlace? box screen else pure none
    return kind.map fun kind => ⟨layer.id, layer.name, kind, box⟩

mutual

/-- The chrome in a tree. Inside chrome none is looked for. -/
def chromeIn (screen : Box) (direct : Bool) : Document → Number.Result (List Chrome)
  | .node layer ts => do
    match ← chromeOf? screen direct layer with
    | some c => return [c]
    | none => chromeInAll screen false ts

def chromeInAll (screen : Box) (direct : Bool) : List Document → Number.Result (List Chrome)
  | [] => .ok []
  | t :: ts => do
    let found ← chromeIn screen direct t
    return found ++ (← chromeInAll screen direct ts)

end

/-- The greater of an inset and a distance that counts only when it is positive. -/
def widen (inset distance : Number) : Number :=
  if Number.lt 0 distance then inset.max distance else inset

def addInsets (screen : Box) (i : Insets) (c : Chrome) : Number.Result Insets :=
  match c.kind with
  | .statusBar => do
    return { i with top := i.top.max (← (← c.box.bottom).sub (← screen.top)) }
  | .homeIndicator | .navigationBar => do
    return { i with bottom := i.bottom.max (← (← screen.bottom).sub (← c.box.top)) }
  | .safeArea => do
    let top ← (← c.box.top).sub (← screen.top)
    let left ← (← c.box.left).sub (← screen.left)
    let right ← (← screen.right).sub (← c.box.right)
    let bottom ← (← screen.bottom).sub (← c.box.bottom)
    return ⟨widen i.top top, widen i.bottom bottom, widen i.left left, widen i.right right⟩

def insetsOf (screen : Box) (chrome : List Chrome) : Number.Result Insets :=
  chrome.foldlM (addInsets screen) {}

mutual

def idsWithin (ids : List LayerId) : Document → List LayerId
  | .node layer ts =>
    if ids.contains layer.id then layer.id :: (Tree.preorderAll ts).map fun l => l.id
    else idsWithinAll ids ts

def idsWithinAll (ids : List LayerId) : List Document → List LayerId
  | [] => []
  | t :: ts => idsWithin ids t ++ idsWithinAll ids ts

end

def detect (d : Document) : Number.Result SafeArea := do
  let screen := d.item.box.getD defaultScreen
  let chrome ← chromeInAll screen true d.children
  let insets ← insetsOf screen chrome
  let excluded := idsWithinAll (chrome.map fun c => c.id) d.children
  return ⟨insets, chrome, excluded,
    !chrome.isEmpty || Number.lt 0 insets.top || Number.lt 0 insets.bottom⟩

end SafeArea

end Mockup
