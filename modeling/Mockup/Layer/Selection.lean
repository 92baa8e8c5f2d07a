import Mockup.Layer
import Mockup.Text.Wildcard

namespace Mockup

inductive Omission where
  | hidden
  | statusBar
  | homeIndicator
  | systemComponent
  | patternMatch
  | excluded
  deriving DecidableEq

def Omission.name : Omission → String
  | .hidden => "hidden"
  | .statusBar => "status-bar"
  | .homeIndicator => "home-indicator"
  | .systemComponent => "os-component"
  | .patternMatch => "pattern-match"
  | .excluded => "excluded"

structure Selection where
  ignorePatterns : Option (List String) := none
  excludedIds : List LayerId := []

namespace Selection

def defaultPatterns : List String :=
  ["*annotation*", "*measure*", "*measurement*", "*redline*", "*spec*", "*-guide", "*_guide"]

def systemPatterns : List String :=
  ["StatusBar", "Status Bar", "_StatusBar*", "*StatusBar*", "Home Indicator", "HomeIndicator",
    "*Home Indicator*", "*HomeIndicator*", "iPhone*Overlay", "iPhone*Frame", "Device Frame",
    "Device Overlay", "Navigation Bar", "NavigationBar", "System Bar", "SystemBar",
    "*Device Chrome*", "*Safe Area*", "SafeArea"]

def matchesAny (name : String) (patterns : List String) : Bool :=
  patterns.any (Text.Wildcard.isMatch name)

def systemOmission? (name : String) : Option Omission :=
  let lowered := Text.lower name
  let has (part : String) := Text.within part lowered
  if has "status" && has "bar" then some .statusBar
  else if has "home" && has "indicator" then some .homeIndicator
  else if matchesAny name systemPatterns then some .systemComponent
  else if has "navigation" && has "bar" then some .systemComponent
  else none

def patterns (s : Selection) : List String := s.ignorePatterns.getD defaultPatterns

def omission? (s : Selection) (layer : Layer) : Option Omission :=
  if s.excludedIds.contains layer.id then some .excluded
  else if !layer.visible then some .hidden
  else match systemOmission? layer.label with
    | some o => some o
    | none => if matchesAny layer.label s.patterns then some .patternMatch else none

end Selection

/-- A layer that takes part. It has a box, and an opacity only if it is not fully opaque. -/
structure Block extends Traits where
  box : Box := {}

def Layer.toBlock (layer : Layer) : Block :=
  { layer.toTraits with
    box := layer.box.getD {}
    opacity := if layer.opacity.any (Number.eq 1) then none else layer.opacity }

mutual

/-- The tree without the layers left out; nothing when that is the root. -/
def Selection.keep? (s : Selection) : Document → Option (Tree Block)
  | .node layer ts =>
    if (s.omission? layer).isSome then none else some (.node layer.toBlock (s.keepAll ts))

def Selection.keepAll (s : Selection) : List Document → List (Tree Block)
  | [] => []
  | t :: ts =>
    match s.keep? t with
    | some b => b :: s.keepAll ts
    | none => s.keepAll ts

end

namespace Block

def isDecorated (b : Block) : Bool :=
  !b.fills.isEmpty || !b.strokes.isEmpty || !b.effects.isEmpty || b.cornerRadius.isSome ||
    b.opacity.any fun o => !o.eq 1

def isPlainGroup (b : Block) : Bool := b.isKind ["GROUP"] && !b.isDecorated

/-- A tree under a block, or the tree alone when the block is a plain group around it. -/
def wrap (b : Block) (ts : List (Tree Block)) : Tree Block :=
  match ts with
  | [t] => if b.isPlainGroup then t else .node b ts
  | _ => .node b ts

mutual

def unwrap : Tree Block → Tree Block
  | .node b ts => b.wrap (unwrapAll ts)

def unwrapAll : List (Tree Block) → List (Tree Block)
  | [] => []
  | t :: ts => unwrap t :: unwrapAll ts

end

mutual

def toValue : Tree Block → Value
  | .node b ts => .record (b.parts (some b.box) (itemValues ts))

def itemValues : List (Tree Block) → List Value
  | [] => []
  | t :: ts => toValue t :: itemValues ts

end

end Block

/-- The layers of a document that take part, without plain groups if they are to be unwrapped. -/
def Selection.apply (s : Selection) (unwrapGroups : Bool) (d : Document) : Option (Tree Block) :=
  (s.keep? d).map fun t => if unwrapGroups then Block.unwrap t else t

end Mockup
