import Mockup.Layout.Inference
import Mockup.Layout.Position

namespace Mockup.Layout

def placeBlock (b : Block) (children : List (Tree Block)) (parent : Option Flow)
    (parentBox : Option Box) : Number.Result Placed := do
  let layout ← infer b (children.map fun t => t.item.box) parent
  let position ← Position.of b parent parentBox
  return { b with layout, position }

mutual

def place (parent : Option Flow) (parentBox : Option Box) :
    Tree Block → Number.Result (Tree Placed)
  | .node b ts => do
    let p ← placeBlock b ts parent parentBox
    return .node p (← placeAll (some p.layout.flow) (some b.box) ts)

def placeAll (parent : Option Flow) (parentBox : Option Box) :
    List (Tree Block) → Number.Result (List (Tree Placed))
  | [] => .ok []
  | t :: ts => do
    let p ← place parent parentBox t
    return p :: (← placeAll parent parentBox ts)

end

end Mockup.Layout
