import Mockup.Layout
import Mockup.Fault

namespace Mockup

structure Identity where
  id : LayerId
  name : Option String := some ""
  box : Box := {}
  styleRef : String := ""

def Identity.label (i : Identity) : String := i.name.getD ""

structure TextElement where
  text : String := ""
  propName : Option String := none
  defaultValue : Option String := none
  pattern : Option String := none

structure ImageElement where
  reference : Option String := none
  propName : Option String := none

structure IconElement where
  reference : String := ""
  size : Number := 0

structure ButtonElement where
  label : String := "Button"
  variant : String := "primary"
  iconRef : Option String := none
  textId : LayerId := none
  iconId : LayerId := none
  textStyleRef : Option String := none
  iconStyleRef : Option String := none

inductive Leaf where
  | text (t : TextElement)
  | image (i : ImageElement)
  | icon (i : IconElement)
  | button (b : ButtonElement)

structure Property where
  kind : String
  value : Value

structure ComponentElement where
  id : String := "unknown"
  name : String := "Component"
  properties : List (String × Property) := []

structure RepeaterElement where
  itemName : String := "Item"
  dataName : String := "ITEM_DATA"

inductive Branch where
  | container
  | card
  | component (c : ComponentElement)
  | repeater (r : RepeaterElement)

/-- An element of the closed set of variants, or one of a foreign variant, whose children nobody
knows. -/
inductive Element where
  | leaf (identity : Identity) (content : Leaf)
  | branch (identity : Identity) (role : Branch) (layout : Layout) (children : List Element)
  | foreign (identity : Identity) (variant : String)

def Leaf.variant : Leaf → String
  | .text _ => "Text"
  | .image _ => "Image"
  | .icon _ => "Icon"
  | .button _ => "Button"

def Branch.variant : Branch → String
  | .container => "Container"
  | .card => "Card"
  | .component _ => "Component"
  | .repeater _ => "Repeater"

/-- Containers and cards are the branches that group elements without a meaning of their own. -/
def Branch.isGroup : Branch → Bool
  | .container | .card => true
  | _ => false

namespace Element

instance : Inhabited Element := ⟨foreign ⟨none, none, {}, ""⟩ ""⟩

def identity : Element → Identity
  | leaf i _ | branch i _ _ _ | foreign i _ => i

def id (e : Element) : LayerId := e.identity.id

def box (e : Element) : Box := e.identity.box

def variant : Element → String
  | leaf _ c => c.variant
  | branch _ r _ _ => r.variant
  | foreign _ v => v

/-- The children of an element; a leaf has none. -/
def children : Element → Result (List Element)
  | leaf .. => .ok []
  | branch _ _ _ es => .ok es
  | foreign _ v => .error (.unknownVariant v)

mutual

def preorder : Element → Result (List Element)
  | e@(leaf ..) => .ok [e]
  | e@(branch _ _ _ es) => do return e :: (← preorderAll es)
  | foreign _ v => .error (.unknownVariant v)

def preorderAll : List Element → Result (List Element)
  | [] => .ok []
  | e :: es => do
    let below ← preorder e
    return below ++ (← preorderAll es)

end

def propertyValue (p : Property) : Value :=
  .object [("type", .text p.kind), ("value", p.value), ("defaultValue", p.value)]

def leafParts : Leaf → List (String × Option Value)
  | .text t => [("text", some (.text t.text)), Traits.textEntry "propName" t.propName,
      Traits.textEntry "defaultValue" t.defaultValue, Traits.textEntry "contentPattern" t.pattern]
  | .image i => [Traits.textEntry "imageRef" i.reference, Traits.textEntry "propName" i.propName]
  | .icon i => [("iconRef", some (.text i.reference)), ("size", some (.number i.size))]
  | .button b => [("label", some (.text b.label)), ("variant", some (.text b.variant)),
      Traits.textEntry "iconRef" b.iconRef, Traits.textEntry "textId" b.textId,
      Traits.textEntry "iconId" b.iconId, Traits.textEntry "textStyleRef" b.textStyleRef,
      Traits.textEntry "iconStyleRef" b.iconStyleRef]

def branchParts : Branch → List (String × Option Value)
  | .container | .card => []
  | .component c => [("componentId", some (.text c.id)), ("componentName", some (.text c.name)),
      ("props", some (.object (c.properties.map fun p => (p.1, propertyValue p.2))))]
  | .repeater r => [("itemComponentName", some (.text r.itemName)),
      ("dataPropName", some (.text r.dataName))]

def identityParts (variant : String) (i : Identity) : List (String × Option Value) :=
  [("semanticType", some (.text variant)), Traits.textEntry "id" i.id,
    Traits.textEntry "name" i.name, ("boundingBox", some i.box.toValue),
    ("styleRef", some (.text i.styleRef))]

mutual

def toValue : Element → Value
  | leaf i c => .record (identityParts c.variant i ++ leafParts c)
  | branch i r l es => .record (identityParts r.variant i ++ branchParts r ++
      [("layout", some l.toValue), ("children", some (.list (itemValues es)))])
  | foreign i v => .record (identityParts v i)

def itemValues : List Element → List Value
  | [] => []
  | e :: es => toValue e :: itemValues es

end

end Element

end Mockup
