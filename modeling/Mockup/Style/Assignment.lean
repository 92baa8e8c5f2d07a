import Mockup.Element
import Mockup.Style.Registry
import Mockup.Style.Tokens

namespace Mockup

structure StyleBundle where
  styles : List (String × Style) := []
  tokens : Tokens := {}

def StyleBundle.toValue (b : StyleBundle) : Value :=
  .object [("styles", .object (b.styles.map fun s => (s.1, Value.object s.2))),
    ("tokens", b.tokens.toValue)]

namespace Style

/-- The layer with an id. Of several with one id it is the first whose children have all been
passed. -/
def layerWith? (t : Tree Placed) (id : LayerId) : Option Placed :=
  t.postorder.find? fun p => p.id == id

/-- The style of a layer as it is registered. Its digest is that of its UTF-8 form, which there is
none of with half a surrogate pair in the family. -/
def registrable (p : Placed) : Mockup.Result Style := do
  let style ← (Style.of p).lift
  if p.isSpelled then return style else throw .halfPair

def ofId (t : Tree Placed) (id : LayerId) : Mockup.Result Style :=
  match layerWith? t id with
  | some p => registrable p
  | none => .ok []

def isGiven (s : Option String) : Bool := s.any fun s => !s.isEmpty

/-- The registered name for a part of a button, which is asked for only if the part has an id and a
style. -/
def assignPart (t : Tree Placed) (r : Registry) (ref : Option String) (id : LayerId) :
    Mockup.Result (Option String × Registry) :=
  match ref, id with
  | some name, some id =>
    if name.isEmpty || id.isEmpty then .ok (ref, r)
    else do
      let (name, r) := r.register name (← ofId t (some id))
      return (some name, r)
  | _, _ => .ok (ref, r)

def assignButton (t : Tree Placed) (r : Registry) (b : ButtonElement) :
    Mockup.Result (ButtonElement × Registry) := do
  let (textStyleRef, r) ← assignPart t r b.textStyleRef b.textId
  let (iconStyleRef, r) ← assignPart t r b.iconStyleRef b.iconId
  let iconRef := if isGiven b.iconStyleRef && isGiven b.iconId then iconStyleRef else b.iconRef
  return ({ b with textStyleRef, iconStyleRef, iconRef }, r)

def assignLeaf (t : Tree Placed) (r : Registry) (styleRef : String) :
    Leaf → Mockup.Result (Leaf × Registry)
  | .icon i => .ok (.icon { i with reference := styleRef }, r)
  | .button b => do
    let (b, r) ← assignButton t r b
    return (.button b, r)
  | c => .ok (c, r)

mutual

def assign (t : Tree Placed) (r : Registry) : Element → Mockup.Result (Element × Registry)
  | .leaf i c => do
    let (styleRef, r) := r.register i.styleRef (← ofId t i.id)
    let (c, r) ← assignLeaf t r styleRef c
    return (.leaf { i with styleRef } c, r)
  | .branch i (.repeater b) l es => do
    let (styleRef, r) := r.register i.styleRef (ofRepeater l)
    let (es, r) ← assignAll t r es
    return (.branch { i with styleRef } (.repeater b) l es, r)
  | .branch i b l es => do
    let (styleRef, r) := r.register i.styleRef (← ofId t i.id)
    let (es, r) ← assignAll t r es
    return (.branch { i with styleRef } b l es, r)
  | .foreign _ v => .error (.unknownVariant v)

def assignAll (t : Tree Placed) (r : Registry) :
    List Element → Mockup.Result (List Element × Registry)
  | [] => .ok ([], r)
  | e :: es => do
    let (e, r) ← assign t r e
    let (es, r) ← assignAll t r es
    return (e :: es, r)

end

def Registry.bundle (r : Registry) (t : Tree Placed) : Mockup.Result StyleBundle := do
  return ⟨r.styles, ← (Tokens.of r.styles (some t)).lift⟩

end Style

end Mockup
