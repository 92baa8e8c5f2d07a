import Mockup.Element
import Mockup.Naming
import Mockup.Naming.Fresh

namespace Mockup.Element

/-- Properties so far, and the names given to the layers seen so far. -/
structure PropertyTable where
  properties : List (String × Property) := []
  named : List ((String × String × String) × String) := []

namespace PropertyTable

def lookup (key : String × String × String) :
    List ((String × String × String) × String) → Option String
  | [] => none
  | (k, name) :: rest => if k = key then some name else lookup key rest

/-- Whether a name is not yet that of a property with another value. -/
def isFree (properties : List (String × Property)) (value name : String) : Bool :=
  match Fields.get? name properties with
  | none => true
  | some p => p.value.text? == some value

def numbered (base : String) (i : Nat) : String :=
  if i = 0 then base else base ++ String.ofList (Number.numeral i)

def register (t : PropertyTable) (layerName kind value base : String) : String × PropertyTable :=
  match lookup (layerName, kind, value) t.named with
  | some name => (name, t)
  | none =>
    let name := Naming.firstFree (numbered base) (isFree t.properties value) t.properties.length
    let properties :=
      if Fields.has t.properties name then t.properties
      else Fields.put t.properties name ⟨kind, .text value⟩
    (name, ⟨properties, ((layerName, kind, value), name) :: t.named⟩)

end PropertyTable

def textPropertyName (n : Naming) (layerName : String) : String :=
  let lowered := Text.lower layerName
  let has (part : String) := Text.within part lowered
  if has "title" || lowered = "header" || lowered = "headline" then "title"
  else if has "description" || has "subtitle" || has "body" then "description"
  else if lowered = "label" || lowered = "placeholder" then lowered
  else if has "price" then "price"
  else if has "date" || has "time" then "dateTime"
  else n.identifier layerName

def nameOr (i : Identity) (fallback : String) : String :=
  if i.label.isEmpty then fallback else i.label

def linkLeaf (n : Naming) (i : Identity) (t : PropertyTable) : Leaf → Leaf × PropertyTable
  | .text c =>
    if c.text.isEmpty then (.text c, t)
    else
      let name := nameOr i "text"
      let (final, t) := t.register name "string" c.text (textPropertyName n name)
      (.text { c with propName := some final }, t)
  | .image c =>
    let name := nameOr i "image"
    let (final, t) := t.register name "image" (c.reference.getD "") (n.identifier name)
    (.image { c with propName := some final }, t)
  | c => (c, t)

mutual

/-- Names the properties of the texts and images of a tree. Repeaters are not entered. -/
def link (n : Naming) (t : PropertyTable) : Element → Result (Element × PropertyTable)
  | leaf i c =>
    let (c, t) := linkLeaf n i t c
    .ok (leaf i c, t)
  | branch i (.repeater r) l es => .ok (branch i (.repeater r) l es, t)
  | branch i r l es => do
    let (es, t) ← linkAll n t es
    return (branch i r l es, t)
  | foreign _ v => .error (.unknownVariant v)

def linkAll (n : Naming) (t : PropertyTable) : List Element → Result (List Element × PropertyTable)
  | [] => .ok ([], t)
  | e :: es => do
    let (e, t) ← link n t e
    let (es, t) ← linkAll n t es
    return (e :: es, t)

end

def extractProperties (n : Naming) (es : List Element) :
    Result (List (String × Property) × List Element) := do
  let (es, t) ← linkAll n {} es
  return (t.properties, es)

def propName? : Element → Option String
  | leaf _ (.text t) => t.propName
  | leaf _ (.image i) => i.propName
  | _ => none

end Mockup.Element
