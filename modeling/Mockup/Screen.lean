import Mockup.Element.Recognition
import Mockup.Style.Assignment
import Mockup.Pattern.Listing
import Mockup.Pattern.Repetition
import Mockup.Screen.Modal
import Mockup.Screen.Chrome
import Mockup.Screen.Variants
import Mockup.Value.Writer

namespace Mockup

structure Options where
  ignorePatterns : Option (List String) := none
  /-- what is wrong with a pattern after these -/
  patternFault : Option Fault := none
  excludedIds : List LayerId := []
  unwrapGroups : Bool := true
  detectSafeArea : Bool := true
  detectModal : Bool := true
  naming : Naming := {}

/-- What was noticed on a screen. What was not looked for is absent. -/
structure Detection where
  listings : List Listing := []
  repetitions : List Repetition := []
  modal : Option (Option Modal) := none
  variants : Option Variants := none
  safeArea : Option SafeArea := none

def Detection.toValue (d : Detection) : Result Value := do
  let safeArea ← d.safeArea.mapM SafeArea.toValue
  return .record [("lists", some (.list (d.listings.map Listing.toValue))),
    ("components", some (.list (d.repetitions.map Repetition.toValue))),
    ("modal", d.modal.map Modal.toValue), ("variants", d.variants.map Variants.toValue),
    ("safeArea", safeArea)]

structure Screen where
  id : LayerId
  name : Option String
  root : Element
  bundle : StyleBundle
  detection : Detection

namespace Screen

def insets? (s : Screen) : Option Insets := s.detection.safeArea.map SafeArea.insets

def hasSafeArea (s : Screen) : Bool := s.detection.safeArea.any SafeArea.hasLayout

def toValue (s : Screen) : Result Value := do
  return .record [("id", some (Value.ofText? s.id)), ("name", some (Value.ofText? s.name)),
    ("root", some s.root.toValue), ("stylesBundle", some s.bundle.toValue),
    ("detection", some (← s.detection.toValue)), ("hasSafeAreaLayout", some (.bool s.hasSafeArea)),
    ("safeAreaInsets", s.insets?.map Insets.toValue)]

def emptyStyleRef : String := "style_empty"

def placeholder (root : Layer) : Element × StyleBundle :=
  (.branch ⟨root.id, root.name, {}, emptyStyleRef⟩ .container { flow := .column } [],
    ⟨[(emptyStyleRef, [])], {}⟩)

def lowerTree (n : Naming) (t : Tree Block) : Result (Element × StyleBundle × Detection) := do
  let placed ← (Layout.place none none t).lift
  let e ← Recognition.recognize n placed
  let (e, registry) ← Style.assign placed {} e
  let bundle ← registry.bundle placed
  let listings ← Listing.detect e
  let repetitions ← Repetition.detect e
  return (e, bundle, { listings, repetitions })

/-- The part of a document that becomes the screen: the content of a modal sheet, or all of it. -/
def effectiveRoot (d : Document) (modal : Option (Option Modal)) : Document :=
  match modal with
  | some (some m) => (Modal.contentWith? d m.contentId).getD d
  | _ => d

def selectionOf (o : Options) (safeArea : Option SafeArea) : Selection :=
  ⟨o.ignorePatterns, o.excludedIds ++ (safeArea.map SafeArea.excludedIds).getD []⟩

/-- The elements of a tree whose root no pattern matches. That takes all patterns to be of use. -/
def lower (o : Options) (t : Tree Block) : Result (Element × StyleBundle × Detection) :=
  match o.patternFault with
  | some fault => .error fault
  | none => lowerTree o.naming t

def ofDocument (o : Options) (d : Document) : Result Screen := do
  let safeArea ← if o.detectSafeArea then some <$> (SafeArea.detect d).lift else pure none
  let modal ← if o.detectModal then some <$> (Modal.detect? d).lift else pure none
  let root := effectiveRoot d modal
  let (e, bundle, found) ←
    match (selectionOf o safeArea).apply o.unwrapGroups root with
    | some t => lower o t
    | none =>
      let empty := placeholder d.item
      pure (empty.1, empty.2, {})
  let variants ← (Variants.detect root).lift
  return ⟨d.item.id, d.item.name, e, bundle,
    { found with modal, variants := some variants, safeArea }⟩

inductive Indent where
  | none
  | width (n : Int)
  | unit (s : String)

def Indent.format : Indent → Value.Format
  | .none => Value.spaced
  | .width n => Value.indented (String.ofList (List.replicate n.toNat ' '))
  | .unit s => Value.indented s

def write (indent : Indent) (s : Screen) : Result String := do
  return Value.write indent.format (← s.toValue).sortFields

end Screen

end Mockup
