import Mockup.Element
import Mockup.Text.Scan

namespace Mockup

structure Repetition where
  name : String
  instanceIds : List LayerId
  variations : List (String × List String)

def Repetition.toValue (r : Repetition) : Value :=
  .object [("componentName", .text r.name),
    ("instanceIds", .list (r.instanceIds.map Value.ofText?)),
    ("propsVariations", .object (r.variations.map fun v => (v.1, Value.texts v.2)))]

namespace Repetition

def commaSeparated (parts : List (List Char)) : List Char := [','].intercalate parts

mutual

/-- The shape of an element: its variant, and the shapes of its children in brackets. Containers and
cards have brackets even when they are empty. -/
def fingerprintChars : Element → Result (List Char)
  | .leaf _ c => .ok c.variant.toList
  | .branch _ r _ es => do
    let shapes ← fingerprintsOf es
    if shapes.isEmpty && !r.isGroup then return r.variant.toList
    return r.variant.toList ++ [':', '['] ++ commaSeparated shapes ++ [']']
  | .foreign _ v => .error (.unknownVariant v)

def fingerprintsOf : List Element → Result (List (List Char))
  | [] => .ok []
  | e :: es => do
    let shape ← fingerprintChars e
    return shape :: (← fingerprintsOf es)

end

def fingerprint (e : Element) : Result String := do
  return String.ofList (← fingerprintChars e)

def childKey (index : Nat) (key : String) : String :=
  "child" ++ String.ofList (Number.numeral index) ++ "_" ++ key

mutual

def variableTexts : Element → Result (List (String × String))
  | .leaf _ (.text t) => .ok [("text", t.text)]
  | .leaf _ (.button b) => .ok [("label", b.label)]
  | .leaf .. => .ok []
  | .branch _ _ _ es => variableTextsFrom 0 es
  | .foreign _ v => .error (.unknownVariant v)

def variableTextsFrom (index : Nat) : List Element → Result (List (String × String))
  | [] => .ok []
  | e :: es => do
    let texts ← variableTexts e
    let rest ← variableTextsFrom (index + 1) es
    return texts.map (fun t => (childKey index t.1, t.2)) ++ rest

end

def fallbackName (variant : String) : String :=
  (Fields.get? variant [("Card", "CardComponent"), ("Container", "SectionComponent"),
    ("Button", "ActionButton")]).getD "ExtractedComponent"

def nameFor (e : Element) : String :=
  let words := Text.wordsBy (fun c => !Text.isPlain c) e.identity.label.toList
  let name := words.flatMap Text.capitalizeChars
  if 3 ≤ name.length then String.ofList name else fallbackName e.variant

def isCandidate : Element → Bool
  | .leaf _ (.button _) => true
  | .branch _ r _ es => r.isGroup && !es.isEmpty
  | _ => false

/-- Groups in the order of their first members, each under the shape of its members. -/
abbrev Groups := List (List Char × List Element)

def Groups.add (groups : Groups) (shape : List Char) (e : Element) : Groups :=
  match groups with
  | [] => [(shape, [e])]
  | (s, es) :: rest =>
    if s = shape then (s, es ++ [e]) :: rest else (s, es) :: Groups.add rest shape e

def addCandidate (groups : Groups) (e : Element) : Result Groups := do
  if isCandidate e then return groups.add (← fingerprintChars e) e else return groups

mutual

def collect (groups : Groups) : Element → Result Groups
  | e@(.leaf ..) => addCandidate groups e
  | e@(.branch _ _ _ es) => do
    let groups ← addCandidate groups e
    collectAll groups es
  | .foreign _ v => .error (.unknownVariant v)

def collectAll (groups : Groups) : List Element → Result Groups
  | [] => .ok groups
  | e :: es => do
    let groups ← collect groups e
    collectAll groups es

end

def addVariation (variations : List (String × List String)) (text : String × String) :
    List (String × List String) :=
  let values := (Fields.get? text.1 variations).getD []
  Fields.put variations text.1 (if values.contains text.2 then values else values ++ [text.2])

def merge (es : List Element) : Result (List (String × List String)) :=
  es.foldlM (fun variations e => do return (← variableTexts e).foldl addVariation variations) []

def ofGroup? (es : List Element) : Result (Option Repetition) :=
  match es with
  | first :: _ :: _ => do
    return some ⟨nameFor first, es.map Element.id, ← merge es⟩
  | _ => .ok none

def detect (e : Element) : Result (List Repetition) := do
  let groups ← collect [] e
  return (← groups.mapM fun g => ofGroup? g.2).filterMap fun r => r

end Repetition

end Mockup
