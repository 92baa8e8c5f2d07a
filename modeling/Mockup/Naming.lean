import Mockup.Layer
import Mockup.Naming.Generic
import Mockup.Text.Pattern.Reader

namespace Mockup

structure Naming where
  fallbackIdentifier : String := "element"
  digitPrefix : String := "style"
  componentPrefix : String := "Component"
  containerPrefix : String := "container"
  kindPrefixes : List (String × String) := [("TEXT", "text"), ("VECTOR", "icon")]
  genericPropNames : List String :=
    ["text", "element", "label", "frame", "group", "container", "view", "box", "wrapper", "row",
      "column"]

namespace Naming

def breakCamel : List Char → List Char
  | a :: b :: rest =>
    if a.isLower && b.isUpper then a :: ' ' :: breakCamel (b :: rest)
    else a :: breakCamel (b :: rest)
  | cs => cs

/-- The runs of ASCII letters and digits in a name, broken where a capital follows a small
letter. -/
def plainWords (name : String) : List (List Char) :=
  Text.wordsBy (fun c => !Text.isPlain c) (breakCamel name.toList)

def camelCase : List (List Char) → List Char
  | [] => []
  | w :: ws => Text.lowerChars w ++ ws.flatMap Text.capitalizeChars

def identifier (n : Naming) (name : String) : String :=
  match camelCase (plainWords name) with
  | [] => n.fallbackIdentifier
  | c :: rest =>
    if c.isDigit then n.digitPrefix ++ String.ofList (c :: rest) else String.ofList (c :: rest)

def componentName (n : Naming) (name : String) : String :=
  let kept := name.toList.filter fun c => Text.isWord c || Text.isBlank c || c == '-'
  let words := Text.splitBy (fun c => Text.isBlank c || c == '-' || c == '_')
    (breakCamel (Text.trimChars kept))
  let pascal := words.flatMap Text.capitalizeChars
  if pascal.head?.any Char.isAlpha then String.ofList pascal
  else n.componentPrefix ++ String.ofList pascal

def isMeaningful (n : Naming) (name : String) : Bool :=
  !name.isEmpty && !n.genericPropNames.contains (Text.lower name) && !saysNothing name.toList

/-- The regular expression of the digit prefix with nothing but digits after it. -/
def numberedPattern (n : Naming) : Except Text.Pattern.Flaw Text.Pattern :=
  Text.Pattern.ofText ('^' :: n.digitPrefix.toList ++ "[0-9]+$".toList)

/-- Whether an identifier is a plain prefix with nothing but digits after it. -/
def isNumberedPlain (leading identifier : List Char) : Bool :=
  leading.isPrefixOf identifier && isPlainNumber (identifier.drop leading.length)

/-- Whether an identifier is the digit prefix with nothing but digits after it. The prefix counts
as a regular expression, which it may fail to be; letters and digits stand for themselves. -/
def isNumberedRef (n : Naming) (identifier : String) : Except Text.Pattern.Flaw Bool :=
  if n.digitPrefix.toList.all Text.isPlain then
    .ok (isNumberedPlain n.digitPrefix.toList identifier.toList)
  else n.numberedPattern.map fun p => p.matchesStart identifier.toList

def shortId (id : String) : String :=
  let safe := id.toList.map fun c => if Text.isPlain c then c else '_'
  let last := (Text.splitOn '_' safe).getLastD []
  String.ofList (if last.isEmpty then safe else last)

def wordFor (n : Naming) (kind : Option String) (hasChildren : Bool) : String :=
  let word := (kind.bind fun k => Fields.get? k n.kindPrefixes).getD ""
  if !word.isEmpty then word
  else if hasChildren then n.containerPrefix
  else n.fallbackIdentifier

def shortRef (n : Naming) (id : LayerId) (kind : Option String) (hasChildren : Bool) :
    Result String :=
  match id with
  | some id => .ok (n.wordFor kind hasChildren ++ "_" ++ shortId id)
  | none => .error .missingId

/-- The reference to the style of a layer: its name if that says anything, and otherwise the kind of
layer with a short id. It fails when it takes the digit prefix to tell and that is no regular
expression. -/
def styleRef (n : Naming) (name : String) (id : LayerId) (kind : Option String)
    (hasChildren : Bool) : Result String :=
  let short := n.shortRef id kind hasChildren
  if (Text.trimChars name.toList).isEmpty || isGenericLayerName name then short
  else
    let ident := n.identifier name
    if ident = n.fallbackIdentifier then short
    else match n.isNumberedRef ident with
      | .error flaw => .error (.invalidPattern flaw n.digitPrefix)
      | .ok true => short
      | .ok false => .ok ident

/-- The property that a text fills: named for the layer if that says anything, and otherwise for
what the text looks like. -/
def textPropName (n : Naming) (name : String) (pattern : Option String) : Option String :=
  let ident := n.identifier name
  if !isGenericName name && n.isMeaningful ident then some ident else pattern

structure RepeaterNames where
  component : String
  data : String
  style : String

def repeaterNames (n : Naming) (baseName : String) : RepeaterNames :=
  let ident := n.identifier baseName
  ⟨n.componentName baseName, Text.upper ident ++ "_DATA", "style_" ++ ident ++ "_repeater"⟩

end Naming

end Mockup
