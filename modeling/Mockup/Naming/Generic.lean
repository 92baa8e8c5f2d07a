import Mockup.Text.Scan

namespace Mockup.Naming

/-- What follows one of the given words at the start of a name, in whatever case. -/
def afterAny (words : List String) (cs : List Char) : List (List Char) :=
  words.filterMap fun w => Text.afterWord? w.toList cs

def onlyDigits (cs : List Char) : Bool := Text.atEnd (Text.skip Text.isDecimal cs)

def someDigits (cs : List Char) : Bool := (cs.head?.any Text.isDecimal) && onlyDigits cs

/-- A word with a number after it, with or without blanks between them, or the word alone. -/
def isNumbered (words : List String) (cs : List Char) : Bool :=
  (afterAny words cs).any fun rest => onlyDigits (Text.skip Text.isBlank rest)

def shapeWords : List String :=
  ["frame", "group", "rectangle", "vector", "star", "ellipse", "line", "boolean", "union",
    "subtract", "intersect", "exclude", "component", "instance"]

def isGenericLayerName (name : String) : Bool := isNumbered shapeWords name.toList

def toolWords : List String :=
  ["frame", "rectangle", "ellipse", "group", "vector", "line", "polygon", "star", "text",
    "component", "instance", "slice", "union", "subtract", "intersect", "exclude", "image", "shape",
    "layer"]

def isGenericName (name : String) : Bool :=
  let cs := Text.trimChars name.toList
  cs.isEmpty || isNumbered toolWords cs

def blockWords : List String :=
  ["text", "element", "container", "frame", "group", "view", "box", "wrapper", "row", "column"]

def plainShapeWords : List String :=
  ["frame", "vector", "rectangle", "ellipse", "line", "star", "instance", "polygon", "boolean",
    "component", "group"]

def pathWords : List String :=
  ["path", "ellipse", "union", "subtract", "intersect", "vector", "rectangle", "line", "polygon",
    "star"]

def countedWords : List String := ["element", "item", "child", "node"]

def isBlockName (cs : List Char) : Bool :=
  (afterAny blockWords cs).any fun rest =>
    match rest with
    | '_' :: rest => onlyDigits rest
    | rest => onlyDigits rest

def isVectorPart (cs : List Char) : Bool :=
  (afterAny ["vector"] cs).any fun rest =>
    let after := Text.skip Text.isDecimal rest
    rest.head?.any Text.isDecimal &&
      (after :: afterAny ["stroke", "fill"] after).any Text.atEnd

def isSingleLetter : List Char → Bool
  | c :: rest => c.isAlpha && Text.atEnd rest
  | [] => false

def isPlainNumber (cs : List Char) : Bool :=
  cs.head?.any Char.isDigit && Text.atEnd (Text.skip Char.isDigit cs)

def saysNothing (cs : List Char) : Bool :=
  isBlockName cs || isNumbered plainShapeWords cs || (afterAny pathWords cs).any onlyDigits ||
    isVectorPart cs || (afterAny ["style"] cs).any someDigits || isSingleLetter cs ||
    isPlainNumber cs || (afterAny countedWords cs).any someDigits

/-- A name without the digits at its end and without blanks around it. A line break after the digits
does not keep them. -/
def stripTrailingDigits (name : String) : String :=
  let cs := name.toList
  let body := match cs.reverse with
    | '\n' :: rest => rest.reverse
    | _ => cs
  String.ofList (Text.trimChars (Text.trimEndBy Char.isDigit body))

end Mockup.Naming
