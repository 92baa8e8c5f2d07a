import Mockup.Text.Scan

namespace Mockup

structure Path where
  root : String := ""
  parts : List String := []
  deriving DecidableEq

/-- A place in the tree of directories, below the root or below a directory some levels above the
working directory. -/
structure Place where
  absolute : Bool := false
  above : Nat := 0
  names : List String := []
  deriving DecidableEq

namespace Place

/-- The place under a name; two dots lead back. -/
def enter (p : Place) (name : String) : Place :=
  if name != ".." then { p with names := p.names ++ [name] }
  else if !p.names.isEmpty then { p with names := p.names.dropLast }
  else if p.absolute then p
  else { p with above := p.above + 1 }

def isBelow (p directory : Place) : Bool :=
  p.absolute == directory.absolute && p.above == directory.above &&
    directory.names.isPrefixOf p.names && p.names != directory.names

def text (p : Place) : String :=
  (if p.absolute then "/" else "") ++ "/".intercalate (List.replicate p.above ".." ++ p.names)

end Place

namespace Path

/-- Two slashes in front stay two; any other number of them is one. -/
def rootOf (cs : List Char) : String :=
  match (cs.takeWhile (· == '/')).length with
  | 0 => ""
  | 2 => "//"
  | _ => "/"

def ofText (s : String) : Path where
  root := rootOf s.toList
  parts := ((Text.wordsBy (· == '/') s.toList).map String.ofList).filter (· != ".")

def text (p : Path) : String :=
  let s := p.root ++ "/".intercalate p.parts
  if s.isEmpty then "." else s

def child (p : Path) (name : String) : Path := { p with parts := p.parts ++ [name] }

def start (p : Path) : Place := { absolute := !p.root.isEmpty }

def place (p : Path) : Place := p.parts.foldl Place.enter p.start

def through (p : Path) : List Place :=
  (List.range p.parts.length).map fun i => (p.parts.take (i + 1)).foldl Place.enter p.start

def escape (c : Char) : List Char :=
  if c = '\\' then ['\\', '\\']
  else if c = '\n' then ['\\', 'n']
  else if c = '\r' then ['\\', 'r']
  else if c = '\t' then ['\\', 't']
  else [c]

def singleQuote : Char := '\x27'

def quoted (p : Path) : String :=
  let cs := p.text.toList
  let body := cs.flatMap escape
  if !cs.contains singleQuote then String.ofList (singleQuote :: body ++ [singleQuote])
  else if !cs.contains '"' then String.ofList ('"' :: body ++ ['"'])
  else
    let escaped := body.flatMap fun c => if c = singleQuote then ['\\', c] else [c]
    String.ofList (singleQuote :: escaped ++ [singleQuote])

end Path

end Mockup
