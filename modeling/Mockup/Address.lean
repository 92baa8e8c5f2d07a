import Mockup.Text.Scan
import Mockup.Text.Utf8

namespace Mockup

structure Address where
  path : List Char
  query : List Char

namespace Address

inductive Fault where
  /-- a host with one bracket alone -/
  | brackets
  /-- a host with a character that is the same as a separator in another form -/
  | hiddenSeparator (host : String)
  | noFileKey (text : String)
  deriving DecidableEq

def Fault.message : Fault → String
  | .brackets => "Invalid IPv6 URL"
  | .hiddenSeparator host =>
    "netloc '" ++ host ++ "' contains invalid characters under NFKC normalization"
  | .noFileKey text => "無法從 URL 解析 file key：" ++ text

def isSchemeChar (c : Char) : Bool := Text.isPlain c || c == '+' || c == '-' || c == '.'

/-- What follows the scheme; all of it when there is none. -/
def afterScheme (cs : List Char) : List Char :=
  let scheme := cs.takeWhile (· != ':')
  match scheme, cs.dropWhile (· != ':') with
  | first :: _, ':' :: rest =>
    if first.isAlpha && scheme.all isSchemeChar then rest else cs
  | _, _ => cs

def endsHost (c : Char) : Bool := c == '/' || c == '?' || c == '#'

def splitHost : List Char → List Char × List Char
  | '/' :: '/' :: cs => (cs.takeWhile (!endsHost ·), cs.dropWhile (!endsHost ·))
  | cs => ([], cs)

def isLead (c : Char) : Bool := decide (c.toNat ≤ 32)

def isBreak (c : Char) : Bool := c == '\t' || c == '\r' || c == '\n'

/-- Characters that are the same as a separator in another form: wide, small and vertical ones, and
several signs in one. -/
def hiddenSeparators : List Char :=
  ['⁇', '⁈', '⁉', '℀', '℁', '℅', '℆', '⩴', '︓', '︖', '﹕', '﹖', '﹟', '﹫', '＃', '／', '：', '？', '＠']

/-- The path and the query of a text. Line breaks and tabs in it do not count. -/
def ofText (text : String) : Except Fault Address :=
  let cs := (text.toList.dropWhile isLead).filter (!isBreak ·)
  let (host, rest) := splitHost (afterScheme cs)
  if host.contains '[' != host.contains ']' then .error .brackets
  else if host.any hiddenSeparators.contains then .error (.hiddenSeparator (String.ofList host))
  else
    let rest := rest.takeWhile (· != '#')
    .ok ⟨rest.takeWhile (· != '?'), (rest.dropWhile (· != '?')).drop 1⟩

def segments : List (List Char) := ["/file/".toList, "/design/".toList]

/-- The key at the start of a path: letters and digits after one of the segments. -/
def keyAtStart? (cs : List Char) : Option (List Char) :=
  segments.findSome? fun segment =>
    if segment.isPrefixOf cs then
      let key := (cs.drop segment.length).takeWhile Text.isPlain
      if key.isEmpty then none else some key
    else none

def key? : List Char → Option (List Char)
  | [] => none
  | c :: cs => (keyAtStart? (c :: cs)).or (key? cs)

/-- The bytes that escaped characters stand for. A percent sign without two digits stands for
itself. -/
def unescape : List Char → List UInt8
  | [] => []
  | '%' :: a :: b :: rest =>
    match Text.hexValue? a, Text.hexValue? b with
    | some x, some y => UInt8.ofNat (x * 16 + y) :: unescape rest
    | _, _ => 37 :: unescape (a :: b :: rest)
  | c :: rest => String.utf8EncodeChar c ++ unescape rest

def plusToBlank (c : Char) : Char := if c = '+' then ' ' else c

def decoded (cs : List Char) : List Char := Text.Utf8.mend (unescape (cs.map plusToBlank))

def parameter? (part : List Char) : Option (List Char × List Char) :=
  match part.dropWhile (· != '=') with
  | '=' :: c :: value => some (decoded (part.takeWhile (· != '=')), decoded (c :: value))
  | _ => none

def parameters (a : Address) : List (List Char × List Char) :=
  (Text.splitOn '&' a.query).filterMap parameter?

def get? (a : Address) (name : String) : Option (List Char) :=
  (a.parameters.find? fun p => p.1 == name.toList).map (·.2)

def dashToColon (c : Char) : Char := if c = '-' then ':' else c

def nodeId (cs : List Char) : String := String.ofList (cs.map dashToColon)

def target (text : String) : Except Fault (String × Option String) := do
  let a ← ofText text
  match key? a.path with
  | none => .error (.noFileKey text)
  | some key => return (String.ofList key, (a.get? "node-id").map nodeId)

end Address

end Mockup
