import Mockup.Value
import Mockup.Number.Numeral
import Mockup.Text.Surrogate

namespace Mockup.Value

inductive Token where
  | openList
  | closeList
  | openObject
  | closeObject
  | comma
  | colon
  | text (s : String)
  | scalar (v : Value)

def isBlankChar (c : Char) : Bool := c = ' ' || c = '\t' || c = '\n' || c = '\r'

def afterWord? : List Char → List Char → Option (List Char)
  | [], cs => some cs
  | w :: ws, c :: cs => if w = c then afterWord? ws cs else none
  | _ :: _, [] => none

def words : List (String × Value) :=
  [("null", .null), ("true", .bool true), ("false", .bool false),
    ("NaN", .number (.real .nan)), ("Infinity", .number (.real (.infinity false))),
    ("-Infinity", .number (.real (.infinity true)))]

def wordToken (cs : List Char) : Option (Value × List Char) :=
  words.findSome? fun word => (afterWord? word.1.toList cs).map fun rest => (word.2, rest)

def numberToken : List Char → Option (Value × List Char)
  | '-' :: cs => (Number.magnitude? true cs).map fun r => (.number r.1, r.2)
  | cs => (Number.magnitude? false cs).map fun r => (.number r.1, r.2)

def hexUnit? (a b c d : Char) : Option Nat := do
  return (← Text.hexValue? a) * 4096 + (← Text.hexValue? b) * 256 +
    (← Text.hexValue? c) * 16 + (← Text.hexValue? d)

def shortEscape? (c : Char) : Option Char :=
  if c = '"' || c = '\\' || c = '/' then some c
  else if c = 'b' then some '\x08'
  else if c = 'f' then some '\x0c'
  else if c = 'n' then some '\n'
  else if c = 'r' then some '\r'
  else if c = 't' then some '\t'
  else none

def quotedUnits : List Char → Option (List Nat × List Char)
  | [] => none
  | '\\' :: 'u' :: a :: b :: c :: d :: cs => do
    let unit ← hexUnit? a b c d
    let (units, rest) ← quotedUnits cs
    return (unit :: units, rest)
  | '\\' :: e :: cs => do
    let c ← shortEscape? e
    let (units, rest) ← quotedUnits cs
    return (c.toNat :: units, rest)
  | c :: cs =>
    if c = '"' then some ([], cs)
    else if c.toNat < 32 then none
    else do
      let (units, rest) ← quotedUnits cs
      return (c.toNat :: units, rest)

def charsOfUnits (units : List Nat) : List Char :=
  (Text.pointsOfUnits units).map Text.shownPoint

def textToken (cs : List Char) : Option (String × List Char) :=
  (quotedUnits cs).map fun r => (String.ofList (charsOfUnits r.1), r.2)

def markToken? (c : Char) : Option Token :=
  if c = '[' then some .openList
  else if c = ']' then some .closeList
  else if c = '{' then some .openObject
  else if c = '}' then some .closeObject
  else if c = ',' then some .comma
  else if c = ':' then some .colon
  else none

def nextToken? (c : Char) (cs : List Char) : Option (Token × List Char) :=
  match markToken? c with
  | some t => some (t, cs)
  | none =>
    if c = '"' then (textToken cs).map fun r => (.text r.1, r.2)
    else match wordToken (c :: cs) with
      | some (v, rest) => some (.scalar v, rest)
      | none => (numberToken (c :: cs)).map fun r => (.scalar r.1, r.2)

/-- The tokens of a text; the fuel is at least its length. -/
def tokensUpTo : Nat → List Char → Option (List Token)
  | _, [] => some []
  | 0, _ :: _ => none
  | fuel + 1, c :: cs =>
    if isBlankChar c then tokensUpTo fuel cs
    else do
      let (t, rest) ← nextToken? c cs
      return t :: (← tokensUpTo fuel rest)

def tokens (cs : List Char) : Option (List Token) := tokensUpTo cs.length cs

/-- A container that is still open, with what it holds so far, the last first. -/
inductive Frame where
  | list (items : List Value)
  | object (fields : Fields) (name : String)

inductive Expected where
  | value
  | valueOrClose
  | name (fields : Fields)
  | nameOrClose
  | colon (fields : Fields) (name : String)
  | separator
  | nothing

structure Reading where
  frames : List Frame
  expected : Expected
  last : Value

def Reading.start : Reading := ⟨[], .value, .null⟩

def Reading.complete (frames : List Frame) (v : Value) : Reading :=
  match frames with
  | [] => ⟨[], .nothing, v⟩
  | .list items :: rest => ⟨.list (v :: items) :: rest, .separator, .null⟩
  | .object fields name :: rest => ⟨.object ((name, v) :: fields) name :: rest, .separator, .null⟩

def Reading.beginValue (frames : List Frame) : Token → Option Reading
  | .scalar v => some (.complete frames v)
  | .text s => some (.complete frames (.text s))
  | .openList => some ⟨.list [] :: frames, .valueOrClose, .null⟩
  | .openObject => some ⟨frames, .nameOrClose, .null⟩
  | _ => none

def objectOf (fields : Fields) : Value := .object (Fields.ofList fields.reverse)

def Reading.step (r : Reading) (t : Token) : Option Reading :=
  match r.expected, t, r.frames with
  | .value, t, frames => Reading.beginValue frames t
  | .valueOrClose, .closeList, .list items :: rest => some (.complete rest (.list items.reverse))
  | .valueOrClose, t, frames => Reading.beginValue frames t
  | .nameOrClose, .closeObject, frames => some (.complete frames (.object []))
  | .nameOrClose, .text s, frames => some ⟨frames, .colon [] s, .null⟩
  | .name fields, .text s, frames => some ⟨frames, .colon fields s, .null⟩
  | .colon fields name, .colon, frames => some ⟨.object fields name :: frames, .value, .null⟩
  | .separator, .comma, .list items :: rest => some ⟨.list items :: rest, .value, .null⟩
  | .separator, .closeList, .list items :: rest => some (.complete rest (.list items.reverse))
  | .separator, .comma, .object fields _ :: rest => some ⟨rest, .name fields, .null⟩
  | .separator, .closeObject, .object fields _ :: rest => some (.complete rest (objectOf fields))
  | _, _, _ => none

def Reading.value? (r : Reading) : Option Value :=
  match r.expected with
  | .nothing => some r.last
  | _ => none

def ofTokens? (ts : List Token) : Option Value :=
  (ts.foldlM Reading.step .start).bind Reading.value?

/-- The value that a text writes out; nothing may follow it but blanks. -/
def read? (s : String) : Option Value := (tokens s.toList).bind ofTokens?

/-- Whether no quoted text in a text that writes out a value has half a surrogate pair in it; the
fuel is at least its length. -/
def isSpelledUpTo : Nat → List Char → Bool
  | 0, _ => true
  | _, [] => true
  | fuel + 1, c :: cs =>
    if c = '"' then
      match quotedUnits cs with
      | some (units, rest) =>
        !(Text.pointsOfUnits units).any Text.isHalf && isSpelledUpTo fuel rest
      | none => true
    else isSpelledUpTo fuel cs

def isSpelled (s : String) : Bool := isSpelledUpTo s.length s.toList

end Mockup.Value
