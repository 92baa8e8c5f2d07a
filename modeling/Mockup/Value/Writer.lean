import Mockup.Value

namespace Mockup.Value

/-- The separators between items and after names, and the text that indents one level. Without it
everything stands on one line. -/
structure Format where
  itemSeparator : String
  nameSeparator : String
  indent : Option String

def hexDigits : List Char := "0123456789abcdef".toList

def hexDigit (n : Nat) : Char := hexDigits.getD n '0'

def realStyle : Number.RealStyle :=
  { Number.RealStyle.plain with nan := "NaN", infinity := "Infinity" }

/-- Quotes, backslashes and control characters are escaped; all else stands for itself. -/
def escape (c : Char) : List Char :=
  if c = '"' then ['\\', '"']
  else if c = '\\' then ['\\', '\\']
  else if c = '\n' then ['\\', 'n']
  else if c = '\r' then ['\\', 'r']
  else if c = '\t' then ['\\', 't']
  else if c = '\x08' then ['\\', 'b']
  else if c = '\x0c' then ['\\', 'f']
  else if c.toNat < 32 then
    ['\\', 'u', '0', '0', hexDigit (c.toNat / 16), hexDigit (c.toNat % 16)]
  else [c]

def quoted (s : String) : List Char := '"' :: s.toList.flatMap escape ++ ['"']

def lineBreak (format : Format) (level : Nat) : List Char :=
  match format.indent with
  | none => []
  | some unit => '\n' :: (List.replicate level unit.toList).flatten

mutual

def written (format : Format) (level : Nat) : Value → List Char
  | .null => "null".toList
  | .bool b => if b then "true".toList else "false".toList
  | .number n => n.text realStyle
  | .text s => quoted s
  | .list [] => ['[', ']']
  | .list (v :: rest) =>
    '[' :: lineBreak format (level + 1) ++ written format (level + 1) v ++
      writtenItems format (level + 1) rest ++ lineBreak format level ++ [']']
  | .object [] => ['{', '}']
  | .object ((name, v) :: rest) =>
    '{' :: lineBreak format (level + 1) ++ quoted name ++ format.nameSeparator.toList ++
      written format (level + 1) v ++
      writtenFields format (level + 1) rest ++ lineBreak format level ++ ['}']

def writtenItems (format : Format) (level : Nat) : List Value → List Char
  | [] => []
  | v :: rest =>
    format.itemSeparator.toList ++ lineBreak format level ++ written format level v ++
      writtenItems format level rest

def writtenFields (format : Format) (level : Nat) : Fields → List Char
  | [] => []
  | (name, v) :: rest =>
    format.itemSeparator.toList ++ lineBreak format level ++ quoted name ++
      format.nameSeparator.toList ++ written format level v ++ writtenFields format level rest

end

def write (format : Format) (v : Value) : String := String.ofList (written format 0 v)

def compact : Format := ⟨",", ":", none⟩

def spaced : Format := ⟨", ", ": ", none⟩

def indented (unit : String) : Format := ⟨",", ": ", some unit⟩

/-- The one text of a value: fields ordered by name and no blanks. -/
def canonicalText (v : Value) : String := write compact v.sortFields

end Mockup.Value
