import Mockup.Text.Pattern

namespace Mockup.Text.Pattern

structure Flags where
  ignoreCase : Bool := false
  /-- a start and an end are those of a line -/
  multiline : Bool := false
  /-- any character may be a line break -/
  dotAll : Bool := false
  /-- classes and cases are those of ASCII -/
  ascii : Bool := false
  /-- blanks and comments are passed over -/
  spaced : Bool := false

namespace Flags

/-- The letters of all flags; those for a locale and for templates are known and not to be used. -/
def letters : List Char := ['a', 'i', 'L', 'm', 's', 't', 'u', 'x']

def areAllowed (on off : List Char) : Bool :=
  !on.contains 'L' && !on.contains 't' && !(on.contains 'a' && on.contains 'u') &&
    !off.any (fun c => ['a', 'L', 't', 'u'].contains c) && !on.any off.contains

def changed (f : Flags) (on off : List Char) : Flags :=
  let stays (old : Bool) (c : Char) := (old || on.contains c) && !off.contains c
  { ignoreCase := stays f.ignoreCase 'i', multiline := stays f.multiline 'm',
    dotAll := stays f.dotAll 's', spaced := stays f.spaced 'x',
    ascii := (f.ascii && !on.contains 'u') || on.contains 'a' }

def forms (f : Flags) (c : Char) : List Char :=
  if !f.ignoreCase then [c]
  else if f.ascii then [c.toLower, c.toUpper]
  else caseForms c

def same (f : Flags) (a b : Char) : Bool :=
  if !f.ignoreCase then a == b
  else if f.ascii then a.toLower == b.toLower
  else (lowerChar a).head? == (lowerChar b).head?

def isDigit (f : Flags) (c : Char) : Bool := if f.ascii then c.isDigit else isDecimal c

def isGap (c : Char) : Bool := c == ' ' || (9 ≤ c.toNat && c.toNat ≤ 13)

def isSpace (f : Flags) (c : Char) : Bool := if f.ascii then isGap c else isBlank c

def isWordPart (f : Flags) (c : Char) : Bool :=
  if f.ascii then c.isAlphanum || c == '_' else isWord c

def inSpan (f : Flags) (low high : Nat) (c : Char) : Bool :=
  (f.forms c).any fun d => low ≤ d.toNat && d.toNat ≤ high

def any (f : Flags) (c : Char) : Bool := f.dotAll || c != '\n'

def start (f : Flags) : List Char → Nat → Bool := if f.multiline then atLineStart else atStart

def finish (f : Flags) : List Char → Nat → Bool := if f.multiline then atLineFinish else atFinish

def classOf? (f : Flags) (c : Char) : Option (Char → Bool) :=
  if c = 'd' then some f.isDigit
  else if c = 'D' then some fun c => !f.isDigit c
  else if c = 's' then some f.isSpace
  else if c = 'S' then some fun c => !f.isSpace c
  else if c = 'w' then some f.isWordPart
  else if c = 'W' then some fun c => !f.isWordPart c
  else none

def anchorOf? (f : Flags) (c : Char) : Option (List Char → Nat → Bool) :=
  if c = 'A' then some atStart
  else if c = 'Z' then some atVeryEnd
  else if c = 'b' then some (atBoundary f.isWordPart)
  else if c = 'B' then some (offBoundary f.isWordPart)
  else none

end Flags

end Mockup.Text.Pattern
