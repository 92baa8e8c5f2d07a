import Mockup.Text.ClassTable

namespace Mockup.Text

def inRanges (ranges : List (Nat × Nat)) (n : Nat) : Bool :=
  ranges.any fun r => decide (r.1 ≤ n) && decide (n ≤ r.2)

def inClass (ascii : Char → Bool) (ranges : List (Nat × Nat)) (c : Char) : Bool :=
  if c.toNat < 128 then ascii c else inRanges ranges c.toNat

def isBlank : Char → Bool :=
  inClass (fun c => c == ' ' || (9 ≤ c.toNat && c.toNat ≤ 13) || (28 ≤ c.toNat && c.toNat ≤ 31))
    blankRanges

def isDecimal : Char → Bool := inClass Char.isDigit decimalRanges

def isWord : Char → Bool := inClass (fun c => c.isAlphanum || c == '_') wordRanges

def isNamePart (c : Char) : Bool :=
  (isWord c && !inRanges namelessRanges c.toNat) || inRanges nameMarkRanges c.toNat

def isNameStart (c : Char) : Bool :=
  (isWord c && !isDecimal c && !inRanges namelessRanges c.toNat &&
    !inRanges nameInnerRanges c.toNat) || inRanges nameLeadRanges c.toNat

def isPlain (c : Char) : Bool := c.isAlphanum

def isCased : Char → Bool := inClass Char.isAlpha casedRanges

def isPassed : Char → Bool :=
  inClass (fun c => c == '.' || c == ':' || c.toNat == 39 || c == '^' || c.toNat == 96) passedRanges

def decimalValue? (c : Char) : Option Nat :=
  if c.toNat < 128 then if c.isDigit then some (c.toNat - 48) else none
  else (decimalRanges.find? fun r => decide (r.1 ≤ c.toNat) && decide (c.toNat ≤ r.2)).map
    fun r => (c.toNat - r.1) % 10

def hexValue? (c : Char) : Option Nat :=
  let d := c.toNat
  if c.isDigit then some (d - 48)
  else if 97 ≤ d && d ≤ 102 then some (d - 87)
  else if 65 ≤ d && d ≤ 70 then some (d - 55)
  else none

end Mockup.Text
