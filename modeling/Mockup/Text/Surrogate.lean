namespace Mockup.Text

def isFirstHalf (unit : Nat) : Bool := 0xD800 ≤ unit && unit < 0xDC00

def isSecondHalf (unit : Nat) : Bool := 0xDC00 ≤ unit && unit < 0xE000

/-- Half of a surrogate pair is a code point but no character, and it has no UTF-8 form. -/
def isHalf (point : Nat) : Bool := isFirstHalf point || isSecondHalf point

def pointsOfUnits : List Nat → List Nat
  | [] => []
  | [a] => [a]
  | a :: b :: rest =>
    if isFirstHalf a && isSecondHalf b then
      (0x10000 + (a - 0xD800) * 0x400 + (b - 0xDC00)) :: pointsOfUnits rest
    else a :: pointsOfUnits (b :: rest)

def shownPoint (point : Nat) : Char := if isHalf point then '\uFFFD' else Char.ofNat point

end Mockup.Text
