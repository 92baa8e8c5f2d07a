import Mockup.Text.Scan

namespace Mockup.Text.Wildcard

/-- Every character of a pattern but the star stands for itself. The name may have a line break more
at its end. -/
def accepts : List Char → List Char → Bool
  | [], cs => atEnd cs
  | '*' :: ps, cs => anyTail (accepts ps) cs
  | p :: ps, c :: cs => p == c && accepts ps cs
  | _ :: _, [] => false

def isMatch (name pattern : String) : Bool :=
  accepts (lowerChars pattern.toList) (lowerChars name.toList)

end Mockup.Text.Wildcard
