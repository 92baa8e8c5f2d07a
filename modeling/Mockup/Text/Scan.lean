import Mockup.Text.Case

namespace Mockup.Text

def trimEndBy (p : Char → Bool) (cs : List Char) : List Char := (cs.reverse.dropWhile p).reverse

def trimBy (p : Char → Bool) (cs : List Char) : List Char := trimEndBy p (cs.dropWhile p)

def trimChars (cs : List Char) : List Char := trimBy isBlank cs

/-- The pieces between separators; there is one more of them than of separators. -/
def splitBy (p : Char → Bool) : List Char → List (List Char)
  | [] => [[]]
  | c :: rest =>
    let pieces := splitBy p rest
    if p c then [] :: pieces
    else (c :: pieces.headD []) :: pieces.tail

def splitOn (separator : Char) (cs : List Char) : List (List Char) := splitBy (· == separator) cs

def wordsBy (p : Char → Bool) (cs : List Char) : List (List Char) :=
  (splitBy p cs).filter (!·.isEmpty)

def anyTail (test : List Char → Bool) : List Char → Bool
  | [] => test []
  | c :: rest => test (c :: rest) || anyTail test rest

def occursIn (part whole : List Char) : Bool := anyTail part.isPrefixOf whole

def within (part whole : String) : Bool := occursIn part.toList whole.toList

/-- The text after a word, whatever the case of the letters. The word is in small letters. -/
def afterWord? : List Char → List Char → Option (List Char)
  | [], cs => some cs
  | w :: ws, c :: cs => if w = foldLetter c then afterWord? ws cs else none
  | _ :: _, [] => none

def atEnd (cs : List Char) : Bool := cs.isEmpty || cs == ['\n']

def skip (p : Char → Bool) (cs : List Char) : List Char := cs.dropWhile p

end Mockup.Text
