import Mockup.Text.Class
import Mockup.Text.CaseTable

namespace Mockup.Text

def CaseShift.covers (s : CaseShift) (n : Nat) : Bool :=
  decide (s.first ≤ n) && decide (n ≤ s.last) && (n - s.first) % s.step == 0

def shifted (table : List CaseShift) (c : Char) : Char :=
  match table.find? (·.covers c.toNat) with
  | some s => Char.ofNat (c.toNat + s.shift).toNat
  | none => c

def lowerOne (c : Char) : Char := if c.toNat < 128 then c.toLower else shifted lowerShifts c

def lowerChar (c : Char) : List Char :=
  if c = '\u0130' then ['i', '\u0307'] else [lowerOne c]

def upperChar (c : Char) : List Char :=
  if c.toNat < 128 then [c.toUpper]
  else match upperExpansions.find? (·.1 == c.toNat) with
    | some e => e.2.map Char.ofNat
    | none => [shifted upperShifts c]

def startsCased (cs : List Char) : Bool :=
  match cs.dropWhile isPassed with
  | c :: _ => isCased c
  | [] => false

def lowerAfter (before : List Char) : List Char → List Char
  | [] => []
  | c :: rest =>
    (if c = 'Σ' then [if startsCased before && !startsCased rest then 'ς' else 'σ']
      else lowerChar c) ++ lowerAfter (c :: before) rest

def lowerChars (cs : List Char) : List Char := lowerAfter [] cs

def upperChars (cs : List Char) : List Char := cs.flatMap upperChar

def lower (s : String) : String := String.ofList (lowerChars s.toList)

def upper (s : String) : String := String.ofList (upperChars s.toList)

def capitalizeChars : List Char → List Char
  | [] => []
  | c :: rest => upperChar c ++ lowerChars rest

/-- The small letter that a character counts as when case is ignored. The dotted and the dotless i
count as i, and the long s counts as s. -/
def foldLetter (c : Char) : Char :=
  match smallVariants.find? (·.1 == c.toNat) with
  | some e => Char.ofNat e.2
  | none => lowerOne c

def caseForms (c : Char) : List Char :=
  let small := foldLetter c
  let capitals := lowerShifts.filterMap fun s =>
    let n := ((small.toNat : Int) - s.shift).toNat
    if s.covers n then some (Char.ofNat n) else none
  let variants := (smallVariants.filter (·.2 == small.toNat)).map fun e => Char.ofNat e.1
  small :: small.toUpper :: capitals ++ variants

end Mockup.Text
