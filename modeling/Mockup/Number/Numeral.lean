import Mockup.Number
import Mockup.Text.Class

namespace Mockup.Number

def digitRun (cs : List Char) : List Char × List Char :=
  (cs.takeWhile Char.isDigit, cs.dropWhile Char.isDigit)

def wholeRun : List Char → Option (List Char × List Char)
  | [] => none
  | c :: cs =>
    if c = '0' then some (['0'], cs)
    else if c.isDigit then some (digitRun (c :: cs))
    else none

/-- A point with digits after it; without a point the fraction is empty. -/
def fractionRun : List Char → Option (List Char × List Char)
  | '.' :: cs =>
    let run := digitRun cs
    if run.1.isEmpty then none else some run
  | cs => some ([], cs)

def signRun : List Char → Bool × List Char
  | '-' :: cs => (true, cs)
  | '+' :: cs => (false, cs)
  | cs => (false, cs)

def exponentRun : List Char → Option (Option Int × List Char)
  | [] => some (none, [])
  | c :: cs =>
    if c = 'e' || c = 'E' then
      let sign := signRun cs
      let run := digitRun sign.2
      if run.1.isEmpty then none
      else
        let e : Int := ofNumeral run.1
        some (some (if sign.1 then -e else e), run.2)
    else some (none, c :: cs)

def numeralValue (negative : Bool) (whole fraction : List Char) (exponent : Option Int) : Number :=
  match fraction, exponent with
  | [], none =>
    let n : Int := ofNumeral whole
    .int (if negative then -n else n)
  | _, _ =>
    .real (.ofDecimal negative
      ⟨ofNumeral (whole ++ fraction), exponent.getD 0 - fraction.length⟩)

def magnitude? (negative : Bool) (cs : List Char) : Option (Number × List Char) := do
  let (whole, cs) ← wholeRun cs
  let (fraction, cs) ← fractionRun cs
  let (exponent, cs) ← exponentRun cs
  return (numeralValue negative whole fraction exponent, cs)

def pointRun : List Char → List Char × List Char
  | '.' :: cs => digitRun cs
  | cs => ([], cs)

def ofPlainNumeral? (negative : Bool) (cs : List Char) : Option Binary64 := do
  let (whole, cs) := digitRun cs
  let (fraction, cs) := pointRun cs
  if whole.isEmpty && fraction.isEmpty then none
  else
    let (exponent, cs) ← exponentRun cs
    if cs.isEmpty then
      some (.ofDecimal negative
        ⟨ofNumeral (whole ++ fraction), exponent.getD 0 - fraction.length⟩)
    else none

def realNames (negative : Bool) : List (String × Binary64) :=
  [("inf", .infinity negative), ("infinity", .infinity negative), ("nan", .nan)]

def ofName? (negative : Bool) (cs : List Char) : Option Binary64 :=
  (realNames negative).findSome? fun entry =>
    if entry.1.toList = cs.map Char.toLower then some entry.2 else none

/-- A text without the underscores between its digits; none when one stands elsewhere. -/
def joinDigits (last : Char) : List Char → Option (List Char)
  | [] => some []
  | '_' :: c :: rest =>
    if last.isDigit && c.isDigit then (joinDigits c rest).map (c :: ·) else none
  | c :: rest => if c = '_' then none else (joinDigits c rest).map (c :: ·)

def plainDigit (c : Char) : Char :=
  ((Text.decimalValue? c).map fun d => Char.ofNat (48 + d)).getD c

def isMargin (c : Char) : Bool := Text.isBlank c && !(28 ≤ c.toNat && c.toNat ≤ 31)

def trimMargins (cs : List Char) : List Char :=
  ((cs.dropWhile isMargin).reverse.dropWhile isMargin).reverse

/-- The real that a text writes out: blanks around it, digits of any script, underscores between
digits and the names of infinity and of the undefined real are allowed. -/
def realOfText? (text : String) : Option Binary64 := do
  let cs ← joinDigits ' ' ((trimMargins text.toList).map plainDigit)
  let (negative, cs) := signRun cs
  (ofPlainNumeral? negative cs).or (ofName? negative cs)

end Mockup.Number
