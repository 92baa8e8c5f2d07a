import Mockup.Number.Binary64

namespace Mockup.Number

/-- The value `digits * 10 ^ exponent`. -/
structure Decimal where
  digits : Nat
  exponent : Int
  deriving DecidableEq, Repr

def tenPower (e : Int) : Nat × Nat :=
  if 0 ≤ e then (Nat.pow 10 e.toNat, 1) else (1, Nat.pow 10 (-e).toNat)

def numeral (n : Nat) : List Char := Nat.toDigits 10 n

def ofNumeral (cs : List Char) : Nat := Nat.ofDigitChars 10 cs 0

theorem ofNumeral_numeral (n : Nat) : ofNumeral (numeral n) = n := by
  simp [ofNumeral, numeral, Nat.ofDigitChars_ten_toDigits]

/-- The value nearest to a decimal. Magnitudes at least 10^310 are infinite and those below
10^-330 are zero, whatever their digits, so that large exponents cost nothing. -/
def Binary64.ofDecimal (negative : Bool) (d : Decimal) : Binary64 :=
  let places : Int := (numeral d.digits).length + d.exponent
  if d.digits = 0 then zero negative
  else if 311 ≤ places then .infinity negative
  else if places ≤ -330 then zero negative
  else
    let p := tenPower d.exponent
    ofRatio negative (d.digits * p.1) p.2

/-- The exponent `k` with `10 ^ k ≤ n / d < 10 ^ (k + 1)`, for positive `n` and `d`. -/
def decimalExponent (n d : Nat) : Int :=
  let k : Int := (numeral n).length - (numeral d).length
  let p := tenPower k
  if d * p.1 ≤ n * p.2 then k else k - 1

/-- The one of two neighbouring decimals with `places` digits that reads back as the given
magnitude, the nearer one if both do. -/
def neighbour? (units places : Nat) : Option Decimal :=
  let e := decimalExponent units unitsPerOne - places + 1
  let p := tenPower e
  let n := units * p.2
  let d := unitsPerOne * p.1
  let target := Binary64.ofUnits false units 1
  let below : Decimal := ⟨n / d, e⟩
  let above : Decimal := ⟨n / d + 1, e⟩
  let nearest : Decimal := ⟨roundQuotient n d, e⟩
  [nearest, below, above].find? fun c => Binary64.ofDecimal false c = target

/-- A decimal with the fewest digits, at most 17, that reads back as the given magnitude. -/
def shortest (units : Nat) : Decimal :=
  ((List.range 17).findSome? fun i => neighbour? units (i + 1)).getD ⟨units * Nat.pow 5 1074, -1074⟩

/-- How a real number is written: positional notation for decimal exponents from `lowest` up to
but not including `limit`, and the names of the values that have no digits. -/
structure RealStyle where
  lowest : Int
  limit : Int
  nan : String
  infinity : String

def RealStyle.plain : RealStyle := ⟨-4, 16, "nan", "inf"⟩

def dropTrailingZeros (cs : List Char) : List Char := (cs.reverse.dropWhile (· == '0')).reverse

def zeros (n : Nat) : List Char := List.replicate n '0'

/-- Digits with a point after the first `point` of them, padded with zeros on either side. -/
def positional (ds : List Char) (point : Int) : List Char :=
  if point ≤ 0 then '0' :: '.' :: zeros (-point).toNat ++ ds
  else
    let p := point.toNat
    if ds.length ≤ p then ds ++ zeros (p - ds.length) ++ ['.', '0']
    else ds.take p ++ '.' :: ds.drop p

def exponentText (e : Int) : List Char :=
  let ds := numeral e.natAbs
  (if e < 0 then '-' else '+') :: (if ds.length < 2 then '0' :: ds else ds)

def scientific (ds : List Char) (e : Int) : List Char :=
  ds.take 1 ++ (if ds.length ≤ 1 then [] else '.' :: ds.drop 1) ++ 'e' :: exponentText e

def magnitudeText (style : RealStyle) (units : Nat) : List Char :=
  if units = 0 then ['0', '.', '0']
  else
    let d := shortest units
    let ds := numeral d.digits
    let e := d.exponent + ds.length - 1
    let ds := dropTrailingZeros ds
    if style.lowest ≤ e ∧ e < style.limit then positional ds (e + 1) else scientific ds e

def signText (negative : Bool) : List Char := if negative then ['-'] else []

def Binary64.text (style : RealStyle) : Binary64 → List Char
  | .nan => style.nan.toList
  | .infinity s => signText s ++ style.infinity.toList
  | .finite s u _ => signText s ++ magnitudeText style u

def hundredthsText (n : Nat) : List Char :=
  let frac := numeral (n % 100)
  numeral (n / 100) ++ '.' :: (if frac.length < 2 then '0' :: frac else frac)

/-- The exact value to two places, a half to the even neighbour. The sign of a value that rounds to
zero is kept. -/
def Binary64.fixedText (style : RealStyle) : Binary64 → List Char
  | .finite s u _ => signText s ++ hundredthsText (roundQuotient (u * 100) unitsPerOne)
  | x => x.text style

def Binary64.roundHundredths : Binary64 → Binary64
  | .finite s u _ => ofRatio s (roundQuotient (u * 100) unitsPerOne) 100
  | x => x

def intText (i : Int) : List Char := signText (decide (i < 0)) ++ numeral i.natAbs

end Mockup.Number
