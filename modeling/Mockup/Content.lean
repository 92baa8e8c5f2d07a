import Mockup.Text.Scan

namespace Mockup.Content

def currencySymbols : List Char := ['₽', '$', '€', '£', '¥', '₴', '₸', '₿']

def paymentBrands : List String :=
  ["МИР", "MIR", "MasterCard", "Visa", "СБП", "SBP", "Maestro", "UnionPay", "AmEx",
    "American Express", "JCB"]

def cyrillicMonths : List String :=
  ["январ", "феврал", "март", "апрел", "ма", "июн", "июл", "август", "сентябр", "октябр", "ноябр",
    "декабр"]

def latinMonths : List String :=
  ["january", "february", "march", "april", "may", "june", "july", "august", "september", "october",
    "november", "december", "jan", "feb", "mar", "apr", "jun", "jul", "aug", "sep", "sept", "oct",
    "nov", "dec"]

def digitCount (cs : List Char) : Nat := cs.countP Char.isDigit

def hasDigit (cs : List Char) : Bool := cs.any Char.isDigit

/-- Somewhere a blank stands between two digits. -/
def hasGroups : List Char → Bool
  | a :: b :: c :: rest =>
    (a.isDigit && Text.isBlank b && c.isDigit) || hasGroups (b :: c :: rest)
  | _ => false

def isPrice (cs : List Char) : Bool := cs.any currencySymbols.contains && hasDigit cs

/-- A sign and a short number; in groups it may be longer. -/
def isAmount (cs : List Char) : Bool :=
  match cs with
  | [] => false
  | sign :: rest =>
    ['+', '-', '−'].contains sign && !rest.isEmpty &&
      rest.all (fun c => c.isDigit || Text.isBlank c) && hasDigit rest &&
      decide (digitCount rest ≤ if hasGroups rest then 7 else 4)

def isCardBrand (cs : List Char) : Bool :=
  paymentBrands.any fun brand => Text.lowerChars cs == Text.lowerChars brand.toList

/-- Exactly four digits after dots or stars that hide others. -/
def isCardEnd (cs : List Char) : Bool :=
  let rest := Text.skip (fun c => ['•', '·', '*'].contains c || Text.isBlank c) cs
  let digits := rest.takeWhile Char.isDigit
  digits.length == 4 && Text.atEnd (rest.drop 4)

def isDate (cs : List Char) : Bool :=
  let lowered := Text.lowerChars cs
  hasDigit lowered &&
    (cyrillicMonths ++ latinMonths).any fun month => Text.occursIn month.toList lowered

def isPhone (cs : List Char) : Bool :=
  match cs with
  | '+' :: d :: rest =>
    d.isDigit && decide (7 ≤ rest.length) &&
      rest.all (fun c => c.isDigit || Text.isBlank c || ['-', '(', ')', '.'].contains c) &&
      decide (7 ≤ digitCount cs)
  | _ => false

def isPercentage (cs : List Char) : Bool :=
  let allowed (c : Char) : Bool := c.isDigit || Text.isBlank c || c == ',' || c == '.'
  !(cs.takeWhile allowed).isEmpty && hasDigit cs &&
    match cs.dropWhile allowed with
    | '%' :: rest => Text.atEnd rest
    | _ => false

inductive Pattern where
  | price
  | amount
  | cardBrand
  | cardLastDigits
  | date
  | phone
  | percentage
  deriving DecidableEq

namespace Pattern

def name : Pattern → String
  | .price => "price"
  | .amount => "amount"
  | .cardBrand => "cardBrand"
  | .cardLastDigits => "cardLastDigits"
  | .date => "date"
  | .phone => "phone"
  | .percentage => "percentage"

def all : List Pattern := [.price, .amount, .cardBrand, .cardLastDigits, .date, .phone, .percentage]

def accepts : Pattern → List Char → Bool
  | .price => isPrice
  | .amount => isAmount
  | .cardBrand => isCardBrand
  | .cardLastDigits => isCardEnd
  | .date => isDate
  | .phone => isPhone
  | .percentage => isPercentage

end Pattern

def detect (text : String) : Option Pattern :=
  let cs := Text.trimChars text.toList
  if cs.isEmpty then none else Pattern.all.find? fun p => p.accepts cs

end Mockup.Content
