import Mockup.Number.Decimal

namespace Mockup

inductive NumberFault where
  /-- an integer is beyond the range of reals -/
  | tooLarge
  /-- an infinite real has no integer part -/
  | infinite
  /-- an undefined real has no integer part -/
  | undefined
  | divisionByZero
  /-- a number was given as null -/
  | missing
  deriving DecidableEq, Repr

inductive Number where
  | int (value : Int)
  | real (value : Number.Binary64)
  deriving DecidableEq, Repr

namespace Number

instance : Inhabited Number := ⟨.int 0⟩

instance {n : Nat} : OfNat Number n := ⟨.int n⟩

abbrev Result (α : Type) := Except NumberFault α

def fraction (n d : Nat) : Number := .real (Binary64.ofRatio false n d)

def known (n : Option Number) : Result Number :=
  match n with
  | some n => .ok n
  | none => .error .missing

def toReal : Number → Result Binary64
  | .real x => .ok x
  | .int i =>
    let x := Binary64.ofInt i
    if x.isFinite then .ok x else .error .tooLarge

def onReals (f : Binary64 → Binary64 → Binary64) (a b : Number) : Result Number := do
  let x ← a.toReal
  let y ← b.toReal
  return .real (f x y)

def add : Number → Number → Result Number
  | .int i, .int j => .ok (.int (i + j))
  | a, b => onReals .add a b

def sub : Number → Number → Result Number
  | .int i, .int j => .ok (.int (i - j))
  | a, b => onReals .sub a b

def mul : Number → Number → Result Number
  | .int i, .int j => .ok (.int (i * j))
  | a, b => onReals .mul a b

def isZero : Number → Bool
  | .int i => i == 0
  | .real x => x.isZero

/-- The quotient as a real. Of two integers it is rounded once, even when they are themselves
beyond the range of reals. -/
def div (a b : Number) : Result Number :=
  if b.isZero then .error .divisionByZero
  else match a, b with
    | .int i, .int j =>
      let q := Binary64.ofRatio (decide (i < 0) != decide (j < 0)) i.natAbs j.natAbs
      if q.isFinite then .ok (.real q) else .error .tooLarge
    | a, b => onReals .div a b

def abs : Number → Number
  | .int i => .int i.natAbs
  | .real x => .real x.abs

/-- Where a number stands on the line: an undefined real nowhere. -/
inductive Place where
  | nowhere
  | below
  | point (units : Int)
  | above

def place : Number → Place
  | .int i => .point (i * Binary64.signedUnits false unitsPerOne)
  | .real .nan => .nowhere
  | .real (.infinity true) => .below
  | .real (.infinity false) => .above
  | .real (.finite s u _) => .point (Binary64.signedUnits s u)

def lt (a b : Number) : Bool :=
  match a.place, b.place with
  | .nowhere, _ | _, .nowhere => false
  | .below, .below | .above, .above => false
  | .below, _ | _, .above => true
  | .above, _ | _, .below => false
  | .point u, .point v => decide (u < v)

def eq (a b : Number) : Bool :=
  match a.place, b.place with
  | .below, .below | .above, .above => true
  | .point u, .point v => decide (u = v)
  | _, _ => false

def le (a b : Number) : Bool := a.lt b || a.eq b

def max (a b : Number) : Number := if a.lt b then b else a

def min (a b : Number) : Number := if b.lt a then b else a

def maximum (a : Number) (rest : List Number) : Number := rest.foldl max a

def minimum (a : Number) (rest : List Number) : Number := rest.foldl min a

def sum (ns : List Number) : Result Number := ns.foldlM add 0

def integral (x : Binary64) (i : Option Int) : Result Int :=
  match i with
  | some i => .ok i
  | none => .error (if x.isNaN then .undefined else .infinite)

/-- The nearest integer, a half upwards. The half is added to the number as a real. -/
def roundHalfUp (a : Number) : Result Int := do
  let x := (← a.toReal).add (Binary64.ofRatio false 1 2)
  integral x x.floor?

def roundHalfEven : Number → Result Int
  | .int i => .ok i
  | .real x => integral x x.round?

def truncate : Number → Result Int
  | .int i => .ok i
  | .real x => integral x x.truncate?

def normalize : Number → Number
  | .int i => .int i
  | .real x => if x.isInteger then (x.floor?.map Number.int).getD (.real x) else .real x

def text (style : RealStyle) : Number → List Char
  | .int i => intText i
  | .real x => x.text style

end Number

end Mockup
