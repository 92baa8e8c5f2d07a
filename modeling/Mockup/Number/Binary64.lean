namespace Mockup.Number

/-- The quotient of two naturals rounded to the nearest natural, a half to the even neighbour. -/
def roundQuotient (n d : Nat) : Nat :=
  let q := n / d
  let r := n % d
  if 2 * r < d then q
  else if d < 2 * r then q + 1
  else if q % 2 = 0 then q else q + 1

def unitsPerOne : Nat := Nat.pow 2 1074

def Representable (units : Nat) : Prop :=
  units < Nat.pow 2 2098 ∧ units % Nat.pow 2 (units.log2 - 52) = 0

instance (units : Nat) : Decidable (Representable units) := by
  unfold Representable
  infer_instance

inductive Binary64 where
  | nan
  | infinity (negative : Bool)
  | finite (negative : Bool) (units : Nat) (representable : Representable units)
  deriving DecidableEq, Repr

namespace Binary64

/-- The number of low bits dropped from the quotient `n / d` to leave 53 significant ones. -/
def droppedBits (n d : Nat) : Nat := (n / d).log2 - 52

def roundUnits (n d : Nat) : Nat :=
  let k := droppedBits n d
  roundQuotient n (d * Nat.pow 2 k) * Nat.pow 2 k

/-- The value nearest to `n / d` units; beyond the greatest finite value it is infinite. -/
def ofUnits (negative : Bool) (n d : Nat) : Binary64 :=
  let units := roundUnits n d
  if h : Representable units then .finite negative units h else .infinity negative

def ofRatio (negative : Bool) (n d : Nat) : Binary64 := ofUnits negative (n * unitsPerOne) d

def ofInt (i : Int) : Binary64 := ofRatio (decide (i < 0)) i.natAbs 1

def zero (negative : Bool) : Binary64 := ofUnits negative 0 1

def isFinite : Binary64 → Bool
  | .finite .. => true
  | _ => false

def isNaN : Binary64 → Bool
  | .nan => true
  | _ => false

def isNegative : Binary64 → Bool
  | .nan => false
  | .infinity s => s
  | .finite s .. => s

def signedUnits (negative : Bool) (units : Nat) : Int :=
  if negative then -(units : Int) else units

def neg : Binary64 → Binary64
  | .nan => .nan
  | .infinity s => .infinity !s
  | .finite s u h => .finite (!s) u h

def abs : Binary64 → Binary64
  | .nan => .nan
  | .infinity _ => .infinity false
  | .finite _ u h => .finite false u h

def add : Binary64 → Binary64 → Binary64
  | .nan, _ | _, .nan => .nan
  | .infinity s, .infinity t => if s = t then .infinity s else .nan
  | .infinity s, _ => .infinity s
  | _, .infinity t => .infinity t
  | .finite s u _, .finite t v _ =>
    let total := signedUnits s u + signedUnits t v
    if total = 0 then zero (s && t) else ofUnits (decide (total < 0)) total.natAbs 1

def sub (x y : Binary64) : Binary64 := x.add y.neg

def mul : Binary64 → Binary64 → Binary64
  | .nan, _ | _, .nan => .nan
  | .infinity s, .infinity t => .infinity (s != t)
  | .infinity s, .finite t v _ => if v = 0 then .nan else .infinity (s != t)
  | .finite s u _, .infinity t => if u = 0 then .nan else .infinity (s != t)
  | .finite s u _, .finite t v _ => ofUnits (s != t) (u * v) unitsPerOne

/-- A quotient; the divisor is not a zero. -/
def div : Binary64 → Binary64 → Binary64
  | .nan, _ | _, .nan => .nan
  | .infinity _, .infinity _ => .nan
  | .infinity s, .finite t .. => .infinity (s != t)
  | .finite s .., .infinity t => zero (s != t)
  | .finite s u _, .finite t v _ => ofUnits (s != t) (u * unitsPerOne) v

def mod : Binary64 → Binary64 → Binary64
  | .finite s u _, .finite t v _ =>
    let r := u % v
    if r = 0 then zero t
    else if s = t then ofUnits s r 1
    else (ofUnits s r 1).add (ofUnits t v 1)
  | _, _ => .nan

def isZero : Binary64 → Bool
  | .finite _ u _ => u == 0
  | _ => false

def isInteger : Binary64 → Bool
  | .finite _ u _ => u % unitsPerOne == 0
  | _ => false

def floor? : Binary64 → Option Int
  | .finite s u _ => some (Int.fdiv (signedUnits s u) unitsPerOne)
  | _ => none

def round? : Binary64 → Option Int
  | .finite s u _ => some (signedUnits s (roundQuotient u unitsPerOne))
  | _ => none

def truncate? : Binary64 → Option Int
  | .finite s u _ => some (signedUnits s (u / unitsPerOne))
  | _ => none

end Binary64

end Mockup.Number
