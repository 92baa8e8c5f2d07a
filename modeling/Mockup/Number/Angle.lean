import Mockup.Number

namespace Mockup.Number.Angle

/-- The remaining terms of Euler's series, whose factor from each to the next is
`2 k y^2 / ((2 k + 1) (x^2 + y^2))`. -/
def seriesFrom (yy s : Nat) : Nat → Nat → Nat → Nat
  | 0, _, _ => 0
  | fuel + 1, k, term =>
    if term = 0 then 0
    else term + seriesFrom yy s fuel (k + 1) (term * yy * (2 * k) / (s * (2 * k + 1)))

/-- The arctangent of `y / x` with the given number of binary places, for `y` at most `x`. Each term
is at most half of the one before. -/
def arctangent (bits y x : Nat) : Nat :=
  let s := x * x + y * y
  seriesFrom (y * y) s (bits + 1) 1 (x * y * Nat.pow 2 bits / s)

def halfTurn (bits : Nat) : Nat := 4 * arctangent bits 1 1

/-- The angle in radians from the first axis to `(x, y)`, where only the sign of `x` is apart from
its size. -/
def angleTo (bits : Nat) (y x : Nat) (backwards : Bool) : Nat :=
  let a := if y ≤ x then arctangent bits y x else halfTurn bits / 2 - arctangent bits x y
  if backwards then halfTurn bits - a else a

/-- The size of a coordinate; an infinite one outweighs all others. -/
def extent : Binary64 → Nat → Nat
  | .finite _ u _, scale => u * scale
  | .infinity _, _ => 1
  | .nan, _ => 0

def radians (y x : Binary64) : Binary64 :=
  if y.isNaN || x.isNaN then .nan
  else
    let scale := if y.isFinite && x.isFinite then 1 else 0
    let h := extent y scale
    let w := extent x scale
    let bits := 160 + (w.log2 - h.log2)
    Binary64.ofRatio y.isNegative (angleTo bits h w x.isNegative) (Nat.pow 2 bits)

def degreesPerRadian : Binary64 := .ofDecimal false ⟨5729577951308232, -14⟩

def fullTurn : Binary64 := .ofInt 360

/-- The direction of a step in degrees, clockwise from upwards, from 0 to 360 with two places. A
coordinate grows to the right or downwards. -/
def direction (dx dy : Binary64) : Binary64 :=
  (((radians dx dy.neg).mul degreesPerRadian).mod fullTurn).roundHundredths

end Mockup.Number.Angle
