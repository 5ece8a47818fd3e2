import SceneScript.Decimal.Shortest

/-!
# The numbers a scene is computed in

Positions, angles and filter values are computed in **doubles**. What the
computations mean is easier to say in **exact rationals**: there a value rounded
twice is a value rounded once, and a figure stands exactly on the floor. So the
transforms, the curves and the placement are written once, over any type that
has the operations of this module, and both types have them.

The operations are few. Whole numbers and numerals come in, the greatest whole
number below a value goes out, and between them are the four operations and the
order. Division is the plain one; where a zero divisor has to be reported,
`divide?` looks first.
-/

set_option autoImplicit false

namespace SceneScript

/-- The values of a number type that are no numbers. -/
inductive NonFinite where
  | nan
  | infinity
  | negativeInfinity
deriving Repr, DecidableEq

/-- A number type to compute scenes in. -/
class Scalar (α : Type) extends Add α, Sub α, Mul α, Div α, LT α, LE α where
  decLt : DecidableLT α
  decLe : DecidableLE α
  /-- A small whole number, one that every scalar type holds. -/
  ofNat : Nat → α
  /-- The nearest value to a whole number, if there is one in range. -/
  ofInt? : Int → Option α
  /-- The nearest value to a numeral. -/
  ofDecimal : Decimal → α
  /-- A value that is no number, if the type has it. -/
  nonFinite? : NonFinite → Option α
  /-- The greatest whole number that is not above the value. -/
  floor : α → Except NonFinite Int

attribute [reducible, instance] Scalar.decLt Scalar.decLe

/-- A number type whose finite values can be written as numerals. -/
class WrittenScalar (α : Type) extends Scalar α where
  toDecimal : α → Decimal

namespace Scalar

variable {α : Type} [Scalar α]

/-- Neither a NaN nor an infinity. -/
def isFinite (x : α) : Bool :=
  match floor x with
  | .ok _ => true
  | .error _ => false

/-- Zero, of either sign. -/
def isZero (x : α) : Bool := decide (x ≤ ofNat 0) && decide (ofNat 0 ≤ x)

/-- The value as a whole number, if it is one. -/
def whole? (x : α) : Option Int :=
  match floor x with
  | .ok n =>
    match ofInt? n with
    | some (y : α) => if x ≤ y then some n else none
    | none => none
  | .error _ => none

/-- Of two values the first, unless the second is less. -/
def least (x y : α) : α := if y < x then y else x

/-- Of two values the first, unless the second is greater. -/
def greatest (x y : α) : α := if x < y then y else x

/-- The value cut off below zero and above one. -/
def clamp (x : α) : α := greatest (ofNat 0) (least (ofNat 1) x)

/-- The quotient, or nothing for a zero divisor. -/
def divide? (x y : α) : Option α := if isZero y then none else some (x / y)

/-- The value is not below the whole number. An infinity compares by its sign. -/
def atLeast (x : α) (n : Int) : Bool :=
  match floor x with
  | .ok k => decide (n ≤ k)
  | .error _ => decide (ofNat 0 < x)

end Scalar

/-! ## Doubles -/

/-- The greatest whole number that is not above a double, by exact arithmetic on
    its bits. -/
def Binary64.floor (x : Float) : Except NonFinite Int :=
  let bits := magnitude x
  if infinityBits < bits then .error .nan
  else if bits = infinityBits then
    .error (if isNegative x then .negativeInfinity else .infinity)
  else
    let (m, e) := decode bits
    let n : Int := m * Nat.pow 2 e.toNat
    .ok ((if isNegative x then -n else n) / (Nat.pow 2 (-e).toNat : Nat))

/-- The double nearest to a whole number, unless it lies beyond the greatest one. -/
def Binary64.ofInt? (n : Int) : Option Float :=
  let bits := nearest n.natAbs 1
  if bits < infinityBits then some (toFloat (decide (n < 0)) bits) else none

/-- The bits of a double that is no number. -/
def Binary64.ofNonFinite : NonFinite → Float
  | .nan => toFloat false (infinityBits + perExponent / 2)
  | .infinity => toFloat false infinityBits
  | .negativeInfinity => toFloat true infinityBits

instance : WrittenScalar Float where
  decLt := inferInstance
  decLe := inferInstance
  ofNat n := Binary64.toFloat false (Binary64.nearest n 1)
  ofInt? := Binary64.ofInt?
  ofDecimal := Decimal.toFloat
  nonFinite? x := some (Binary64.ofNonFinite x)
  floor := Binary64.floor
  toDecimal := Decimal.ofFloat

/-! ## Exact rationals -/

/-- The value of a numeral. -/
def Decimal.toRat (d : Decimal) : Rat :=
  let m : Rat := (d.digits : Rat) * (10 : Rat) ^ d.exponent
  if d.negative then -m else m

instance : Scalar Rat where
  decLt := inferInstance
  decLe := inferInstance
  ofNat n := (n : Rat)
  ofInt? n := some (n : Rat)
  ofDecimal := Decimal.toRat
  nonFinite? _ := none
  floor x := .ok x.floor

end SceneScript
