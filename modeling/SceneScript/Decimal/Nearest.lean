import SceneScript.Decimal.Basic

/-!
# The double nearest to a number

Reading a numeral means choosing a double, and the choice is fixed: the nearest
one, the even one of two that are equally near, and an infinity when the nearest
would need an exponent that doubles do not have. **The choice is made by exact
arithmetic on naturals**; no step of it is itself rounded.

A double without its sign is a natural number, its bits. `decode` says which
magnitude `m * 2 ^ e` the bits stand for and `nearest` goes the other way.
-/

set_option autoImplicit false

namespace SceneScript
namespace Binary64

/-- How many magnitudes have one exponent: `2 ^ 52`. -/
def perExponent : Nat := 0x10000000000000

/-- The weight of the sign among the bits: `2 ^ 63`. -/
def signBit : Nat := 0x8000000000000000

/-- The bits of the infinity, the first that are no magnitude. -/
def infinityBits : Nat := 2047 * perExponent

/-- The magnitude `m * 2 ^ e` of a finite double, from its bits without the sign. -/
def decode (bits : Nat) : Nat × Int :=
  let e : Nat := bits / perExponent
  let f : Nat := bits % perExponent
  if e = 0 then (f, -1074) else (perExponent + f, (e : Int) - 1075)

/-- The quotient rounded to the nearest whole number, the even one on a tie. -/
def roundHalfEven (n d : Nat) : Nat :=
  let q := n / d
  let r := n % d
  if 2 * r < d then q
  else if d < 2 * r then q + 1
  else if q % 2 = 0 then q
  else q + 1

/-- The power of two that the last bit of the nearest double stands for: the one
    that leaves 53 bits before the point, but no finer than doubles can be. -/
def lastPlace (n d : Nat) : Int :=
  let e : Int := (n.log2 : Int) - d.log2 - 53
  let e := if n * Nat.pow 2 (-e).toNat < d * Nat.pow 2 e.toNat * (2 * perExponent) then e else e + 1
  max e (-1074)

/-- The bits of the double nearest to `n / d`. A carry out of the significand
    runs into the exponent, which is just where it belongs. -/
def nearest (n d : Nat) : Nat :=
  if n = 0 then 0
  else
    let e := lastPlace n d
    let m := roundHalfEven (n * Nat.pow 2 (-e).toNat) (d * Nat.pow 2 e.toNat)
    min infinityBits ((e + 1074).toNat * perExponent + m)

/-- The bits of the double nearest to `digits * 10 ^ exponent`. Powers that lie
    beyond every double are answered without being computed. -/
def ofScientific (digits : Nat) (exponent : Int) : Nat :=
  if digits = 0 then 0
  else if 400 < exponent then infinityBits
  else if (digits.log2 : Int) + 1 + 3 * exponent < -1080 then 0
  else nearest (digits * Nat.pow 10 exponent.toNat) (Nat.pow 10 (-exponent).toNat)

/-- A sign and the bits of a magnitude make a double. -/
def toFloat (negative : Bool) (bits : Nat) : Float :=
  Float.ofBits (UInt64.ofNat (if negative then signBit + bits else bits))

/-- The sign of a double. -/
def isNegative (x : Float) : Bool := decide (signBit ≤ x.toBits.toNat)

/-- The bits of a double without its sign. -/
def magnitude (x : Float) : Nat := x.toBits.toNat % signBit

end Binary64

/-- The double nearest to the numeral. -/
def Decimal.toFloat (d : Decimal) : Float :=
  Binary64.toFloat d.negative (Binary64.ofScientific d.digits d.exponent)

end SceneScript
