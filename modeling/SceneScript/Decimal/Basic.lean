/-!
# Decimal numerals

A numeral as it is written: a sign, a whole number of digits and a power of ten.
It is exact, and it is what the reader of numbers hands over and what the writer
of numbers chooses. How it becomes text is decided here once.

Numerals are laid out positionally while the leading digit stands between the
ten-thousandths and the place of `10 ^ 15`; further out they are written with an
exponent of at least two digits. A positional numeral always shows a point.
-/

set_option autoImplicit false

namespace SceneScript

/-- `± digits * 10 ^ exponent`. -/
structure Decimal where
  negative : Bool
  digits : Nat
  exponent : Int
deriving Repr, DecidableEq

namespace Decimal

/-- The place of the leading digit, as a power of ten. -/
def leadingPlace (d : Decimal) : Int :=
  d.exponent + (Nat.toDigits 10 d.digits).length - 1

/-- Leading places that are written positionally run from here … -/
def positionalFrom : Int := -4

/-- … to below here. -/
def positionalBelow : Int := 16

/-- The digits with the point in its place, the unit at power zero. -/
def positional (d : Decimal) : List Char :=
  let ds := Nat.toDigits 10 d.digits
  let place := d.exponent + ds.length
  if 0 ≤ d.exponent then ds ++ List.replicate d.exponent.toNat '0' ++ ['.', '0']
  else if 0 < place then ds.take place.toNat ++ '.' :: ds.drop place.toNat
  else '0' :: '.' :: (List.replicate (-place).toNat '0' ++ ds)

/-- The leading digit, the others behind a point, and the power of ten. -/
def scientific (d : Decimal) : List Char :=
  let place := d.leadingPlace
  let mantissa :=
    match Nat.toDigits 10 d.digits with
    | [] => []
    | [c] => [c]
    | c :: r => c :: '.' :: r
  let power := Nat.toDigits 10 place.natAbs
  mantissa ++ 'e' :: (if place < 0 then '-' else '+')
    :: (List.replicate (2 - power.length) '0' ++ power)

/-- The numeral as text. -/
def text (d : Decimal) : List Char :=
  let unsigned :=
    if positionalFrom ≤ d.leadingPlace ∧ d.leadingPlace < positionalBelow then d.positional
    else d.scientific
  if d.negative then '-' :: unsigned else unsigned

end Decimal
end SceneScript
