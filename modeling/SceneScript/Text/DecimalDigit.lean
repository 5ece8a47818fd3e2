import SceneScript.Text.Ranges

/-!
# Decimal digits of every script

A decimal digit of any writing system stands for its value, so `٣` and `３` are
read as 3. Unicode lays the ten digits of a system out in a row, which is why
the table needs only the place of each zero.

Reading a number has a length limit: a text of more than `maxDigits` digits is
refused rather than read.
-/

set_option autoImplicit false

namespace SceneScript
namespace Text

/-- The code points of the digit zero, one for each run of ten digits, Unicode 14. -/
def digitZeros : List Nat :=
  [0x30, 0x660, 0x6F0, 0x7C0, 0x966, 0x9E6, 0xA66, 0xAE6, 0xB66, 0xBE6, 0xC66, 0xCE6, 0xD66,
   0xDE6, 0xE50, 0xED0, 0xF20, 0x1040, 0x1090, 0x17E0, 0x1810, 0x1946, 0x19D0, 0x1A80, 0x1A90,
   0x1B50, 0x1BB0, 0x1C40, 0x1C50, 0xA620, 0xA8D0, 0xA900, 0xA9D0, 0xA9F0, 0xAA50, 0xABF0,
   0xFF10, 0x104A0, 0x10D30, 0x11066, 0x110F0, 0x11136, 0x111D0, 0x112F0, 0x11450, 0x114D0,
   0x11650, 0x116C0, 0x11730, 0x118E0, 0x11950, 0x11C50, 0x11D50, 0x11DA0, 0x16A60, 0x16AC0,
   0x16B50, 0x1D7CE, 0x1D7D8, 0x1D7E2, 0x1D7EC, 0x1D7F6, 0x1E140, 0x1E2F0, 0x1E950, 0x1FBF0]

/-- The value of a decimal digit. -/
def digitValue? (c : Char) : Option Nat :=
  digitZeros.findSome? fun first =>
    if first ≤ c.toNat ∧ c.toNat < first + 10 then some (c.toNat - first) else none

/-- The values of the digits that a text starts with. -/
def leadingDigits : List Char → List Nat
  | [] => []
  | c :: s =>
    match digitValue? c with
    | some d => d :: leadingDigits s
    | none => []

/-- The number that a row of digits writes, the first digit weighing most. -/
def ofDigits (digits : List Nat) : Nat := digits.foldl (fun n d => 10 * n + d) 0

/-- The most digits that a whole number may be written with. -/
def maxDigits : Nat := 4300

/-- A whole number was written with more digits than `maxDigits`. -/
structure TooManyDigits where
  count : Nat
deriving Repr, DecidableEq

def TooManyDigits.message (e : TooManyDigits) : String :=
  "Exceeds the limit (4300 digits) for integer string conversion: value has "
    ++ toString e.count
    ++ " digits; use sys.set_int_max_str_digits() to increase the limit"

/-- The number that a row of digits writes, unless the row is too long. -/
def readDigits (digits : List Nat) : Except TooManyDigits Nat :=
  if digits.length ≤ maxDigits then .ok (ofDigits digits) else .error ⟨digits.length⟩

end Text
end SceneScript
