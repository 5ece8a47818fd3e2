import SceneScript.Scalar
import SceneScript.Text.Blank
import SceneScript.Text.Numeral

/-!
# Numbers that texts write

A text that writes a number is taken for the number. For a whole number the text is put
in its **plain form** first: without the space around it, a plus, zeros in front, a
fraction of zeros, and underscores inside. Only the plain form is read, so a text that is
in it already is read as it stands.

The number of digits is limited, and a text that opens with too many of them is a problem
of its own.
-/

set_option autoImplicit false

namespace SceneScript
namespace Validation

/-- White space around a number in a text: the blanks but for the four separators. -/
def isSpace (c : Char) : Bool := Text.isBlank c && !(0x1C ≤ c.toNat && c.toNat ≤ 0x1F)

/-- The text without the white space around it. -/
def stripSpace (s : List Char) : List Char :=
  ((s.dropWhile isSpace).reverse.dropWhile isSpace).reverse

/-! ## Whole numbers -/

/-- A minus in front, if there is one, and what stands behind it. -/
def splitMinus (s : List Char) : List Char × List Char :=
  if s.head? = some '-' then (['-'], s.tail) else ([], s)

/-- A digit that a number without zeros in front starts with. -/
def isLeadingDigit (c : Char) : Bool := c.isDigit && c != '0'

/-- The whole number in its plain form: a minus perhaps, and digits without a zero in
    front of others, `Text.maxDigits` of them at most. -/
def plainWhole? (s : List Char) : Option Int :=
  let (minus, digits) := splitMinus s
  if Text.isDigits digits ∧ (digits = ['0'] ∨ digits.head? ≠ some '0')
      ∧ digits.length ≤ Text.maxDigits then
    some (Text.signed (!minus.isEmpty) (Text.ofDigits (Text.digitValues digits)))
  else none

/-- The text opens with a number in its plain form that has too many digits. -/
def opensTooLong (s : List Char) : Bool :=
  let digits := (splitMinus s).2.takeWhile Char.isDigit
  digits.head?.any isLeadingDigit && decide (Text.maxDigits < digits.length)

/-- What is left behind a zero, and underscores and further zeros after it. A minus may
    follow them. The last of them stays if nothing else does, or if a point follows. -/
def afterZeros? (last : Char) : List Char → Option (List Char)
  | [] => some [last]
  | c :: s =>
    if c = '0' ∨ c = '_' then afterZeros? c s
    else if isLeadingDigit c ∨ c = '-' then some (c :: s)
    else if c = '.' then some (last :: c :: s)
    else none

/-- The text without zeros in front. It has to start with a digit or a minus. -/
def withoutLeadingZeros? (s : List Char) : Option (List Char) :=
  match s with
  | [] => none
  | c :: r =>
    if c = '0' then afterZeros? c r
    else if isLeadingDigit c ∨ c = '-' then some s
    else none

/-- The text without a point that only zeros follow. -/
def withoutZeroFraction (s : List Char) : List Char :=
  let fraction := (s.dropWhile (· != '.')).drop 1
  if fraction ≠ [] ∧ fraction.all (· == '0') then s.takeWhile (· != '.') else s

/-- A text that writes a whole number, in the plain form: without the space around it, a
    plus, zeros in front, a fraction of zeros, and underscores inside. -/
def plainForm? (s : List Char) : Option (List Char) :=
  let trimmed := stripSpace s
  if ['+', '-'].isPrefixOf trimmed then none
  else
    let (minus, unsigned) := splitMinus (if trimmed.head? = some '+' then trimmed.tail else trimmed)
    (withoutLeadingZeros? unsigned).bind fun rest =>
      Text.withoutUnderscores? (withoutZeroFraction (minus ++ rest))

/-- The whole number that a text writes. -/
def wholeOfText? (s : List Char) : Option Int := (plainForm? s).bind plainWhole?

/-! ## Reals -/

/-- The names of values that are no numbers, in small letters. -/
def nonFiniteNames : List (List Char × NonFinite) :=
  [("inf".toList, .infinity), ("infinity".toList, .infinity), ("nan".toList, .nan)]

/-- A numeral: digits with a point before, among or behind them, and perhaps a power of
    ten. -/
def numeralOfText? (negative : Bool) (s : List Char) : Option Decimal :=
  let mantissa := s.takeWhile fun c => c != 'e' && c != 'E'
  let whole := mantissa.takeWhile (· != '.')
  let fraction := (mantissa.dropWhile (· != '.')).drop 1
  let power? : Option Int :=
    match s.dropWhile fun c => c != 'e' && c != 'E' with
    | [] => some 0
    | _ :: r =>
      let (down, digits) := Text.splitSign r
      if Text.isDigits digits then
        some (Text.signed down (Text.ofDigits (Text.digitValues digits)))
      else none
  power?.bind fun power =>
    if Text.isDigits (whole ++ fraction) then
      some ⟨negative, Text.ofDigits (Text.digitValues (whole ++ fraction)), power - fraction.length⟩
    else none

section Reals

variable {α : Type} [Scalar α]

/-- The real that a text writes, without space around it. -/
def plainRealOfText? (s : List Char) : Option α :=
  let (negative, unsigned) := Text.splitSign s
  match nonFiniteNames.find? fun entry => entry.1 == unsigned.map Char.toLower with
  | some (_, name) =>
    match name with
    | .infinity => Scalar.nonFinite? (if negative then .negativeInfinity else .infinity)
    | name => Scalar.nonFinite? name
  | none => (numeralOfText? negative unsigned).map Scalar.ofDecimal

/-- The real that a text writes. Either white space stands around it or underscores
    divide it. -/
def realOfText? (s : List Char) : Option α :=
  match plainRealOfText? (stripSpace s) with
  | some x => some x
  | none => if s.contains '_' then (Text.withoutUnderscores? s).bind plainRealOfText? else none

end Reals

end Validation
end SceneScript
