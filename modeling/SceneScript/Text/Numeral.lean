import SceneScript.Text.DecimalDigit

/-!
# Numerals in free text

Outside JSON a number may be written more freely: with a plus, with zeros in front, with
underscores between its digits. The pieces of such a numeral are taken apart here.
-/

set_option autoImplicit false

namespace SceneScript
namespace Text

/-- Whether a minus stands in front, and what stands behind the sign. -/
def splitSign (s : List Char) : Bool × List Char :=
  match s with
  | [] => (false, [])
  | c :: r => if c = '-' then (true, r) else if c = '+' then (false, r) else (false, s)

/-- No underscore stands at the end or before another one. -/
def underscoresFollowed : List Char → Bool
  | [] => true
  | c :: s => (c != '_' || (match s with | [] => false | d :: _ => d != '_'))
      && underscoresFollowed s

/-- The text without its underscores, if each of them stands between two other
    characters. -/
def withoutUnderscores? (s : List Char) : Option (List Char) :=
  if s.head? ≠ some '_' ∧ underscoresFollowed s then some (s.filter (· != '_')) else none

/-- The text is not empty and all digits. -/
def isDigits (s : List Char) : Bool := !s.isEmpty && s.all Char.isDigit

/-- The values of decimal digits. -/
def digitValues (s : List Char) : List Nat := s.map fun c => c.toNat - '0'.toNat

/-- A whole number with its sign. -/
def signed (negative : Bool) (n : Nat) : Int := if negative then -(n : Int) else n

/-- The value of a hexadecimal digit. -/
def hexValue? (c : Char) : Option Nat :=
  if '0' ≤ c ∧ c ≤ '9' then some (c.toNat - '0'.toNat)
  else if 'a' ≤ c ∧ c ≤ 'f' then some (c.toNat - 'a'.toNat + 10)
  else if 'A' ≤ c ∧ c ≤ 'F' then some (c.toNat - 'A'.toNat + 10)
  else none

end Text
end SceneScript
