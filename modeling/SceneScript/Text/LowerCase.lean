import SceneScript.Text.LowerCase.Table

/-!
# Lower case

The lower case of a text, by the full rules of Unicode. Two of them look beyond one
letter: the capital I with a dot becomes an i and a combining dot, and a capital sigma
becomes the final form at the end of a word, that is, where the nearest character
with a case stands before it and none stands behind it.
-/

set_option autoImplicit false

namespace SceneScript
namespace Text

/-- The capital is in the row. -/
def CapitalRow.has (row : CapitalRow) (n : Nat) : Bool :=
  decide (row.first ≤ n) && decide (n ≤ row.last) && (n - row.first) % row.stride == 0

/-- The lower case of one character that does not depend on its neighbours. -/
def lowerChar (c : Char) : Char :=
  match capitalRows.find? fun row => row.has c.toNat with
  | some row => Char.ofNat (c.toNat + row.shift).toNat
  | none => c

def isCaseIgnorable (c : Char) : Bool := caseIgnorableRanges.has c

/-- The nearest character of the list that is not passed over has a case. -/
def casedNext (s : List Char) : Bool :=
  match s.dropWhile isCaseIgnorable with
  | [] => false
  | c :: _ => casedRanges.has c

/-- The lower case of a text. `before` holds the characters already passed, the
    nearest first. -/
def lowerFrom (before : List Char) : List Char → List Char
  | [] => []
  | c :: s =>
    let lowered :=
      if c = '\u0130' then ['i', '\u0307']
      else if c = '\u03a3' then
        [if casedNext before && !casedNext s then '\u03c2' else '\u03c3']
      else [lowerChar c]
    lowered ++ lowerFrom (c :: before) s

def lower (s : List Char) : List Char := lowerFrom [] s

end Text
end SceneScript
