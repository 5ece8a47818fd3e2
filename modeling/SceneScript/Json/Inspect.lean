import SceneScript.Json.Basic
import SceneScript.Text.Quoted

/-!
# Values as they are shown to a person

Where a value stands in a message or serves as a name, it is shown rather than
written: a string as itself, and inside a list or a table in quotes; the constants
with capitals; a non-finite real by its name.
-/

set_option autoImplicit false

namespace SceneScript
namespace Json

variable {α : Type} [WrittenScalar α]

/-- A real as it is shown. -/
def showReal (x : α) : List Char :=
  match Scalar.floor x with
  | .ok _ => (WrittenScalar.toDecimal x).text
  | .error .nan => ['n', 'a', 'n']
  | .error .infinity => ['i', 'n', 'f']
  | .error .negativeInfinity => ['-', 'i', 'n', 'f']

/-- A whole number as it is shown. -/
def showInt (n : Int) : List Char :=
  let digits := Nat.toDigits 10 n.natAbs
  if n < 0 then '-' :: digits else digits

mutual

/-- A value inside another one. -/
def inspect : Json α → List Char
  | .null => ['N', 'o', 'n', 'e']
  | .bool b => if b then ['T', 'r', 'u', 'e'] else ['F', 'a', 'l', 's', 'e']
  | .int n => showInt n
  | .real x => showReal x
  | .str s => Text.quoted s.toList
  | .arr items => '[' :: (inspectItems items ++ [']'])
  | .obj members => '\x7b' :: (inspectMembers members ++ ['\x7d'])

/-- Values with a comma and a space between them. -/
def inspectItems : List (Json α) → List Char
  | [] => []
  | v :: rest => inspect v ++ (if rest.isEmpty then [] else ',' :: ' ' :: inspectItems rest)

/-- Names and values with a comma and a space between them. -/
def inspectMembers : List (String × Json α) → List Char
  | [] => []
  | (name, v) :: rest =>
    Text.quoted name.toList ++ ':' :: ' ' :: inspect v
      ++ (if rest.isEmpty then [] else ',' :: ' ' :: inspectMembers rest)

end

/-- A value on its own. -/
def display (v : Json α) : String :=
  match v with
  | .str s => s
  | v => String.ofList (inspect v)

end Json
end SceneScript
