import SceneScript.Json.Basic
import SceneScript.Text.DecimalDigit

/-!
# Writing JSON

The text of a script's JSON has no space between its parts, characters beyond ASCII as
themselves, and only numbers that JSON has, so that writing can fail. The strict reader
reads it back.

Only what has to be escaped is escaped: the quote, the backslash and the control
characters below the space.
-/

set_option autoImplicit false

namespace SceneScript
namespace Json

/-- Why a value has no JSON text. -/
inductive RenderError where
  /-- A NaN or an infinity. -/
  | notFinite
  /-- A whole number of more digits than may be written. -/
  | tooManyDigits
deriving Repr, DecidableEq

def RenderError.message : RenderError → String
  | .notFinite => "Out of range float values are not JSON compliant"
  | .tooManyDigits =>
    "Exceeds the limit (4300 digits) for integer string conversion; "
      ++ "use sys.set_int_max_str_digits() to increase the limit"

/-! ## Strings and whole numbers -/

/-- One digit of a hexadecimal number. -/
def hexDigit (n : Nat) : Char := Nat.digitChar n

/-- One character of a string, escaped if it cannot stand for itself. -/
def escape (c : Char) : List Char :=
  if c = '"' then ['\\', '"']
  else if c = '\\' then ['\\', '\\']
  else if c = '\n' then ['\\', 'n']
  else if c = '\r' then ['\\', 'r']
  else if c = '\t' then ['\\', 't']
  else if c = '\x0c' then ['\\', 'f']
  else if c = '\x08' then ['\\', 'b']
  else if c.toNat < 0x20 then
    ['\\', 'u', '0', '0', hexDigit (c.toNat / 16), hexDigit (c.toNat % 16)]
  else [c]

/-- A string in its quotes. -/
def renderString (s : String) : List Char := '"' :: (s.toList.flatMap escape ++ ['"'])

/-- The digits of a whole number, unless there are too many. -/
def wholeText (n : Int) : Except RenderError (List Char) :=
  let digits := Nat.toDigits 10 n.natAbs
  if digits.length ≤ Text.maxDigits then .ok (if n < 0 then '-' :: digits else digits)
  else .error .tooManyDigits

/-! ## Values -/

variable {α : Type} [WrittenScalar α]

/-- A finite real as text. -/
def realText (x : α) : Except RenderError (List Char) :=
  if Scalar.isFinite x then .ok (WrittenScalar.toDecimal x).text else .error .notFinite

mutual

/-- The value as JSON text. -/
def render : Json α → Except RenderError (List Char)
  | .null => .ok ['n', 'u', 'l', 'l']
  | .bool b => .ok (if b then ['t', 'r', 'u', 'e'] else ['f', 'a', 'l', 's', 'e'])
  | .int n => wholeText n
  | .real x => realText x
  | .str s => .ok (renderString s)
  | .arr items => (renderItems items).map fun t => '[' :: (t ++ [']'])
  | .obj members => (renderMembers members).map fun t => '\x7b' :: (t ++ ['\x7d'])

/-- The items of an array, with commas between them. -/
def renderItems : List (Json α) → Except RenderError (List Char)
  | [] => .ok []
  | v :: rest =>
    match render v, renderItems rest with
    | .error e, _ => .error e
    | .ok _, .error e => .error e
    | .ok t, .ok ts => .ok (if rest.isEmpty then t else t ++ ',' :: ts)

/-- The members of an object, with commas between them. -/
def renderMembers : List (String × Json α) → Except RenderError (List Char)
  | [] => .ok []
  | (name, v) :: rest =>
    match render v, renderMembers rest with
    | .error e, _ => .error e
    | .ok _, .error e => .error e
    | .ok t, .ok ts =>
      let member := renderString name ++ ':' :: t
      .ok (if rest.isEmpty then member else member ++ ',' :: ts)

end

end Json
end SceneScript
