import SceneScript.Text.Numeral
import SceneScript.Text.Utf8

/-!
# Percent-encoded text

In the address of a request a byte is written as a percent sign and two hexadecimal
digits. A percent sign without them stands for itself, and so does every other character.
What comes out is read as UTF-8.
-/

set_option autoImplicit false

namespace SceneScript
namespace Text

/-- The byte that a character and the text behind it encode. -/
def encodedByte? (c : Char) (s : List Char) : Option UInt8 :=
  match s with
  | a :: b :: _ =>
    if c = '%' then do
      let x ← hexValue? a
      let y ← hexValue? b
      return UInt8.ofNat (16 * x + y)
    else none
  | _ => none

/-- The bytes of a text, of whose characters `skip` belong to a byte already read. -/
def percentBytes (skip : Nat) : List Char → List UInt8
  | [] => []
  | c :: s =>
    if 0 < skip then percentBytes (skip - 1) s
    else
      match encodedByte? c s with
      | some b => b :: percentBytes 2 s
      | none => String.utf8EncodeChar c ++ percentBytes 0 s

/-- The text that a percent-encoded text stands for. -/
def percentDecode (s : List Char) : List Char := replacingUtf8 (percentBytes 0 s)

end Text
end SceneScript
