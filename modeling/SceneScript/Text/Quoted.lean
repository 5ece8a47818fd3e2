import SceneScript.Text.Printable

/-!
# Quoted text

A text is shown in single quotes, or in double quotes when it holds a single quote
and no double one. Inside, the quote and the backslash stand behind a backslash, the
tab and the two line ends have a letter, and any other character that is not shown is
written by its code point, in as few as two and as many as eight hexadecimal digits.
-/

set_option autoImplicit false

namespace SceneScript
namespace Text

def singleQuote : Char := '\x27'

/-- A code point in hexadecimal, filled up with zeros to a width. -/
def hexPadded (width n : Nat) : List Char :=
  let digits := Nat.toDigits 16 n
  List.replicate (width - digits.length) '0' ++ digits

/-- One character between quotes. -/
def quoteChar (quote c : Char) : List Char :=
  if c = quote ∨ c = '\\' then ['\\', c]
  else if c = '\t' then ['\\', 't']
  else if c = '\n' then ['\\', 'n']
  else if c = '\r' then ['\\', 'r']
  else if isPrintable c then [c]
  else if c.toNat ≤ 0xFF then '\\' :: 'x' :: hexPadded 2 c.toNat
  else if c.toNat ≤ 0xFFFF then '\\' :: 'u' :: hexPadded 4 c.toNat
  else '\\' :: 'U' :: hexPadded 8 c.toNat

/-- The text in quotes. -/
def quoted (s : List Char) : List Char :=
  let quote := if s.contains singleQuote && !s.contains '"' then '"' else singleQuote
  quote :: (s.flatMap (quoteChar quote) ++ [quote])

/-- The text in quotes. -/
def quotedString (s : String) : String := String.ofList (quoted s.toList)

end Text
end SceneScript
