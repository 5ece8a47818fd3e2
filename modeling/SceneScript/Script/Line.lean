import SceneScript.Command
import SceneScript.Text.Blank

/-!
# Lines

A line of a script is worked on as text as well as read: the `-next` flag is switched
without looking at what else the line says. A line may end in a **terminator**, one
semicolon; the rest is its **body**.

The flag is found where a blank stands before `-next` and a blank, a semicolon or the
end of the text behind it, so that `-nextone` is no flag. Switching it off takes every
flag out, each with the one blank before it; switching it on puts one at the end of the
body.
-/

set_option autoImplicit false

namespace SceneScript
namespace Line

/-! ## Terminator and body -/

/-- What ends a command. -/
def terminator : Char := ';'

/-- The trimmed line ends in a terminator. -/
def isTerminated (line : List Char) : Bool := line.getLast? == some terminator

/-- A trimmed line without its terminator and the blanks before it. -/
def body (line : List Char) : List Char :=
  if isTerminated line then Text.trimEnd line.dropLast else line

/-! ## The flag -/

/-- The flag without the blank before it. -/
def flag : List Char := ['-', 'n', 'e', 'x', 't']

/-- The flag may end before this text. -/
def endsFlag (s : List Char) : Bool :=
  match s with
  | [] => true
  | c :: _ => Text.isBlank c || c == terminator

/-- A flag starts with this character and the text behind it. -/
def startsFlag (c : Char) (s : List Char) : Bool :=
  Text.isBlank c && flag.isPrefixOf s && endsFlag (s.drop flag.length)

/-- A flag stands somewhere in the text. -/
def containsFlag : List Char → Bool
  | [] => false
  | c :: s => startsFlag c s || containsFlag s

/-- The text without its flags, after its first `skip` characters, which go. -/
def dropFlags (skip : Nat) : List Char → List Char
  | [] => []
  | c :: s =>
    if 0 < skip then dropFlags (skip - 1) s
    else if startsFlag c s then dropFlags flag.length s
    else c :: dropFlags 0 s

/-- The line has the flag. -/
def hasNext (line : List Char) : Bool := containsFlag (Text.trim line)

/-- The line with the flag switched. The terminator keeps its place. -/
def toggleNext (line : List Char) : List Char :=
  let trimmed := Text.trim line
  let old := body trimmed
  let new :=
    if containsFlag old then Text.trimEnd (dropFlags 0 old) else old ++ ' ' :: flag
  if isTerminated trimmed then new ++ [terminator] else new

/-! ## Lines that move a target -/

/-- The line starts like a `setTransform` command. -/
def isSetTransform (line : List Char) : Bool :=
  Keyword.setTransform.text.toList.isPrefixOf (Text.trim line)

/-- The lines that start like a `setTransform` command. -/
def setTransforms (lines : List (List Char)) : List (List Char) := lines.filter isSetTransform

/-- Lines as one text, with a line feed between them. -/
def join (lines : List (List Char)) : List Char := ['\n'].intercalate lines

end Line
end SceneScript
