import SceneScript.Json.Reader
import SceneScript.Text.Blank

/-!
# Parameters of a line

Behind its path or its JSON a line carries parameters, each opened by the **mark**, a
space and a hyphen. A parameter is a name with a value behind an equals sign, or a bare
name.

The mark also occurs inside JSON, in `"x": -10` or in a string. That is why the value of
a `transform` parameter is read as JSON first, and the search for the next mark goes on
behind it: **a mark inside a well formed embedded value divides nothing.** Where the
value is not well formed the search goes on at its first character, and whoever reads
the value reports the mistake.
-/

set_option autoImplicit false

namespace SceneScript
namespace Parameters

open Json (NumberFault ReadError)

/-- The parameter whose value is JSON. -/
def transformName : String := "transform"

/-- How many characters at the start of a parameter are not to be searched for a mark:
    the name of a `transform` parameter and its JSON, with any blanks between them. -/
def embeddedLength (α : Type) [Scalar α] (s : List Char) : Except NumberFault Nat :=
  match (transformName.toList ++ ['=']).isPrefixOf? s with
  | none => .ok 0
  | some value =>
    match (Json.read .strict (Text.trimStart value) : Except ReadError (Json α × List Char)) with
    | .ok (_, rest) => .ok (s.length - rest.length)
    | .error (.malformed _ _) => .ok 0
    | .error (.number fault) => .error fault

/-- The text before the first mark, and the trimmed text behind each one. The first
    `skip` characters are not searched. -/
def scan (α : Type) [Scalar α] (skip : Nat) (s : List Char) :
    Except NumberFault (List Char × List (List Char)) :=
  match s with
  | [] => .ok ([], [])
  | c :: s₁ =>
    if 0 < skip then (scan α (skip - 1) s₁).map fun (head, tokens) => (c :: head, tokens)
    else
      match s₁ with
      | [] => .ok ([c], [])
      | d :: s₂ =>
        if c = ' ' ∧ d = '-' then
          match embeddedLength α s₂ with
          | .error fault => .error fault
          | .ok n => (scan α n s₂).map fun (token, tokens) => ([], Text.trim token :: tokens)
        else (scan α 0 (d :: s₂)).map fun (head, tokens) => (c :: head, tokens)

/-- The trimmed text before the parameters, and the parameters. -/
def split (α : Type) [Scalar α] (s : List Char) :
    Except NumberFault (List Char × List (List Char)) :=
  (scan α 0 s).map fun (head, tokens) => (Text.trim head, tokens)

/-- The name and the value of a parameter, divided by its first equals sign; a bare name
    has the empty value. -/
def entry (token : List Char) : List Char × List Char :=
  (Text.trim (token.takeWhile (· != '=')), Text.trim ((token.dropWhile (· != '=')).drop 1))

/-- The parameters under their names. One without a name is passed over, and of two with
    one name the later counts. -/
def fields (tokens : List (List Char)) : Fields String :=
  Fields.ofPairs ((tokens.map entry).filterMap fun (name, value) =>
    if name.isEmpty then none else some (String.ofList name, String.ofList value))

end Parameters
end SceneScript
