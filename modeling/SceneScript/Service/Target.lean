import SceneScript.Fields
import SceneScript.Text.Percent

/-!
# The target of a request

A request is addressed to a path, and behind a question mark there may be a query: names
with values, and an ampersand between them. What stands behind a number sign is not sent.

Both are percent-encoded. The path is decoded on either side of the connection, hence
twice. Before that, `.` and `..` are resolved: the one says nothing, and the other takes
back the component in front of it.
-/

set_option autoImplicit false

namespace SceneScript
namespace Http

structure Target where
  path : String
  query : Fields String
deriving Repr, DecidableEq

namespace Target

/-- The components of a path with the next one added to them. -/
def step (components : List (List Char)) (next : List Char) : List (List Char) :=
  if next = ['.'] then components
  else if next = ['.', '.'] then if components = [[]] then components else components.dropLast
  else components ++ [next]

/-- The path without the components `.` and `..`. -/
def resolve (path : List Char) : List Char :=
  List.intercalate ['/'] ((path.splitOn '/').foldl step [])

/-- A part of a query in plain text. A plus stands for a space. -/
def plain (s : List Char) : String :=
  String.ofList (Text.percentDecode (s.map fun c => if c = '+' then ' ' else c))

/-- A name and its value, which is empty if none is given. -/
def pair? (s : List Char) : Option (String × String) :=
  if s.isEmpty then none
  else some (plain (s.takeWhile (· != '=')), plain ((s.dropWhile (· != '=')).drop 1))

/-- The target that an address writes. -/
def ofText (text : String) : Target :=
  let sent := text.toList.takeWhile (· != '#')
  let query := (sent.dropWhile (· != '?')).drop 1
  { path := String.ofList
      (Text.percentDecode (Text.percentDecode (resolve (sent.takeWhile (· != '?')))))
    query := Fields.ofPairs ((query.splitOn '&').filterMap pair?) }

end Target
end Http
end SceneScript
