import SceneScript.Asset.Path
import SceneScript.Text.Quoted
import SceneScript.Text.Utf8

/-!
# Files

Files are named by the components of their paths from the root. A folder exists when
there is something in it. Following a path goes through folders only, and two points lead
from an existing folder to the one that holds it.
-/

set_option autoImplicit false

namespace SceneScript
namespace Asset

/-- Files with their bytes, under the components of their paths. -/
abbrev Files := List (List String × List UInt8)

/-- Why a file cannot be read. -/
inductive FileError where
  | missing (path : String)
  | notAFolder (path : String)
  | isAFolder (path : String)
  | nameTooLong (path : String)
  | zeroCharacter
  | notUtf8 (e : Text.Utf8Error)
deriving Repr, DecidableEq

def FileError.message : FileError → String
  | .missing path => "[Errno 2] No such file or directory: " ++ Text.quotedString path
  | .notAFolder path => "[Errno 20] Not a directory: " ++ Text.quotedString path
  | .isAFolder path => "[Errno 21] Is a directory: " ++ Text.quotedString path
  | .nameTooLong path => "[Errno 36] File name too long: " ++ Text.quotedString path
  | .zeroCharacter => "embedded null byte"
  | .notUtf8 e => e.message

namespace Files

/-- The longest name of a file, in bytes. -/
def maxNameBytes : Nat := 255

/-- The longest path, in bytes. -/
def maxPathBytes : Nat := 4095

/-- There is something in the folder, or it is the root. -/
def hasFolder (files : Files) (place : List String) : Bool :=
  place.isEmpty || files.any fun file => place.isPrefixOf file.1 && place.length < file.1.length

/-- The bytes of a file. -/
def bytes? (files : Files) (place : List String) : Option (List UInt8) :=
  (files.find? fun file => file.1 = place).map (·.2)

/-- Follow components from an existing folder to the bytes of a file. `path` is what an
    error names. -/
def follow (files : Files) (path : String) (place : List String) :
    List String → Except FileError (List UInt8)
  | [] => .error (.isAFolder path)
  | name :: rest =>
    if name = ".." then follow files path place.dropLast rest
    else if maxNameBytes < name.utf8ByteSize then .error (.nameTooLong path)
    else
      let next := place ++ [name]
      if files.hasFolder next then follow files path next rest
      else
        match files.bytes? next, rest with
        | none, _ => .error (.missing path)
        | some bytes, [] => .ok bytes
        | some _, _ :: _ => .error (.notAFolder path)

/-- The bytes that a path leads to. Only paths from the root lead anywhere. -/
def find (files : Files) (p : Path) : Except FileError (List UInt8) :=
  let path := p.text
  if path.toList.contains '\x00' then .error .zeroCharacter
  else if maxPathBytes < path.utf8ByteSize then .error (.nameTooLong path)
  else if p.slashes = 0 then .error (.missing path)
  else files.follow path [] p.components

/-- The text that a path leads to, with every line end a line feed. -/
def readText (files : Files) (p : Path) : Except FileError (List Char) :=
  match files.find p with
  | .error e => .error e
  | .ok bytes =>
    match Text.decodeUtf8 bytes with
    | .error e => .error (.notUtf8 e)
    | .ok text => .ok (Text.unifyLineEnds text)

end Files
end Asset
end SceneScript
