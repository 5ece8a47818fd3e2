import SceneScript.Asset.FileType
import SceneScript.Asset.Files
import SceneScript.Json.Inspect
import SceneScript.Json.Reader

/-!
# Motions and expressions

A moving figure has motions and expressions under names. A **model** is a JSON document
that holds both, in the object of its file references or at its top, in a table under the
names or in a list. A **list of models** has one JSON document on each line, each of which
can name the file of a model and names of its own.

The names of a list are an **ordered union**: in the order of their first mention, first
those of the model's file and then those of the line, each name once. A model that cannot
be read is passed over; a line that cannot be read spoils the list.

How a file is read is a parameter, so nothing here depends on files.
-/

set_option autoImplicit false

namespace SceneScript
namespace Asset

/-- The names of what a figure can do. -/
structure Metadata where
  motions : List String
  expressions : List String
deriving Repr, DecidableEq

namespace Metadata

def none : Metadata := ⟨[], []⟩

/-- The names of both, one after the other. -/
def append (m n : Metadata) : Metadata := ⟨m.motions ++ n.motions, m.expressions ++ n.expressions⟩

/-- Each name once, at its first mention. -/
def unique (m : Metadata) : Metadata := ⟨m.motions.eraseDups, m.expressions.eraseDups⟩

end Metadata

/-! ## Documents -/

/-- Why a document has no names. -/
inductive LoadError where
  | file (e : FileError)
  | document (text : List Char) (e : Json.ReadError)

def LoadError.message : LoadError → String
  | .file e => e.message
  | .document text e => e.describe text

section Documents

variable {α : Type} [WrittenScalar α]

/-- A value that says something: no null, no falsehood, no zero, nothing empty. -/
def isTelling : Json α → Bool
  | .null => false
  | .bool b => b
  | .int n => n != 0
  | .real x => !Scalar.isZero x
  | .str s => !s.isEmpty
  | .arr items => !items.isEmpty
  | .obj members => !members.isEmpty

/-- The name that an item of a list has. -/
def itemName? : Json α → Option String
  | .str s => some s
  | .obj members =>
    match (Fields.get? members "Name").filter isTelling with
    | some v => some (Json.display v)
    | Option.none => ((Fields.get? members "name").filter isTelling).map Json.display
  | _ => Option.none

/-- The names in a table or a list. -/
def names : Json α → List String
  | .obj members => members.map (·.1)
  | .arr items => items.filterMap itemName?
  | _ => []

/-- The value under the first of two names that is there. -/
def either (members : Fields (Json α)) (first second : String) : Json α :=
  match members.get? first with
  | some v => v
  | Option.none => (members.get? second).getD .null

/-- The names of a model. -/
def ofModel (model : Json α) : Metadata :=
  match model with
  | .obj members =>
    let references :=
      match Fields.get? members "FileReferences" with
      | some (.obj references) => references
      | _ => members
    Metadata.unique
      ⟨names (either references "Motions" "motions"),
        names (either references "Expressions" "expressions")⟩
  | _ => Metadata.none

/-- The path of a model's file, if a line of a list names one. -/
def modelPath? (members : Fields (Json α)) : Option String :=
  match members.get? "path" with
  | some (.str path) =>
    if ".json".toList.isSuffixOf (Text.lower path.toList) then some path else Option.none
  | _ => Option.none

/-- The names that a line of a list has itself. -/
def ownNames (members : Fields (Json α)) : Metadata :=
  ⟨names ((members.get? "motions").getD .null), names ((members.get? "expressions").getD .null)⟩

end Documents

/-! ## Loading -/

/-- What is worth telling about the files of a figure. -/
inductive LoadNotice where
  | unresolved (n : UnresolvedNotice)
  | unreadable (path : Path) (e : LoadError)
  | skippedModel (path : Path) (e : LoadError)

def LoadNotice.message : LoadNotice → String
  | .unresolved n => n.message
  | .unreadable path e => "Failed to read Live2D metadata from " ++ path.text ++ ": " ++ e.message
  | .skippedModel path e => "Skipping unreadable sub-model " ++ path.text ++ ": " ++ e.message

section Loading

variable (α : Type) [WrittenScalar α] (read : Path → Except FileError (List Char))

/-- The document in a text. -/
def document (text : List Char) : Except LoadError (Json α) :=
  (Json.readDocument text).mapError (.document text)

/-- The model in a file. -/
def loadModel (path : Path) : Except LoadError Metadata := do
  let text ← (read path).mapError .file
  let model ← document α text
  return ofModel model

/-- The names that a value on a line of a list brings, with its file looked for beside
    the list at `home`. -/
def loadEntry (home : Path) : Json α → Metadata × List LoadNotice
  | .obj members =>
    match modelPath? members with
    | Option.none => (ownNames members, [])
    | some sub =>
      let path := home.join (Path.ofText sub)
      match loadModel α read path with
      | .ok model => (model.append (ownNames members), [])
      | .error e => (ownNames members, [.skippedModel path e])
  | _ => (Metadata.none, [])

/-- The names of the lines of a list, and the notices up to a line that cannot be read. -/
def loadLines (home : Path) : List (List Char) → Except LoadError Metadata × List LoadNotice
  | [] => (.ok Metadata.none, [])
  | line :: lines =>
    match document α line with
    | .error e => (.error e, [])
    | .ok entry =>
      let (names, notices) := loadEntry α read home entry
      let (rest, more) := loadLines home lines
      (rest.map names.append, notices ++ more)

/-- The names in a list of models. -/
def loadList (path : Path) : Except LoadError Metadata × List LoadNotice :=
  match read path with
  | .error e => (.error (.file e), [])
  | .ok text =>
    let lines := (Text.splitLines text).filter fun line => !Text.isBlankText line
    let (names, notices) := loadLines α read path.parent lines
    (names.map Metadata.unique, notices)

/-- The names of the figure that a path names. A file that cannot be read has none. -/
def loadMetadata (gameFolder : Option String) (path : String) : Metadata × List LoadNotice :=
  let kind := category path
  if !kind.isLive2d then (Metadata.none, [])
  else
    let (place, unresolved) := resolve path gameFolder .figure
    let file := Path.ofText place
    let (names, notices) :=
      if kind = .live2dList then loadList α read file else (loadModel α read file, [])
    match names with
    | .ok names => (names, unresolved.map .unresolved ++ notices)
    | .error e => (Metadata.none, unresolved.map .unresolved ++ notices ++ [.unreadable file e])

end Loading
end Asset
end SceneScript
