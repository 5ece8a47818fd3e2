import SceneScript.Text.Blank

/-!
# Paths

A path is the slashes that it starts with and its components. Written paths are brought
into one form: slashes between components count once, a component that is one point goes,
and so does a slash at the end; two points stay, because what they lead to depends on the
files. Exactly two slashes in front are kept apart from one.
-/

set_option autoImplicit false

namespace SceneScript
namespace Asset

structure Path where
  /-- The slashes in front: none, one or two. -/
  slashes : Nat
  components : List String
deriving Repr, DecidableEq

namespace Path

/-- The texts between slashes. -/
def splitSlashes : List Char → List (List Char)
  | [] => [[]]
  | c :: s =>
    match splitSlashes s with
    | [] => [[c]]
    | part :: parts => if c = '/' then [] :: part :: parts else (c :: part) :: parts

/-- A component that says nothing. -/
def isIdle (part : List Char) : Bool := part.isEmpty || part == ['.']

/-- The path that a text writes. -/
def ofText (text : String) : Path :=
  let leading := (text.toList.takeWhile (· == '/')).length
  { slashes := if leading = 0 then 0 else if leading = 2 then 2 else 1
    components := ((splitSlashes text.toList).filter fun part => !isIdle part).map String.ofList }

/-- The path as text; one without components is written as a point. -/
def text (p : Path) : String :=
  let written := "".pushn '/' p.slashes ++ String.intercalate "/" p.components
  if written.isEmpty then "." else written

/-- The second path as seen from the first one. -/
def join (p q : Path) : Path :=
  if q.slashes = 0 then { p with components := p.components ++ q.components } else q

/-- The path without its last component. -/
def parent (p : Path) : Path := { p with components := p.components.dropLast }

end Path

/-! ## Paths of assets -/

/-- The folders that assets are kept in. -/
inductive Folder where
  | figure
  | background
deriving Repr, DecidableEq

def Folder.name : Folder → String
  | figure => "figure"
  | background => "background"

/-- The folder under a name. -/
def Folder.ofName? (name : String) : Option Folder :=
  [figure, background].find? fun f => f.name = name

/-- The path stands for itself: it starts at the root, or it has a colon, as drives and
    addresses do. -/
def isAbsolute (path : String) : Bool :=
  path.toList.head? == some '/' || path.toList.contains ':'

/-- What is worth telling: a path that nothing is known to start from. -/
structure UnresolvedNotice where
  path : String
deriving Repr, DecidableEq

def UnresolvedNotice.message (n : UnresolvedNotice) : String :=
  "No game folder configured; using asset path as-is: " ++ n.path

/-- The path of an asset in the folder of a game, with a notice where there is no game
    folder and the path is left as it is. -/
def resolve (path : String) (gameFolder : Option String) (folder : Folder) :
    String × List UnresolvedNotice :=
  if isAbsolute path then (path, [])
  else
    match gameFolder with
    | none => (path, [⟨path⟩])
    | some game =>
      if game.isEmpty then (path, [⟨path⟩])
      else
        let below := [Path.ofText "game", Path.ofText folder.name, Path.ofText path]
        ((below.foldl Path.join (Path.ofText game)).text, [])

end Asset
end SceneScript
