import SceneScript.Text.LowerCase

/-!
# File types

What kind of thing a path names is told by its extension, the text behind the last point
of its last component, in small letters. Both slashes divide components here, because
scripts are written on every system.
-/

set_option autoImplicit false

namespace SceneScript
namespace Asset

/-- The kinds of media. -/
inductive Category where
  | image
  | gif
  | webm
  /-- A figure that moves. -/
  | live2dModel
  /-- A list of such figures that are shown as one. -/
  | live2dList
  | unknown
deriving Repr, DecidableEq

namespace Category

def name : Category → String
  | image => "image"
  | gif => "gif"
  | webm => "video_webm"
  | live2dModel => "live2d_json"
  | live2dList => "live2d_jsonl"
  | unknown => "unknown"

def description : Category → String
  | image => "Static image"
  | gif => "Animated GIF"
  | webm => "WebM video"
  | live2dModel => "Live2D model"
  | live2dList => "Live2D aggregated model"
  | unknown => "Unknown type"

/-- The kinds under their extensions. -/
def extensions : List (String × Category) :=
  [("png", image), ("jpg", image), ("jpeg", image), ("bmp", image), ("webp", image),
   ("gif", gif), ("webm", webm), ("json", live2dModel), ("jsonl", live2dList)]

/-- The kind under an extension. -/
def ofExtension (extension : String) : Category :=
  match extensions.find? fun entry => entry.1 = extension with
  | some entry => entry.2
  | none => unknown

/-- A picture, still or moving. -/
def isImage (c : Category) : Bool := c == image || c == gif

def isLive2d (c : Category) : Bool := c == live2dModel || c == live2dList

end Category

/-- The last component of a path. -/
def fileName (path : List Char) : List Char :=
  (path.reverse.takeWhile fun c => c != '/' && c != '\\').reverse

/-- The extension of a path, in small letters; nothing where the name has no point. -/
def extension (path : String) : String :=
  let name := fileName path.toList
  if name.contains '.' then String.ofList (Text.lower (name.reverse.takeWhile (· != '.')).reverse)
  else ""

/-- The kind of thing that a path names. -/
def category (path : String) : Category := Category.ofExtension (extension path)

end Asset
end SceneScript
