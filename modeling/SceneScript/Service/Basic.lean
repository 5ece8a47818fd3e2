import SceneScript.Placement
import SceneScript.Script.Writing
import SceneScript.Service.Notice
import SceneScript.Validation.Record

/-!
# The service

A service answers for one game: it knows the resolution that scripts are meant for, the
durations and the easing to fall back on, and where the files of figures are.
-/

set_option autoImplicit false

namespace SceneScript

/-- Where a service has the names of motions and expressions from. -/
inductive Loader where
  | folder (gameFolder : Option String)
  /-- The same names for every figure. -/
  | fixed (names : Asset.Metadata)

structure Service where
  settings : Settings
  loader : Loader

/-- Why a service cannot do what it is asked to. -/
inductive Failure (α : Type) where
  | payload (e : PayloadError)
  | write (e : WriteError)
  | placement (e : PlacementError)
  | invalid (issues : List (Validation.Issue α))
  | divisionByZero
  | outOfRange

namespace Service

variable {α : Type} [WrittenScalar α]

/-- The service with settings, which looks for files where they say. -/
def ofSettings (settings : Settings) : Service := ⟨settings, .folder settings.gameFolder⟩

/-- A number of the settings as a divisor. -/
def scaleFactor (size : α) (base : Int) : Except (Failure α) α :=
  match Scalar.ofInt? base with
  | none => .error .outOfRange
  | some (b : α) =>
    match Scalar.divide? size b with
    | some x => .ok x
    | none => .error .divisionByZero

/-- The factors from the coordinates of scripts to those of a canvas. -/
def scaleFactors (s : Service) (canvas : Vec2 α) : Except (Failure α) (Vec2 α) :=
  if canvas.x ≤ Scalar.ofNat 0 ∨ canvas.y ≤ Scalar.ofNat 0 then
    .error (.write .canvasNotPositive)
  else do
    let x ← scaleFactor canvas.x s.settings.baseWidth
    let y ← scaleFactor canvas.y s.settings.baseHeight
    return ⟨x, y⟩

/-- The commands of a script, with a notice if there are none. -/
def parse (factor : Vec2 α) (text : String) : List (Command α) × List Notice :=
  let (commands, notices) := Script.read factor text.toList
  (commands, notices.map .reading
    ++ if commands.all Command.isRawText then [.noCommands commands.length] else [])

/-- What a caller may choose for an export; the settings stand for the rest. -/
structure ExportOptions (α : Type) where
  duration : Option Int
  baseWidth : Option α
  baseHeight : Option α
  defaultEasing : Option String

/-- The text of commands. -/
def write (s : Service) (commands : List (Command α)) (canvas : Vec2 α)
    (options : ExportOptions α) : Except (Failure α) String :=
  let base : Vec2 (Extent α) :=
    ⟨(options.baseWidth.map .real).getD (.whole s.settings.baseWidth),
      (options.baseHeight.map .real).getD (.whole s.settings.baseHeight)⟩
  let text := Script.write commands (options.duration.getD s.settings.exportDuration) canvas base
    (some (options.defaultEasing.getD s.settings.defaultEasing))
  (text.map String.ofList).mapError .write

/-- A new figure set down on the stage. Of its command only the target and the duration
    are to be checked. -/
def newFigure (fields : Fields (Json α)) (anchor : Anchor) (stage image : Vec2 α) :
    Except (Failure α) (SetTransform α) := do
  let transform ← (Placement.transform anchor stage image).mapError .placement
  (Validation.movement fields (pure .unspecified) (pure transform)).toExcept.mapError .invalid

/-- A new figure on the stage of the service. -/
def placeFigure (s : Service) (target : Json α) (anchor : Anchor) (canvas image : Vec2 α) :
    Except (Failure α) (SetTransform α) :=
  newFigure [("target", target), ("duration", .int s.settings.defaultDuration)] anchor canvas image

end Service
end SceneScript
