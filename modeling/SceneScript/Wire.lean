import SceneScript.Asset.FileType
import SceneScript.Asset.Metadata
import SceneScript.Reconciliation
import SceneScript.Settings
import SceneScript.Timeline
import SceneScript.Validation.Issue

/-!
# Values on the wire

Commands, states and reports as JSON. Tables whose order matters are sent as objects to a
receiver that keeps the order of members, and as lists of pairs to one that does not; so
the form of a table is a parameter.
-/

set_option autoImplicit false

namespace SceneScript
namespace Wire

variable {α : Type}

/-- The form in which a table is sent. -/
abbrev TableForm (α : Type) := Fields (Json α) → Json α

/-- A table as a list of pairs. -/
def pairs : TableForm α := fun fields => .arr (fields.map fun (name, v) => .arr [.str name, v])

/-- A text, or null. -/
def optionalText (text : Option String) : Json α := (text.map Json.str).getD .null

/-- Texts in a list. -/
def texts (ts : List String) : Json α := .arr (ts.map .str)

def vec2 (v : Vec2 α) : Json α := Json.axes v.x v.y

def transform (table : TableForm α) (t : Transform α) : Json α :=
  .obj [("position", vec2 t.position), ("scale", vec2 t.scale), ("rotation", .real t.rotation),
    ("filters", table t.filters)]

def easingKind : EasingKind → String
  | .unspecified => "unspecified"
  | .useDefault => "use_default"
  | .named => "named"

def easing (e : Easing) : Json α :=
  .obj [("kind", .str (easingKind e.kind)), ("name", optionalText e.name)]

def setTransform (table : TableForm α) (c : SetTransform α) : Json α :=
  .obj [("kind", .str "setTransform"), ("target", .str c.target), ("duration", .int c.duration),
    ("easing", easing c.easing), ("transform", transform table c.transform)]

def params (table : TableForm α) (ps : Fields String) : Json α :=
  table (ps.map fun (name, value) => (name, .str value))

def command (table : TableForm α) : Command α → Json α
  | .setTransform c => setTransform table c
  | .changeFigure c =>
    .obj [("kind", .str "changeFigure"), ("target", .str c.target), ("path", .str c.path),
      ("transform", transform table c.transform), ("preset", .str c.preset.name),
      ("params", params table c.params)]
  | .changeBackground c =>
    .obj [("kind", .str "changeBg"), ("target", .str backgroundTarget), ("path", .str c.path),
      ("transform", transform table c.transform), ("params", params table c.params)]
  | .rawText text => .obj [("kind", .str "rawText"), ("text", .str text)]

def commands (table : TableForm α) (cs : List (Command α)) : Json α :=
  .arr (cs.map (command table))

def reconciled (table : TableForm α) (r : Reconciled α) : Json α :=
  .obj [("consolidated", commands table r.consolidated),
    ("final_states", table (r.finalStates.map fun (target, t) => (target, transform table t)))]

def segment (table : TableForm α) (s : Segment α) : Json α :=
  .obj [("target", .str s.target), ("start_state", transform table s.startState),
    ("end_state", transform table s.endState), ("duration", .int s.duration),
    ("easing", easing s.easing), ("start_time", .int s.startTime), ("end_time", .int s.endTime)]

def segments (table : TableForm α) (ss : List (Segment α)) : Json α :=
  .arr (ss.map (segment table))

def metadata (m : Asset.Metadata) : Json α :=
  .obj [("motions", texts m.motions), ("expressions", texts m.expressions)]

/-- What is known about a file from its name. -/
def fileType (path : String) : Json α :=
  let category := Asset.category path
  .obj [("category", .str category.name), ("ext", .str (Asset.extension path)),
    ("description", .str category.description)]

/-- The members of the settings. -/
def settingsMembers (s : Settings) : Fields (Json α) :=
  [("base_width", .int s.baseWidth), ("base_height", .int s.baseHeight),
   ("default_duration_ms", .int s.defaultDuration), ("export_duration_ms", .int s.exportDuration),
   ("default_easing", .str s.defaultEasing), ("game_folder", optionalText s.gameFolder)]

def settings (s : Settings) : Json α := .obj (settingsMembers s)

/-! ## Reports -/

def step : Validation.Step → Json α
  | .field name => .str name
  | .item index => .int index

def issue (i : Validation.Issue α) : Json α :=
  .obj [("type", .str i.problem.code), ("loc", .arr (i.place.map step)),
    ("msg", .str i.problem.message)]

def issues (is : List (Validation.Issue α)) : Json α := .arr (is.map issue)

end Wire
end SceneScript
