import SceneScript.Script.Statement

/-!
# Reading a script

A script is read line by line, and what is carried from line to line is the transform of
every target so far. A line that is no command leaves it alone and is kept as raw text,
**trimmed but otherwise as it was, terminator included**: reading never fails and loses
no line.

What a reader of the script should know about is reported in notices, beside the
commands.
-/

set_option autoImplicit false

namespace SceneScript
namespace Script

/-! ## Notices -/

/-- What is worth telling about a line. -/
inductive Notice where
  /-- A target is moved before it was put on stage. -/
  | noBaseline (target : String)
  /-- A duration that is no number. -/
  | nonNumericDuration (value : String)
  /-- A command that could not be read. -/
  | keptAsRawText (reason : LineError) (line : String)
deriving Repr, DecidableEq

def Notice.message : Notice → String
  | .noBaseline target =>
    "setTransform for '" ++ target ++ "' before any changeFigure/changeBg; using defaults"
  | .nonNumericDuration value =>
    "Non-numeric duration '" ++ value ++ "'; using " ++ toString defaultDuration
  | .keptAsRawText reason line =>
    "Keeping unparseable command as raw text (" ++ reason.message ++ "): " ++ line

/-- The notice on a duration, if there is one. -/
def durationNotices (duration : Option String) : List Notice :=
  match duration with
  | some value => if Duration.isNonNumeric duration then [.nonNumericDuration value] else []
  | none => []

/-- The notices on a statement, which hold whether or not it becomes a command. -/
def statementNotices {α : Type} (stage : Stage α) : Statement α → List Notice
  | .setTransform target _ duration _ =>
    (if (stage.get? target).isNone then [.noBaseline target] else []) ++ durationNotices duration
  | .changeFigure .. => []
  | .changeBackground .. => []

/-! ## Reading -/

variable {α : Type} [Scalar α]

/-- The command of a trimmed line in a stage, raw text if it is none, with the notices. -/
def readLine (factor : Vec2 α) (stage : Stage α) (line : List Char) :
    Command α × List Notice :=
  let text := String.ofList line
  match Statement.read? (α := α) line with
  | .error e => (.rawText text, [.keptAsRawText e text])
  | .ok none => (.rawText text, [])
  | .ok (some statement) =>
    let notices := statementNotices stage statement
    match statement.command factor stage with
    | .error e => (.rawText text, notices ++ [.keptAsRawText e text])
    | .ok command => (command, notices)

/-- The commands of trimmed lines and the notices on them, from a stage on. -/
def readLines (factor : Vec2 α) (stage : Stage α) :
    List (List Char) → List (Command α × List Notice)
  | [] => []
  | line :: lines =>
    let read := readLine factor stage line
    read :: readLines factor (stage.after read.1) lines

/-- Every line has its command. -/
theorem length_readLines (factor : Vec2 α) (stage : Stage α) (lines : List (List Char)) :
    (readLines factor stage lines).length = lines.length := by
  induction lines generalizing stage with
  | nil => rfl
  | cons line lines ih => simp [readLines, ih]

/-- The commands of a script and the notices on it. `factor` converts positions from the
    script's resolution to working units. -/
def read (factor : Vec2 α) (text : List Char) : List (Command α) × List Notice :=
  let lines := readLines factor [] (Text.contentLines text)
  (lines.map (·.1), lines.flatMap (·.2))

/-- The commands of a script. -/
def parse (factor : Vec2 α) (text : List Char) : List (Command α) := (read factor text).1

/-- A script has as many commands as it has lines that are not blank. -/
theorem length_parse (factor : Vec2 α) (text : List Char) :
    (parse factor text).length = (Text.contentLines text).length := by
  simp [parse, read, length_readLines]

end Script
end SceneScript
