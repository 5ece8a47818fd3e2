import SceneScript.Script.Duration
import SceneScript.Script.Line
import SceneScript.Script.Parameters

/-!
# Statements

A **statement** is what a line of a script says, before it is known in which state it
finds the stage. Reading one looks at the line alone; so does everything that can still
go wrong when the statement is carried out, because a payload is an update and an update
applies to every transform. Hence the one fact to remember: **whether a line becomes a
command does not depend on the other lines**, only the transform of the command does.

A line is a keyword and a colon, and then for `setTransform` a JSON object and the
parameters, for the other two a path and the parameters.
-/

set_option autoImplicit false

namespace SceneScript

open Json (Mistake NumberFault ReadError)

/-! ## What can be wrong with a line -/

/-- Why a line with a keyword is no command. -/
inductive LineError where
  | malformedPayload (mistake : Mistake)
  | payloadNotAnObject
  | textBehindPayload
  | noTarget
  | malformedParameter (mistake : Mistake)
  | parameterNotAnObject
  | number (fault : NumberFault)
  | payload (e : PayloadError)
  | duration (e : Text.TooManyDigits)
deriving Repr, DecidableEq

def LineError.message : LineError → String
  | .malformedPayload mistake => "malformed setTransform JSON: " ++ mistake.message
  | .payloadNotAnObject => "setTransform payload is not a JSON object"
  | .textBehindPayload => "unexpected text after setTransform JSON"
  | .noTarget => "setTransform without -target"
  | .malformedParameter mistake => "malformed -transform JSON: " ++ mistake.message
  | .parameterNotAnObject => "-transform value is not a JSON object"
  | .number fault => fault.message
  | .payload e => e.message
  | .duration e => e.message

/-- The report on a text that is no JSON value. -/
def LineError.ofRead (malformed : Mistake → LineError) : ReadError → LineError
  | .malformed mistake _ => malformed mistake
  | .number fault => .number fault

/-! ## Statements -/

/-- What a line says. -/
inductive Statement (α : Type) where
  | setTransform (target : String) (payload : Fields (Json α)) (duration ease : Option String)
  | changeFigure (target path : String) (payload : Fields (Json α)) (preset : Anchor)
      (params : Fields String)
  | changeBackground (path : String) (payload : Fields (Json α)) (params : Fields String)

namespace Statement

variable {α : Type} [Scalar α]

/-- The name of the parameter that holds the target of a figure. -/
def idName : String := "id"

/-- A `setTransform` statement: an object, blanks, and parameters with a target. -/
def readSetTransform (s : List Char) : Except LineError (Statement α) := do
  let (value, rest) ← (Json.read .strict (Text.trimStart s)).mapError
    (LineError.ofRead .malformedPayload)
  let payload ← match value with
    | .obj members => .ok members
    | _ => .error .payloadNotAnObject
  let behind := Text.trimStart rest
  if behind ≠ [] ∧ behind.head? ≠ some '-' then throw .textBehindPayload
  let (_, tokens) ← (Parameters.split α rest).mapError .number
  let params := Parameters.fields tokens
  let target := (params.get? "target").getD ""
  if target.isEmpty then throw .noTarget
  return .setTransform target payload (params.get? "duration") (params.get? "ease")

/-- The payload in a `transform` parameter. -/
def readPayload (value : List Char) : Except LineError (Fields (Json α)) :=
  match Json.readAll .strict value with
  | .error e => .error (LineError.ofRead .malformedParameter e)
  | .ok (.obj members) => .ok members
  | .ok _ => .error .parameterNotAnObject

/-- The payload of the last `transform` parameter. Every one of them has to be an
    object, and without one the payload says nothing. -/
def lastPayload (entries : List (List Char × List Char)) : Except LineError (Fields (Json α)) :=
  entries.foldlM
    (fun payload (name, value) =>
      if name = Parameters.transformName.toList then readPayload value else .ok payload)
    []

/-- The parameters that are neither the payload nor the target. -/
def freeParams (params : Fields String) : Fields String :=
  (params.erase Parameters.transformName).erase idName

/-- The anchor that a bare parameter is. -/
def anchor? (token : List Char) : Option Anchor := Anchor.ofName? (String.ofList token)

/-- A `changeFigure` statement: a path and parameters. A bare anchor is the preset and no
    parameter; of several the last one counts. -/
def readChangeFigure (s : List Char) : Except LineError (Statement α) := do
  let (path, tokens) ← (Parameters.split α s).mapError .number
  let others := tokens.filter fun token => (anchor? token).isNone
  let payload ← lastPayload (others.map Parameters.entry)
  let params := Parameters.fields others
  let target := (params.get? idName).getD ""
  return .changeFigure (if target.isEmpty then unknownTarget else target) (String.ofList path)
    payload ((tokens.filterMap anchor?).getLast?.getD .center) (freeParams params)

/-- A `changeBg` statement: a path and parameters. -/
def readChangeBackground (s : List Char) : Except LineError (Statement α) := do
  let (path, tokens) ← (Parameters.split α s).mapError .number
  let payload ← lastPayload (tokens.map Parameters.entry)
  return .changeBackground (String.ofList path) payload (freeParams (Parameters.fields tokens))

/-- The keyword of a line, and the text behind the colon. -/
def keyword? (body : List Char) : Option (Keyword × List Char) :=
  match body.dropWhile (· != ':') with
  | [] => none
  | _ :: rest => (Keyword.ofText? (Text.trim (body.takeWhile (· != ':')))).map fun k => (k, rest)

/-- The statement of a trimmed line; nothing for a line without a keyword. -/
def read? (line : List Char) : Except LineError (Option (Statement α)) :=
  match keyword? (Line.body line) with
  | none => .ok none
  | some (.setTransform, rest) => (readSetTransform rest).map some
  | some (.changeFigure, rest) => (readChangeFigure rest).map some
  | some (.changeBackground, rest) => (readChangeBackground rest).map some

/-! ## Carrying a statement out -/

/-- The update that a payload is. -/
def update (payload : Fields (Json α)) : Except LineError (Update α) :=
  (Update.ofPayload payload).mapError .payload

/-- The command that a statement is, on a stage. The two statements
    that put something on stage start from the initial transform. -/
def command (factor : Vec2 α) (stage : Stage α) :
    Statement α → Except LineError (Command α)
  | .setTransform target payload duration ease => do
    let duration ← (Duration.ofParameter duration).mapError .duration
    let u ← update payload
    return .setTransform
      ⟨target, duration, Easing.ofParameter ease,
        u.apply factor ((stage.get? target).getD Transform.initial)⟩
  | .changeFigure target path payload preset params => do
    let u ← update payload
    return .changeFigure ⟨target, path, u.apply factor Transform.initial, preset, params⟩
  | .changeBackground path payload params => do
    let u ← update payload
    return .changeBackground ⟨path, u.apply factor Transform.initial, params⟩

/-- Whether a statement becomes a command depends neither on the stage nor on the
    factors. -/
theorem isOk_command (s : Statement α) (factor factor' : Vec2 α) (stage stage' : Stage α) :
    (s.command factor stage).isOk = (s.command factor' stage').isOk := by
  cases s with
  | setTransform target payload duration ease =>
    simp only [command]
    cases (Duration.ofParameter duration).mapError LineError.duration with
    | error e => rfl
    | ok n =>
      cases update payload with
      | error e => rfl
      | ok u => rfl
  | changeFigure target path payload preset params =>
    simp only [command]
    cases update payload with
    | error e => rfl
    | ok u => rfl
  | changeBackground path payload params =>
    simp only [command]
    cases update payload with
    | error e => rfl
    | ok u => rfl

end Statement
end SceneScript
