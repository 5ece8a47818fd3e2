import SceneScript.Json.Printer
import SceneScript.Rounding
import SceneScript.Script.Line
import SceneScript.Script.Parameters

/-!
# Writing a script

Commands are written one on a line. A transform is written rounded, with its position in
the script's own resolution; raw text is written back as it stands. **Every tween is
written with one duration**, which the caller chooses, and with the `-next` flag.

An easing that has a name is written with it. One that is left open on purpose takes the
caller's default, and an unstated one stays unstated.

Writing fails for sizes that are not positive, for a coordinate that leaves the range of
the numbers, and for values that JSON has no text for.
-/

set_option autoImplicit false

namespace SceneScript

/-- A size: a whole number from the settings or a real from a caller. -/
inductive Extent (α : Type) where
  | whole (n : Int)
  | real (x : α)

namespace Extent

variable {α : Type} [Scalar α]

/-- The size is zero or below. -/
def isUnusable : Extent α → Bool
  | .whole n => decide (n ≤ 0)
  | .real x => decide (x ≤ Scalar.ofNat 0)

/-- The size to compute with, if it is in range. -/
def value? : Extent α → Option α
  | .whole n => Scalar.ofInt? n
  | .real x => some x

end Extent

/-- Why a script cannot be written. -/
inductive WriteError where
  | canvasNotPositive
  | baseNotPositive
  | outOfRange
  | unwritable (e : Json.RenderError)
deriving Repr, DecidableEq

/-- What the caller did wrong; a number that leaves its range is nobody's mistake and has
    no message. -/
def WriteError.message? : WriteError → Option String
  | .canvasNotPositive => some "canvas dimensions must be positive"
  | .baseNotPositive => some "base dimensions must be positive"
  | .outOfRange => none
  | .unwritable e => some e.message

namespace Script

/-! ## Clauses -/

/-- The default easing that stands for none. -/
def noDefaultEasing : String := "default"

/-- A parameter with its mark. -/
def clause (name value : String) : List Char :=
  ' ' :: '-' :: (name.toList ++ '=' :: value.toList)

/-- The parameter that an easing is written as, if any. -/
def easeClause (easing : Easing) (default : Option String) : List Char :=
  match easing.statedName? with
  | some name => clause "ease" name
  | none =>
    match easing.kind, default with
    | .useDefault, some name =>
      if name.isEmpty ∨ name = noDefaultEasing then [] else clause "ease" name
    | _, _ => []

/-- A parameter, bare if it has no value. -/
def paramClause (name value : String) : List Char :=
  if value.isEmpty then ' ' :: '-' :: name.toList else clause name value

def paramClauses (params : Fields String) : List Char :=
  params.flatMap fun (name, value) => paramClause name value

/-- The bare parameter of an anchor; the centre needs none. -/
def anchorClause (preset : Anchor) : List Char :=
  if preset = .center then [] else ' ' :: '-' :: preset.name.toList

/-! ## Lines -/

variable {α : Type} [WrittenScalar α]

/-- The saved payload as JSON text. -/
def payloadText (ratio : Vec2 α) (t : Transform α) : Except WriteError (List Char) := do
  let payload ← (Rounding.savedPayload ratio t).mapError fun _ => .outOfRange
  (Json.render (.obj payload)).mapError .unwritable

/-- What every command starts with. -/
def opening (keyword : Keyword) : List Char := keyword.text.toList ++ [':']

/-- The line of a command. -/
def writeLine (ratio : Vec2 α) (duration : Int) (default : Option String) :
    Command α → Except WriteError (List Char)
  | .rawText text => .ok text.toList
  | .setTransform c => do
    let json ← payloadText ratio c.transform
    let digits ← (Json.wholeText duration).mapError .unwritable
    return opening .setTransform ++ json ++ clause "target" c.target
      ++ clause "duration" (String.ofList digits) ++ easeClause c.easing default
      ++ ' ' :: (Line.flag ++ [Line.terminator])
  | .changeFigure c => do
    let json ← payloadText ratio c.transform
    return opening .changeFigure ++ c.path.toList ++ clause "id" c.target
      ++ clause Parameters.transformName (String.ofList json) ++ paramClauses c.params
      ++ anchorClause c.preset ++ [Line.terminator]
  | .changeBackground c => do
    let json ← payloadText ratio c.transform
    return opening .changeBackground ++ c.path.toList
      ++ clause Parameters.transformName (String.ofList json) ++ paramClauses c.params
      ++ [Line.terminator]

/-- The ratio of the script's resolution to the canvas that the commands are given in. -/
def writeRatio (canvas : Vec2 α) (base : Vec2 (Extent α)) : Except WriteError (Vec2 α) :=
  if canvas.x ≤ Scalar.ofNat 0 ∨ canvas.y ≤ Scalar.ofNat 0 then .error .canvasNotPositive
  else if base.x.isUnusable ∨ base.y.isUnusable then .error .baseNotPositive
  else
    match base.x.value?, base.y.value? with
    | some x, some y => .ok ⟨x / canvas.x, y / canvas.y⟩
    | _, _ => .error .outOfRange

/-- The lines of commands. -/
def writeLines (ratio : Vec2 α) (duration : Int) (default : Option String)
    (commands : List (Command α)) : Except WriteError (List (List Char)) :=
  commands.mapM (writeLine ratio duration default)

/-- The text of commands. -/
def write (commands : List (Command α)) (duration : Int) (canvas : Vec2 α)
    (base : Vec2 (Extent α)) (default : Option String) : Except WriteError (List Char) := do
  let ratio ← writeRatio canvas base
  let lines ← writeLines ratio duration default commands
  return Line.join lines

end Script
end SceneScript
