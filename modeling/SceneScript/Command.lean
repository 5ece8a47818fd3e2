import SceneScript.Easing
import SceneScript.Transform

/-!
# Commands

A script is a list of commands, one for each line that is not blank. Three kinds act on
the stage, and each of them carries the whole transform of its target, whatever its line
left open. A line that is none of them is kept as **raw text** and written back as it
was, so that a script survives whatever else it holds.

The background is a target like any other, under a name of its own.
-/

set_option autoImplicit false

namespace SceneScript

/-- The target of every background command. -/
def backgroundTarget : String := "bg-main"

/-- The target of a figure whose line names none. -/
def unknownTarget : String := "unknown"

/-- The duration of a tween whose line states none, in milliseconds. -/
def defaultDuration : Nat := 500

/-- Where on the stage a figure is set down. -/
inductive Anchor where
  | left
  | center
  | right
deriving Repr, DecidableEq

/-- The flag and value that stands for an anchor. -/
def Anchor.name : Anchor → String
  | .left => "left"
  | .center => "center"
  | .right => "right"

/-- The anchor under a name. -/
def Anchor.ofName? (name : String) : Option Anchor :=
  [Anchor.left, .center, .right].find? fun a => a.name = name

/-- Move a target to a transform. -/
structure SetTransform (α : Type) where
  target : String
  duration : Nat
  easing : Easing
  transform : Transform α

/-- Put a figure on stage, or another picture in its place. A parameter without a value
    has the empty text for one. -/
structure ChangeFigure (α : Type) where
  target : String
  path : String
  transform : Transform α
  preset : Anchor
  params : Fields String

/-- Put up a background. -/
structure ChangeBackground (α : Type) where
  path : String
  transform : Transform α
  params : Fields String

inductive Command (α : Type) where
  | setTransform (c : SetTransform α)
  | changeFigure (c : ChangeFigure α)
  | changeBackground (c : ChangeBackground α)
  | rawText (text : String)

namespace Command

variable {α : Type}

/-- The target and its transform after the command. -/
def effect? : Command α → Option (String × Transform α)
  | .setTransform c => some (c.target, c.transform)
  | .changeFigure c => some (c.target, c.transform)
  | .changeBackground c => some (backgroundTarget, c.transform)
  | .rawText _ => none

/-- The target; raw text has none. -/
def target? (c : Command α) : Option String := c.effect?.map (·.1)

def isRawText : Command α → Bool
  | .rawText _ => true
  | _ => false

end Command

/-! ## The stage -/

/-- The transform of every target so far, in the order of their first appearance. -/
abbrev Stage (α : Type) := Fields (Transform α)

/-- The stage after a command. -/
def Stage.after {α : Type} (stage : Stage α) (command : Command α) : Stage α :=
  match command.effect? with
  | some (target, transform) => stage.set target transform
  | none => stage

/-! ## Keywords -/

/-- The words that a line may start with. -/
inductive Keyword where
  | setTransform
  | changeFigure
  | changeBackground
deriving Repr, DecidableEq

def Keyword.text : Keyword → String
  | .setTransform => "setTransform"
  | .changeFigure => "changeFigure"
  | .changeBackground => "changeBg"

/-- The keyword that a text is. -/
def Keyword.ofText? (text : List Char) : Option Keyword :=
  [Keyword.setTransform, .changeFigure, .changeBackground].find? fun k => k.text.toList == text

end SceneScript
