import SceneScript.Command

/-!
# Placing a figure

A new figure is fitted into the stage: scaled until it fills the stage in one direction
and overflows in none. If it is then shorter than the stage it is let down to the floor,
and its anchor pushes it to the left or the right edge or leaves it in the middle.

Positions count from the middle of the stage, to the right and downwards, and name the
middle of the picture. Only the position is set; the size is the renderer's business.
-/

set_option autoImplicit false

namespace SceneScript

/-- Why a figure cannot be placed. -/
inductive PlacementError where
  /-- A size is zero or below. -/
  | notPositive
  /-- A size is no number, and another one is zero. -/
  | divisionByZero
deriving Repr, DecidableEq

def PlacementError.message : PlacementError → String
  | .notPositive => "stage and image dimensions must be positive"
  | .divisionByZero => "float division by zero"

namespace Placement

variable {α : Type} [Scalar α]

/-- Half of a size. -/
def halved (x : α) : α := x / Scalar.ofNat 2

/-- The greatest scale at which the picture fits into the stage. -/
def fit (stage image : Vec2 α) : Except PlacementError α :=
  match Scalar.divide? stage.x image.x, Scalar.divide? stage.y image.y with
  | some x, some y => .ok (Scalar.least x y)
  | _, _ => .error .divisionByZero

/-- The middle of a picture of a width, from the left edge of the stage. -/
def fromLeft (anchor : Anchor) (stageWidth width : α) : α :=
  match anchor with
  | .left => halved width
  | .center => halved stageWidth
  | .right => stageWidth - halved width

/-- The middle of a picture of a height, from the upper edge of the stage. -/
def fromTop (stageHeight height : α) : α :=
  if height < stageHeight then halved stageHeight + halved (stageHeight - height)
  else halved stageHeight

/-- The position of a figure. -/
def position (anchor : Anchor) (stage image : Vec2 α) : Except PlacementError (Vec2 α) :=
  let smallest := Scalar.least (Scalar.least (Scalar.least stage.x stage.y) image.x) image.y
  if smallest ≤ Scalar.ofNat 0 then .error .notPositive
  else
    (fit stage image).map fun scale =>
      ⟨fromLeft anchor stage.x (image.x * scale) - halved stage.x,
        fromTop stage.y (image.y * scale) - halved stage.y⟩

/-- The transform that a figure is set down with. -/
def transform (anchor : Anchor) (stage image : Vec2 α) : Except PlacementError (Transform α) :=
  (position anchor stage image).map fun p => { Transform.initial with position := p }

end Placement
end SceneScript
