import SceneScript.Command
import SceneScript.Timeline
import SceneScript.Validation.Value

/-!
# Checking records

Transforms, easings, commands and segments from values. Fields that are not known are
passed over, and a field that is left out has its default; note that an axis that is left
out is zero, in a scale as well.

The fields of a command depend on its kind, so the kind is looked at first, and the issues
of a command lie under it.
-/

set_option autoImplicit false

namespace SceneScript
namespace Validation

/-- Where a value comes from. The two differ in how they report a value that is no object
    and should be a record. -/
inductive Origin where
  | caller
  | request
deriving Repr, DecidableEq

variable {α : Type}

/-- The fields of a record. -/
def record (origin : Origin) (name : RecordName) : Json α → Checked α (Fields (Json α))
  | .obj members => .valid members
  | v =>
    match origin with
    | .caller => .fail (.notRecord name) v
    | .request => .fail .noFields v

/-- Check the fields of a record. -/
def recordOf {β : Type} (origin : Origin) (name : RecordName)
    (check : Fields (Json α) → Checked α β) (v : Json α) : Checked α β :=
  match record origin name v with
  | .valid fields => check fields
  | .invalid issues => .invalid issues

/-- The ways to state an easing, under their words. -/
def easingKinds : List (String × EasingKind) :=
  [("unspecified", .unspecified), ("use_default", .useDefault), ("named", .named)]

/-- The anchors under their words. -/
def anchors : List (String × Anchor) :=
  [Anchor.left, .center, .right].map fun a => (a.name, a)

def easing (origin : Origin) : Json α → Checked α Easing :=
  recordOf origin .easing fun fields =>
    Easing.mk <$> withDefault "kind" .unspecified (among easingKinds) fields
      <*> withDefault "name" none optionalText fields

variable [Scalar α]

def vec2 (origin : Origin) : Json α → Checked α (Vec2 α) :=
  recordOf origin .vec2 fun fields =>
    Vec2.mk <$> withDefault "x" (Scalar.ofNat 0) real fields
      <*> withDefault "y" (Scalar.ofNat 0) real fields

def transform (origin : Origin) : Json α → Checked α (Transform α) :=
  recordOf origin .transform fun fields =>
    Transform.mk <$> withDefault "position" Transform.initial.position (vec2 origin) fields
      <*> withDefault "scale" Transform.initial.scale (vec2 origin) fields
      <*> withDefault "rotation" Transform.initial.rotation real fields
      <*> withDefault "filters" [] table fields

/-- The parameters of a figure or a background. -/
def params (v : Json α) : Checked α (Fields String) :=
  match table v with
  | .valid fields => values text fields
  | .invalid issues => .invalid issues

/-! ## Commands -/

/-- A `setTransform` command whose easing and transform are checked otherwise. -/
def movement (fields : Fields (Json α)) (easing : Checked α Easing)
    (transform : Checked α (Transform α)) : Checked α (SetTransform α) :=
  SetTransform.mk <$> required "target" someText fields
    <*> withDefault "duration" defaultDuration natural fields
    <*> easing
    <*> transform

def setTransform (origin : Origin) (fields : Fields (Json α)) : Checked α (SetTransform α) :=
  movement fields (withDefault "easing" Easing.unspecified (easing origin) fields)
    (withDefault "transform" Transform.initial (transform origin) fields)

def changeFigure (origin : Origin) (fields : Fields (Json α)) : Checked α (ChangeFigure α) :=
  ChangeFigure.mk <$> required "target" someText fields
    <*> required "path" text fields
    <*> withDefault "transform" Transform.initial (transform origin) fields
    <*> withDefault "preset" .center (among anchors) fields
    <*> withDefault "params" [] params fields

def changeBackground (origin : Origin) (fields : Fields (Json α)) :
    Checked α (ChangeBackground α) :=
  (fun _ path transform params => ⟨path, transform, params⟩)
    <$> withDefault "target" () (word backgroundTarget) fields
    <*> required "path" text fields
    <*> withDefault "transform" Transform.initial (transform origin) fields
    <*> withDefault "params" [] params fields

/-- The checks under the kinds of commands. -/
def commandKinds (origin : Origin) : List (String × (Fields (Json α) → Checked α (Command α))) :=
  [("setTransform", fun fields => .setTransform <$> setTransform origin fields),
   ("changeFigure", fun fields => .changeFigure <$> changeFigure origin fields),
   ("changeBg", fun fields => .changeBackground <$> changeBackground origin fields),
   ("rawText", fun fields => .rawText <$> required "text" text fields)]

/-- The check under a kind, if the value names one. -/
def kind? (origin : Origin) : Json α → Option (String × (Fields (Json α) → Checked α (Command α)))
  | .str tag => (commandKinds origin).find? fun entry => entry.1 = tag
  | _ => none

def segment (origin : Origin) : Json α → Checked α (Segment α) :=
  recordOf origin .segment fun fields =>
    Segment.mk <$> required "target" text fields
      <*> required "start_state" (transform origin) fields
      <*> required "end_state" (transform origin) fields
      <*> required "duration" whole fields
      <*> withDefault "easing" Easing.unspecified (easing origin) fields
      <*> withDefault "start_time" 0 whole fields

end Validation

namespace Validation

variable {α : Type} [WrittenScalar α]

def command (origin : Origin) : Json α → Checked α (Command α)
  | .obj fields =>
    match Fields.get? fields "kind" with
    | none => .fail .noTag (.obj fields)
    | some tag =>
      match kind? origin tag with
      | some (name, check) => (check fields).under (.field name)
      | none => .fail (.unknownTag (Json.display tag)) (.obj fields)
  | v => .fail .noFields v

def commands (origin : Origin) : Json α → Checked α (List (Command α)) := list (command origin)

end Validation
end SceneScript
