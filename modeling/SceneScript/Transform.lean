import SceneScript.Json.Basic

/-!
# Transforms and partial updates

A **transform** is the resolved visual state of one thing on stage: where it stands, how
large it is, how far it is turned, and any number of filters under names. On the wire it
is a JSON object whose members `position`, `scale` and `rotation` are the first three;
every other member is a filter, so that a new kind of filter needs no new type.

A line of a script need not name all of that. What it names is an **update**, and
applying one to a transform is total: **all that can go wrong with a payload goes wrong
when it is read as an update**, before any state is looked at. That is why whether a
line is accepted cannot depend on the lines before it.
-/

set_option autoImplicit false

namespace SceneScript

structure Vec2 (α : Type) where
  x : α
  y : α
deriving Repr, DecidableEq

/-- The visual state of one thing on stage. -/
structure Transform (α : Type) where
  position : Vec2 α
  scale : Vec2 α
  rotation : α
  filters : Fields (Json α)

namespace Transform

variable {α : Type}

/-- The names that are not free for filters. -/
def structuralNames : List String := ["position", "scale", "rotation"]

/-- The wire form. A filter under a structural name overrides what stands there. -/
def payload (t : Transform α) : Fields (Json α) :=
  Fields.update
    [("position", Json.axes t.position.x t.position.y),
     ("scale", Json.axes t.scale.x t.scale.y),
     ("rotation", .real t.rotation)]
    t.filters

/-- At the origin, in its own size, upright, without filters. -/
def initial [Scalar α] : Transform α :=
  ⟨⟨Scalar.ofNat 0, Scalar.ofNat 0⟩, ⟨Scalar.ofNat 1, Scalar.ofNat 1⟩, Scalar.ofNat 0, []⟩

end Transform

/-! ## Payloads that cannot be read -/

/-- What is wrong with the member of a payload. -/
inductive PayloadError where
  | notAnObject (field : String)
  | notNumeric (field : String)
  | outOfRange (field : String)
  | notFinite (field : String)
deriving Repr, DecidableEq

def PayloadError.message : PayloadError → String
  | .notAnObject field => "'" ++ field ++ "' must be an object"
  | .notNumeric field => "'" ++ field ++ "' must be numeric"
  | .outOfRange field => "'" ++ field ++ "' is out of range"
  | .notFinite field => "'" ++ field ++ "' must be finite"

/-! ## Updates -/

/-- What a payload says about a transform: each part may be left open. -/
structure Update (α : Type) where
  x : Option α
  y : Option α
  scaleX : Option α
  scaleY : Option α
  rotation : Option α
  filters : Fields (Json α)

namespace Update

variable {α : Type} [Scalar α]

/-- A member that has to be an object; a null says nothing. -/
def members (payload : Fields (Json α)) (field : String) :
    Except PayloadError (Fields (Json α)) :=
  match Json.given? payload field with
  | none => .ok []
  | some (.obj ms) => .ok ms
  | some _ => .error (.notAnObject field)

/-- A member that has to be a finite number; a null says nothing. -/
def number (fields : Fields (Json α)) (name field : String) : Except PayloadError (Option α) :=
  match Json.given? fields name with
  | none => .ok none
  | some (.int n) =>
    match Scalar.ofInt? n with
    | some x => .ok (some x)
    | none => .error (.outOfRange field)
  | some (.real x) => if Scalar.isFinite x then .ok (some x) else .error (.notFinite field)
  | some _ => .error (.notNumeric field)

/-- The update that a payload is. The two objects are looked at before any number, and
    the numbers in the order of the fields. -/
def ofPayload (payload : Fields (Json α)) : Except PayloadError (Update α) := do
  let position ← members payload "position"
  let scale ← members payload "scale"
  let x ← number position "x" "position.x"
  let y ← number position "y" "position.y"
  let scaleX ← number scale "x" "scale.x"
  let scaleY ← number scale "y" "scale.y"
  let rotation ← number payload "rotation" "rotation"
  return ⟨x, y, scaleX, scaleY, rotation,
    payload.filter fun f => !Transform.structuralNames.contains f.1⟩

/-- A coordinate that is given is converted by its factor; one that is left open is kept
    as it is. -/
def coordinate (given : Option α) (factor prior : α) : α :=
  match given with
  | some x => x * factor
  | none => prior

/-- The transform after the update. Only the coordinates that the update brings are
    converted to working units. -/
def apply (factor : Vec2 α) (u : Update α) (prior : Transform α) : Transform α where
  position := ⟨coordinate u.x factor.x prior.position.x, coordinate u.y factor.y prior.position.y⟩
  scale := ⟨u.scaleX.getD prior.scale.x, u.scaleY.getD prior.scale.y⟩
  rotation := u.rotation.getD prior.rotation
  filters := Fields.update prior.filters u.filters

end Update

/-- The factor that converts nothing. -/
def Vec2.one {α : Type} [Scalar α] : Vec2 α := ⟨Scalar.ofNat 1, Scalar.ofNat 1⟩

/-- The transform with a payload on top of it. -/
def Transform.merge {α : Type} [Scalar α] (prior : Transform α) (payload : Fields (Json α))
    (factor : Vec2 α) : Except PayloadError (Transform α) :=
  (Update.ofPayload payload).map fun u => u.apply factor prior

end SceneScript
