import SceneScript.Transform

/-!
# Rounding what is saved

A saved transform has at most two decimals, and a half goes up. Some filters are colours
or angles that the stage takes as whole numbers; they are rounded to the next one. A
rounded real that is a whole number is saved as one, so that `100.0` becomes `100`.

Only finite reals are touched, at every depth: an object's member is rounded by its own
name, the items of a list by the name of the list.
-/

set_option autoImplicit false

namespace SceneScript
namespace Rounding

variable {α : Type} [Scalar α]

/-- The filters that are whole numbers. -/
def wholeNumbered : List String :=
  ["colorRed", "colorGreen", "colorBlue", "bevelRed", "bevelGreen", "bevelBlue", "bevelRotation"]

/-- One half. -/
def half : α := Scalar.ofDecimal ⟨false, 5, -1⟩

/-- So many hundredths. -/
def hundredths (n : Int) : α := Scalar.ofDecimal ⟨decide (n < 0), n.natAbs, -2⟩

/-- The value rounded to two decimals, a half upwards. It fails where there is no number,
    or where the value in hundredths is out of range. -/
def roundToTwo (x : α) : Except NonFinite α :=
  (Scalar.floor (x * Scalar.ofNat 100 + half)).map hundredths

/-- The value rounded to a whole number, a half upwards. -/
def roundToWhole (x : α) : Except NonFinite Int := Scalar.floor (x + half)

/-- A real as a whole number where it is one. -/
def compact (x : α) : Json α :=
  match Scalar.whole? x with
  | some n => .int n
  | none => .real x

/-- A real under a name, rounded. -/
def roundReal (name : String) (x : α) : Except NonFinite (Json α) :=
  if !Scalar.isFinite x then .ok (.real x)
  else if wholeNumbered.contains name then (roundToWhole x).map .int
  else (roundToTwo x).map compact

mutual

/-- A value under a name, rounded. -/
def roundValue (name : String) : Json α → Except NonFinite (Json α)
  | .real x => roundReal name x
  | .arr items => (roundItems name items).map .arr
  | .obj members => (roundFields members).map .obj
  | v => .ok v

/-- Values under one name, rounded. -/
def roundItems (name : String) : List (Json α) → Except NonFinite (List (Json α))
  | [] => .ok []
  | v :: rest =>
    match roundValue name v, roundItems name rest with
    | .error e, _ => .error e
    | .ok _, .error e => .error e
    | .ok v, .ok rest => .ok (v :: rest)

/-- Named values, rounded. -/
def roundFields : List (String × Json α) → Except NonFinite (List (String × Json α))
  | [] => .ok []
  | (name, v) :: rest =>
    match roundValue name v, roundFields rest with
    | .error e, _ => .error e
    | .ok _, .error e => .error e
    | .ok v, .ok rest => .ok ((name, v) :: rest)

end

/-- The payload that a transform is saved as, with its position converted by the ratio of
    the script's resolution to the working one. -/
def savedPayload (ratio : Vec2 α) (t : Transform α) : Except NonFinite (Fields (Json α)) :=
  roundFields (t.payload.set "position" (Json.axes (t.position.x * ratio.x) (t.position.y * ratio.y)))

end Rounding
end SceneScript
