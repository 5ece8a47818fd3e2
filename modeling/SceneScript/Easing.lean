import SceneScript.Scalar
import SceneScript.Text.Blank
import SceneScript.Text.LowerCase

/-!
# Easing

How a tween moves is stated in one of three ways: not at all, by an empty parameter that
leaves it to whoever plays or saves the script, or by a name. A name stands for one of
four **curves** on the unit interval; spelling of case, hyphens and underscores does not
count, and a name that is not known moves like the smooth curve.
-/

set_option autoImplicit false

namespace SceneScript

/-- The way in which an easing is stated. -/
inductive EasingKind where
  | unspecified
  | useDefault
  | named
deriving Repr, DecidableEq

structure Easing where
  kind : EasingKind
  name : Option String
deriving Repr, DecidableEq

namespace Easing

/-- No easing parameter. -/
def unspecified : Easing := ⟨.unspecified, none⟩

/-- An empty easing parameter. -/
def useDefault : Easing := ⟨.useDefault, none⟩

/-- An easing parameter with a name; the empty name is no name. -/
def ofName (name : String) : Easing := if name.isEmpty then useDefault else ⟨.named, some name⟩

/-- The easing of a line, from its parameter as it is written. -/
def ofParameter (value : Option String) : Easing :=
  match value with
  | none => unspecified
  | some v => ofName (String.ofList (Text.trim v.toList))

/-- The name that an easing is written with, if it says one. -/
def statedName? (e : Easing) : Option String :=
  match e.kind, e.name with
  | .named, some name => if name.isEmpty then none else some name
  | _, _ => none

end Easing

/-! ## Curves -/

/-- A curve from zero to one on the unit interval. -/
inductive Curve where
  | linear
  | easeIn
  | easeOut
  | easeInOut
deriving Repr, DecidableEq

namespace Curve

/-- The value of the curve. The curve that eases both ways is the cubic that starts and
    ends level. -/
def value {α : Type} [Scalar α] (c : Curve) (u : α) : α :=
  match c with
  | .linear => u
  | .easeIn => u * u
  | .easeOut => Scalar.ofNat 1 - (Scalar.ofNat 1 - u) * (Scalar.ofNat 1 - u)
  | .easeInOut => u * u * (Scalar.ofNat 3 - Scalar.ofNat 2 * u)

/-- The curves under their names, in small letters and without hyphens. -/
def names : List (List Char × Curve) :=
  [("linear".toList, .linear), ("easein".toList, .easeIn), ("easeout".toList, .easeOut),
   ("easeinout".toList, .easeInOut)]

/-- The curve that a name stands for. -/
def ofName (name : String) : Curve :=
  let key := Text.lower (name.toList.filter fun c => c ≠ '_' ∧ c ≠ '-')
  match names.find? fun entry => entry.1 == key with
  | some entry => entry.2
  | none => .easeInOut

/-- The curve of an easing; one that says no name moves like the smooth curve. -/
def ofEasing (e : Easing) : Curve :=
  match e.statedName? with
  | some name => ofName name
  | none => .easeInOut

end Curve
end SceneScript
