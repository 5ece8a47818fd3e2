import SceneScript.Fields
import SceneScript.Scalar

/-!
# JSON values

The values of a script's JSON. **Whole numbers and reals are different values**: `1`
and `1.0` are kept apart from reading to writing, because the one is exact at any
size and the other is computed with. The members of an object keep their order.
-/

set_option autoImplicit false

namespace SceneScript

/-- A JSON value over a type of reals. -/
inductive Json (α : Type) where
  | null
  | bool (b : Bool)
  | int (n : Int)
  | real (x : α)
  | str (s : String)
  | arr (items : List (Json α))
  | obj (members : List (String × Json α))
deriving Inhabited

namespace Json

variable {α : Type}

/-- The member of an object under a name; nothing for a value that is no object. -/
def member? : Json α → String → Option (Json α)
  | .obj members, name => Fields.get? members name
  | _, _ => none

/-- The member under a name, where a null counts as absent. -/
def given? (fields : Fields (Json α)) (name : String) : Option (Json α) :=
  match fields.get? name with
  | some .null => none
  | found => found

mutual

/-- How deep a value is nested: one for a value that holds no other, and one more for
    every list and object around it. -/
def depth : Json α → Nat
  | .arr items => itemsDepth items + 1
  | .obj members => membersDepth members + 1
  | _ => 1

/-- The depth of the deepest item. -/
def itemsDepth : List (Json α) → Nat
  | [] => 0
  | v :: rest => max (depth v) (itemsDepth rest)

/-- The depth of the deepest member. -/
def membersDepth : List (String × Json α) → Nat
  | [] => 0
  | (_, v) :: rest => max (depth v) (membersDepth rest)

end

/-- Two reals under the names of the axes. -/
def axes (x y : α) : Json α := .obj [("x", .real x), ("y", .real y)]

end Json
end SceneScript
