/-!
# Character classes as ranges of code points

A class of characters that a standard defines is data, not logic: a list of
closed ranges of code points. This module has the one test that reads such a
list; each class has a module of its own, named for the property.
-/

set_option autoImplicit false

namespace SceneScript
namespace Text

/-- Closed ranges of code points, in ascending order. -/
abbrev Ranges := List (Nat × Nat)

/-- The character lies in one of the ranges. -/
def Ranges.has (ranges : Ranges) (c : Char) : Bool :=
  ranges.any fun r => decide (r.1 ≤ c.toNat) && decide (c.toNat ≤ r.2)

end Text
end SceneScript
