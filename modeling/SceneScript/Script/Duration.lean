import SceneScript.Command
import SceneScript.Text.Blank
import SceneScript.Text.DecimalDigit

/-!
# Durations

The duration of a tween is stated in milliseconds, by the digits that the parameter
starts with; what stands behind them, a unit for instance, does not count. A parameter
that starts with none says nothing, and the default holds.
-/

set_option autoImplicit false

namespace SceneScript
namespace Duration

/-- The digits that a duration states. -/
def digits (value : String) : List Nat := Text.leadingDigits (Text.trim value.toList)

/-- The parameter is there and starts with no digit. -/
def isNonNumeric (value : Option String) : Bool :=
  match value with
  | some v => (digits v).isEmpty
  | none => false

/-- The duration that a parameter states. Only a number of too many digits is refused. -/
def ofParameter (value : Option String) : Except Text.TooManyDigits Nat :=
  match value.map digits with
  | none | some [] => .ok defaultDuration
  | some ds => Text.readDigits ds

end Duration
end SceneScript
