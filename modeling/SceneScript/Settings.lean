import SceneScript.Command
import SceneScript.Text.Blank
import SceneScript.Text.Numeral
import SceneScript.Text.Quoted

/-!
# Settings

The settings come from the environment, each with a default. A number that cannot be used
is reported and left aside, so **settings can always be read, and their numbers are
positive**. The exported duration defaults to the other one, whatever that came out as.
-/

set_option autoImplicit false

namespace SceneScript

/-- The settings of a service. -/
structure Settings where
  /-- The resolution that the coordinates of a script are meant for. -/
  baseWidth : Int
  baseHeight : Int
  /-- The duration of a new tween, in milliseconds. -/
  defaultDuration : Int
  /-- The duration that every tween is written with. -/
  exportDuration : Int
  defaultEasing : String
  gameFolder : Option String
deriving Repr, DecidableEq

/-- The variables of an environment. -/
abbrev Environment := Fields String

namespace Settings

/-! ## Notices -/

/-- A variable that was left aside for its default. -/
inductive Notice where
  | notWhole (name value : String) (default : Int)
  | notPositive (name value : String) (default : Int)
deriving Repr, DecidableEq

def Notice.message : Notice → String
  | .notWhole name value default =>
    "Ignoring non-integer " ++ name ++ "=" ++ Text.quotedString value ++ "; using "
      ++ toString default
  | .notPositive name value default =>
    "Ignoring non-positive " ++ name ++ "=" ++ Text.quotedString value ++ "; using "
      ++ toString default

/-! ## Numbers -/

/-- A character beyond ASCII as the space or the digit that it stands for. -/
def plainChar (c : Char) : Char :=
  if c.toNat < 128 then c
  else if Text.isBlank c then ' '
  else
    match Text.digitValue? c with
    | some d => Nat.digitChar d
    | none => '?'

/-- White space of ASCII around a number. -/
def isPlainSpace (c : Char) : Bool := c == ' ' || (0x09 ≤ c.toNat && c.toNat ≤ 0x0D)

/-- The whole number that a variable holds: a sign, and digits that underscores may
    divide, with space around it. -/
def whole? (value : String) : Option Int :=
  let plain := (value.toList.map plainChar).dropWhile isPlainSpace
  let (negative, unsigned) := Text.splitSign (plain.reverse.dropWhile isPlainSpace).reverse
  match Text.withoutUnderscores? unsigned with
  | none => none
  | some digits =>
    if Text.isDigits digits then
      match Text.readDigits (Text.digitValues digits) with
      | .ok n => some (Text.signed negative n)
      | .error _ => none
    else none

/-- A positive number from a variable, or its default. -/
def positive (env : Environment) (name : String) (default : Int) : Int × List Notice :=
  match env.get? name with
  | none => (default, [])
  | some value =>
    if Text.isBlankText value.toList then (default, [])
    else
      match whole? value with
      | none => (default, [.notWhole name value default])
      | some n => if n ≤ 0 then (default, [.notPositive name value default]) else (n, [])

theorem positive_pos (env : Environment) (name : String) (default : Int) (h : 0 < default) :
    0 < (positive env name default).1 := by
  unfold positive
  split
  · exact h
  · split
    · exact h
    · split
      · exact h
      · next n _ =>
        split
        · exact h
        · next hn => exact Int.not_le.mp hn

/-- A variable that says something. -/
def stated? (env : Environment) (name : String) : Option String :=
  (env.get? name).filter fun value => !value.isEmpty

/-! ## Reading -/

/-- The settings in an environment. -/
def ofEnvironment (env : Environment) : Settings × List Notice :=
  let (baseWidth, onWidth) := positive env "SCRIPT_BASE_WIDTH" 2560
  let (baseHeight, onHeight) := positive env "SCRIPT_BASE_HEIGHT" 1440
  let (duration, onDuration) := positive env "SCRIPT_DEFAULT_DURATION_MS" SceneScript.defaultDuration
  let (exportDuration, onExport) := positive env "SCRIPT_EXPORT_DURATION_MS" duration
  ({ baseWidth, baseHeight, exportDuration
     defaultDuration := duration
     defaultEasing := (stated? env "SCRIPT_DEFAULT_EASING").getD "default"
     gameFolder := stated? env "WEBGAL_GAME_FOLDER" },
   onWidth ++ onHeight ++ onDuration ++ onDuration ++ onExport)

/-- The numbers of the settings are positive, whatever the environment says. -/
theorem ofEnvironment_pos (env : Environment) :
    let s := (ofEnvironment env).1
    0 < s.baseWidth ∧ 0 < s.baseHeight ∧ 0 < s.defaultDuration ∧ 0 < s.exportDuration := by
  have hd := positive_pos env "SCRIPT_DEFAULT_DURATION_MS" SceneScript.defaultDuration (by decide)
  exact ⟨positive_pos env _ _ (by decide), positive_pos env _ _ (by decide), hd,
    positive_pos env _ _ hd⟩

/-- The name of the environment, where it has one. -/
def environmentName (env : Environment) : Option String :=
  (stated? env "ENV").or (env.get? "APP_ENV")

end Settings
end SceneScript
