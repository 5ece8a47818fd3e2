import SceneScript.Asset.Metadata
import SceneScript.Reconciliation
import SceneScript.Script.Reading
import SceneScript.Settings

/-!
# Notices

All that the parts of the program have to say beside their results.
-/

set_option autoImplicit false

namespace SceneScript

/-- What is worth telling, by the part that tells it. -/
inductive Notice where
  | reading (n : Script.Notice)
  | reconciliation (n : Reconciliation.Notice)
  | asset (n : Asset.LoadNotice)
  | settings (n : Settings.Notice)
  /-- A script of so many lines holds no command. -/
  | noCommands (lines : Nat)

namespace Notice

def message : Notice → String
  | reading n => n.message
  | reconciliation n => n.message
  | asset n => n.message
  | settings n => n.message
  | noCommands lines => "No commands parsed from " ++ toString lines ++ " line(s)"

/-- Something is not as it should be. -/
def isWarning : Notice → Bool
  | noCommands _ => false
  | _ => true

end Notice
end SceneScript
