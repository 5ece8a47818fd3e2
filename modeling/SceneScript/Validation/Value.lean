import SceneScript.Json.Inspect
import SceneScript.Validation.Issue
import SceneScript.Validation.Numeral

/-!
# Checking single values

Checks are lenient where nothing is lost: a truth value is a number, a real without a
fraction is a whole number, and a text that writes a number is one.
-/

set_option autoImplicit false

namespace SceneScript
namespace Validation

/-! ## Values -/

variable {α : Type}

/-- A text. -/
def text : Json α → Checked α String
  | .str s => .valid s
  | v => .fail .notText v

/-- A text that is not empty. -/
def someText (v : Json α) : Checked α String := (text v).require (fun s => !s.isEmpty) .tooShort v

/-- A text or nothing. -/
def optionalText : Json α → Checked α (Option String)
  | .null => .valid none
  | v => (text v).map some

/-- What a word stands for, among some that stand for something. -/
def meaning? {β : Type} (words : List (String × β)) : Json α → Option β
  | .str s => (words.find? fun entry => entry.1 = s).map (·.2)
  | _ => none

/-- One of the words that stand for something. -/
def among {β : Type} (words : List (String × β)) (v : Json α) : Checked α β :=
  match meaning? words v with
  | some x => .valid x
  | none => .fail (.notAmong (words.map (·.1))) v

/-- The one word that is allowed. -/
def word (expected : String) (v : Json α) : Checked α Unit :=
  match meaning? [(expected, ())] v with
  | some x => .valid x
  | none => .fail (.notWord expected) v

/-- The fields of an object. -/
def table : Json α → Checked α (Fields (Json α))
  | .obj members => .valid members
  | v => .fail .notTable v

/-- A list, each of its items checked. -/
def items {β : Type} (check : Json α → Checked α β) (index : Nat) : List (Json α) → Checked α (List β)
  | [] => .valid []
  | v :: rest =>
    List.cons <$> (check v).under (.item index) <*> items check (index + 1) rest

def list {β : Type} (check : Json α → Checked α β) : Json α → Checked α (List β)
  | .arr vs => items check 0 vs
  | v => .fail .notList v

/-- The values of an object, each of them checked. -/
def values {β : Type} (check : Json α → Checked α β) : Fields (Json α) → Checked α (Fields β)
  | [] => .valid []
  | (name, v) :: rest =>
    (fun x xs => (name, x) :: xs) <$> (check v).under (.field name) <*> values check rest

/-- A field that has to be there. -/
def required {β : Type} (name : String) (check : Json α → Checked α β) (fields : Fields (Json α)) :
    Checked α β :=
  match fields.get? name with
  | some v => (check v).under (.field name)
  | none => (Checked.fail .missing (.obj fields)).under (.field name)

/-- A field that has a default. -/
def withDefault {β : Type} (name : String) (default : β) (check : Json α → Checked α β)
    (fields : Fields (Json α)) : Checked α β :=
  match fields.get? name with
  | some v => (check v).under (.field name)
  | none => .valid default

variable [Scalar α]

/-- The reals that stand for whole numbers lie below this magnitude, `2 ^ 63`. -/
def wholeBound : Nat := 0x8000000000000000

/-- A whole number from a real. -/
def wholeOfReal (x : α) : Checked α Int :=
  if !Scalar.isFinite x then .fail .notFinite (.real x)
  else
    match Scalar.whole? x with
    | none => .fail .fractional (.real x)
    | some n => if n.natAbs < wholeBound then .valid n else .fail .wholeTooLong (.real x)

/-- A whole number. -/
def whole : Json α → Checked α Int
  | .int n => .valid n
  | .bool b => .valid (if b then 1 else 0)
  | .real x => wholeOfReal x
  | .str s =>
    if opensTooLong s.toList then .fail .wholeTooLong (.str s)
    else
      match wholeOfText? s.toList with
      | some n => .valid n
      | none => .fail .unreadableWhole (.str s)
  | v => .fail .notWhole v

/-- A whole number that is not negative. -/
def natural (v : Json α) : Checked α Nat :=
  ((whole v).require (fun n => decide (0 ≤ n)) .negative v).map Int.toNat

/-- A number to compute with, as a real. -/
def real : Json α → Checked α α
  | .real x => .valid x
  | .bool b => .valid (Scalar.ofNat (if b then 1 else 0))
  | .int n =>
    match Scalar.ofInt? n with
    | some x => .valid x
    | none => .fail .notNumber (.int n)
  | .str s =>
    match realOfText? s.toList with
    | some x => .valid x
    | none => .fail .unreadableNumber (.str s)
  | v => .fail .notNumber v

/-- Nothing, or what is checked. -/
def optional {β : Type} (check : Json α → Checked α β) : Json α → Checked α (Option β)
  | .null => .valid none
  | v => (check v).map some

end Validation
end SceneScript
