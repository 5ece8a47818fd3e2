import SceneScript.Json.Basic

/-!
# What is wrong with a value

A value from outside is checked before it becomes a command. A check does not stop at
the first problem: it reports **every issue, each at its place and in the order of the
fields**. That order is the whole point of `Checked`, whose composition runs both of its
parts and puts the issues of the first before those of the second. An issue keeps the
value that it is about, since a report has to quote it.
-/

set_option autoImplicit false

namespace SceneScript
namespace Validation

/-! ## Problems -/

/-- A record that values are checked against, by its name in reports. -/
inductive RecordName where
  | vec2
  | transform
  | easing
  | segment
deriving Repr, DecidableEq

def RecordName.text : RecordName → String
  | .vec2 => "Vec2"
  | .transform => "Transform"
  | .easing => "Easing"
  | .segment => "AnimationSegment"

/-- One way for a value to be wrong. -/
inductive Problem where
  | missing
  | notText
  | tooShort
  | notWhole
  | unreadableWhole
  | fractional
  | wholeTooLong
  | notFinite
  | negative
  | notNumber
  | unreadableNumber
  | notTable
  | notList
  /-- No object where a record is expected. -/
  | notRecord (name : RecordName)
  /-- No object where fields are looked up. -/
  | noFields
  /-- None of the words that are allowed. -/
  | notAmong (words : List String)
  /-- Not the one word that is allowed. -/
  | notWord (word : String)
  /-- The kind of a command is not stated. -/
  | noTag
  /-- There is no such kind of command. -/
  | unknownTag (shown : String)
  | notJson
deriving Repr, DecidableEq

/-- Words in quotes, with commas and a last `or` between them. -/
def alternatives : List String → String
  | [] => ""
  | [w] => "'" ++ w ++ "'"
  | [v, w] => "'" ++ v ++ "' or '" ++ w ++ "'"
  | v :: ws => "'" ++ v ++ "', " ++ alternatives ws

/-- The kinds of commands. -/
def commandTags : List String := ["setTransform", "changeFigure", "changeBg", "rawText"]

/-- The short name of a problem. -/
def Problem.code : Problem → String
  | .missing => "missing"
  | .notText => "string_type"
  | .tooShort => "string_too_short"
  | .notWhole => "int_type"
  | .unreadableWhole => "int_parsing"
  | .fractional => "int_from_float"
  | .wholeTooLong => "int_parsing_size"
  | .notFinite => "finite_number"
  | .negative => "greater_than_equal"
  | .notNumber => "float_type"
  | .unreadableNumber => "float_parsing"
  | .notTable => "dict_type"
  | .notList => "list_type"
  | .notRecord _ => "model_type"
  | .noFields => "model_attributes_type"
  | .notAmong _ => "enum"
  | .notWord _ => "literal_error"
  | .noTag => "union_tag_not_found"
  | .unknownTag _ => "union_tag_invalid"
  | .notJson => "json_invalid"

/-- The problem in words. -/
def Problem.message : Problem → String
  | .missing => "Field required"
  | .notText => "Input should be a valid string"
  | .tooShort => "String should have at least 1 character"
  | .notWhole => "Input should be a valid integer"
  | .unreadableWhole => "Input should be a valid integer, unable to parse string as an integer"
  | .fractional => "Input should be a valid integer, got a number with a fractional part"
  | .wholeTooLong => "Unable to parse input string as an integer, exceeded maximum size"
  | .notFinite => "Input should be a finite number"
  | .negative => "Input should be greater than or equal to 0"
  | .notNumber => "Input should be a valid number"
  | .unreadableNumber => "Input should be a valid number, unable to parse string as a number"
  | .notTable => "Input should be a valid dictionary"
  | .notList => "Input should be a valid list"
  | .notRecord name => "Input should be a valid dictionary or instance of " ++ name.text
  | .noFields => "Input should be a valid dictionary or object to extract fields from"
  | .notAmong words => "Input should be " ++ alternatives words
  | .notWord word => "Input should be '" ++ word ++ "'"
  | .noTag => "Unable to extract tag using discriminator 'kind'"
  | .unknownTag shown =>
    "Input tag '" ++ shown ++ "' found using 'kind' does not match any of the expected tags: "
      ++ String.intercalate ", " (commandTags.map fun tag => "'" ++ tag ++ "'")
  | .notJson => "JSON decode error"

/-! ## Issues -/

/-- A step from a value to a part of it. -/
inductive Step where
  | field (name : String)
  | item (index : Nat)
deriving Repr, DecidableEq

/-- A problem, where it is, and the value that has it. -/
structure Issue (α : Type) where
  place : List Step
  problem : Problem
  value : Json α

/-- The outcome of a check of values over a type of reals: what the value stands for, or
    all the issues. -/
inductive Checked (α β : Type) where
  | valid (value : β)
  | invalid (issues : List (Issue α))

namespace Checked

variable {α β γ : Type}

def map (f : β → γ) : Checked α β → Checked α γ
  | valid x => valid (f x)
  | invalid issues => invalid issues

/-- Both checks; the issues of the first come first. -/
def both (f : Checked α (β → γ)) (x : Checked α β) : Checked α γ :=
  match f, x with
  | valid f, valid x => valid (f x)
  | valid _, invalid issues => invalid issues
  | invalid issues, valid _ => invalid issues
  | invalid issues, invalid more => invalid (issues ++ more)

instance : Applicative (Checked α) where
  pure := valid
  seq f x := both f (x ())

/-- A problem with the value itself. -/
def fail (problem : Problem) (v : Json α) : Checked α β := invalid [⟨[], problem, v⟩]

/-- The check of a part of a value. -/
def under (step : Step) : Checked α β → Checked α β
  | valid x => valid x
  | invalid issues => invalid (issues.map fun issue => { issue with place := step :: issue.place })

/-- A further condition on what the value `v` stands for. -/
def require (condition : β → Bool) (problem : Problem) (v : Json α) :
    Checked α β → Checked α β
  | valid x => if condition x then valid x else fail problem v
  | invalid issues => invalid issues

def toExcept : Checked α β → Except (List (Issue α)) β
  | valid x => .ok x
  | invalid issues => .error issues

end Checked
end Validation
end SceneScript
