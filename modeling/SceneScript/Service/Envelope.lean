import SceneScript.Validation.Value
import SceneScript.Wire

/-!
# The envelope of an error

Every error that a caller is told about has one form: a code to act on, a message to
read, the status, the kind of resource it is about, and details.
-/

set_option autoImplicit false

namespace SceneScript

/-- An error as a caller is told about it. -/
structure Envelope (α : Type) where
  code : String
  message : String
  status : Int
  resourceKind : Option String
  details : Fields (Json α)

namespace Envelope

variable {α : Type}

/-- The envelope on the wire. -/
def wire (e : Envelope α) : Json α :=
  .obj [("error", .obj [("code", .str e.code), ("message", .str e.message),
    ("http_status", .int e.status), ("resource_kind", Wire.optionalText e.resourceKind),
    ("details", .obj e.details)])]

/-- The status of a request that the caller has to mend. -/
def badRequest : Nat := 400

/-- The envelope of a request that an action cannot carry out. -/
def invalidRequest (message resourceKind action : String) : Envelope α where
  code := resourceKind ++ ".invalid_request"
  message := message
  status := badRequest
  resourceKind := some resourceKind
  details := [("action", .str action)]

/-- The envelope in checked fields. Details that say nothing are none. -/
def check [WrittenScalar α] (fields : Fields (Json α)) : Validation.Checked α (Envelope α) :=
  Envelope.mk <$> Validation.required "code" Validation.text fields
    <*> Validation.required "message" Validation.text fields
    <*> Validation.withDefault "http_status" (badRequest : Int) Validation.whole fields
    <*> Validation.withDefault "resource_kind" none Validation.optionalText fields
    <*> Validation.withDefault "details" [] Validation.table
      (fields.filter fun field => field.1 ≠ "details" ∨ Asset.isTelling field.2)

end Envelope
end SceneScript
