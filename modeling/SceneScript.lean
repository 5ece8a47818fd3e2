import SceneScript.Asset.Metadata
import SceneScript.Command
import SceneScript.Placement
import SceneScript.Reconciliation
import SceneScript.Script.Reading
import SceneScript.Script.Writing
import SceneScript.Service.Http
import SceneScript.Settings
import SceneScript.Timeline
import SceneScript.Validation.Record
import SceneScript.Proofs.Script.Locality
import SceneScript.Proofs.Script.Slicing
import SceneScript.Proofs.Decimal.Nearest
import SceneScript.Proofs.Decimal.ReadBack
import SceneScript.Proofs.Scalar.Bits
import SceneScript.Proofs.Scalar.Arithmetic
import SceneScript.Proofs.Fields
import SceneScript.Proofs.Json.Agreement
import SceneScript.Proofs.Json.Every
import SceneScript.Proofs.Json.LineBreaks
import SceneScript.Proofs.Json.Renderable
import SceneScript.Proofs.Json.Strict
import SceneScript.Proofs.Reconciliation
import SceneScript.Proofs.Rounding
import SceneScript.Proofs.SavedPayload
import SceneScript.Proofs.Script.Parameters
import SceneScript.Proofs.Script.Rewritable
import SceneScript.Proofs.Script.RoundTrip
import SceneScript.Proofs.Script.Saving
import SceneScript.Proofs.Script.Conversion
import SceneScript.Proofs.Script.SavedPicture
import SceneScript.Proofs.Script.EveryLine
import SceneScript.Proofs.RunningStates
import SceneScript.Proofs.LastSegment
import SceneScript.Proofs.Reconcilable
import SceneScript.Proofs.Overflow
import SceneScript.Proofs.Service.Exporting
import SceneScript.Proofs.Json.Behind
import SceneScript.Proofs.Script.SameMove
import SceneScript.Proofs.Idempotence
import SceneScript.Proofs.Script.OnlyMoves
import SceneScript.Proofs.EndOfSegment
import SceneScript.Proofs.Script.Flags
import SceneScript.Proofs.Json.Flags
import SceneScript.Proofs.Script.Switched
import SceneScript.Proofs.Script.SavedFlag
import SceneScript.Proofs.Overlay
import SceneScript.Proofs.Segments
import SceneScript.Proofs.Script.Tokens
import SceneScript.Proofs.Script.Toggled
import SceneScript.Proofs.Scalar.Rational
import SceneScript.Proofs.Placement
import SceneScript.Proofs.Moments
import SceneScript.Proofs.Resaving
import SceneScript.Proofs.Json.Grammar
import SceneScript.Proofs.Json.Reading
import SceneScript.Proofs.Asset.ListOfModels
