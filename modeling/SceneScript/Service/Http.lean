import SceneScript.Json.Encoding
import SceneScript.Service.Envelope
import SceneScript.Service.Host
import SceneScript.Service.Target

/-!
# The service over HTTP

A request names a **route** by its path; the route has one method. Its body is a JSON
document whose fields are checked as a whole before anything is done, and every issue is
reported at its place. The service is looked up as soon as a body has been read, so that
what it has to say comes before the report on a body that is wrong.

An action that fails because of what the caller sent is answered with an envelope. Any
other failure is the server's own and says no more than that.
-/

set_option autoImplicit false

namespace SceneScript
namespace Http

open Validation (Checked Issue)

/-! ## Requests and responses -/

/-- The body of a request. -/
inductive Body (α : Type) where
  | absent
  /-- A document that is read already. -/
  | document (v : Json α)
  | bytes (bs : List UInt8)

structure Request (α : Type) where
  method : String
  target : Target
  body : Body α

/-- What is sent back: a document or a plain text. -/
inductive Content (α : Type) where
  | document (v : Json α)
  | text (s : String)

structure Response (α : Type) where
  status : Nat
  content : Content α

/-! ## Routes -/

inductive Route where
  | health
  | parse
  | reconcile
  | animation
  | export
  | toggleNext
  | setTransformOnly
  | placeFigure
  | assetType
  | assetMetadata
deriving Repr, DecidableEq

namespace Route

def all : List Route :=
  [health, parse, reconcile, animation, «export», toggleNext, setTransformOnly, placeFigure,
    assetType, assetMetadata]

def path : Route → String
  | health => "/health"
  | parse => "/script/parse"
  | reconcile => "/script/reconcile"
  | animation => "/script/animation"
  | «export» => "/script/export"
  | toggleNext => "/script/lines/toggle-next"
  | setTransformOnly => "/script/lines/set-transform-only"
  | placeFigure => "/script/figures/place"
  | assetType => "/script/assets/type"
  | assetMetadata => "/script/assets/metadata"

/-- The method that a route answers to. -/
def method : Route → String
  | health => "GET"
  | assetType => "GET"
  | assetMetadata => "GET"
  | _ => "POST"

/-- The route at a path. -/
def ofPath? (path : String) : Option Route := all.find? fun r => r.path = path

/-- The path with the slashes at its end taken away, or with one put there. -/
def otherSlash (path : String) : String :=
  let cs := path.toList
  if cs.getLast? = some '/' then String.ofList (cs.reverse.dropWhile (· == '/')).reverse
  else path.push '/'

/-- The route of a request. Slashes at the end of its path lead to the route without
    them. -/
def find? (path : String) : Option Route := (ofPath? path).or (ofPath? (otherSlash path))

/-- The route uses the service. -/
def needsService : Route → Bool
  | parse => true
  | reconcile => true
  | animation => true
  | «export» => true
  | placeFigure => true
  | assetMetadata => true
  | _ => false

end Route

section Answers

variable {α : Type}

/-! ## Answers -/

def answer (v : Json α) : Response α := ⟨200, .document v⟩

/-- An answer that says what was wrong. -/
def refusal (status : Nat) (detail : Json α) : Response α :=
  ⟨status, .document (.obj [("detail", detail)])⟩

def notFound : Response α := refusal 404 (.str "Not Found")

def methodNotAllowed : Response α := refusal 405 (.str "Method Not Allowed")

def unreadableBody : Response α := refusal 400 (.str "There was an error parsing the body")

def serverError : Response α := ⟨500, .text "Internal Server Error"⟩

def badRequest (e : Envelope α) : Response α := refusal Envelope.badRequest e.wire

end Answers

variable {α : Type} [WrittenScalar α]

mutual

/-- The value with a null for every real that is no number. -/
def finite : Json α → Json α
  | .real x => if Scalar.isFinite x then .real x else .null
  | .arr items => .arr (finiteItems items)
  | .obj members => .obj (finiteMembers members)
  | v => v

def finiteItems : List (Json α) → List (Json α)
  | [] => []
  | v :: rest => finite v :: finiteItems rest

def finiteMembers : List (String × Json α) → List (String × Json α)
  | [] => []
  | (name, v) :: rest => (name, finite v) :: finiteMembers rest

end

/-- The names of members that reports leave out start with these characters. -/
def withheldStart : List Char := ['_', 's', 'a']

mutual

/-- A report can quote the value: it holds no real that is no number. -/
def isQuotable : Json α → Bool
  | .real x => Scalar.isFinite x
  | .arr items => areQuotableItems items
  | .obj members => areQuotableMembers members
  | _ => true

def areQuotableItems : List (Json α) → Bool
  | [] => true
  | v :: rest => isQuotable v && areQuotableItems rest

def areQuotableMembers : List (String × Json α) → Bool
  | [] => true
  | (name, v) :: rest =>
    (withheldStart.isPrefixOf name.toList || isQuotable v) && areQuotableMembers rest

end

/-- A report on what is wrong with a request. It quotes the values that are wrong, and
    without that there is no report. -/
def unprocessable (issues : List (Issue α)) : Response α :=
  if issues.all fun i => isQuotable i.value then refusal 422 (Wire.issues issues) else serverError

/-- The response as it is sent. -/
def Response.sent (r : Response α) : Response α :=
  match r.content with
  | .document v => { r with content := .document (finite v) }
  | .text _ => r

/-! ## Bodies -/

/-- The document in a body, nothing for none, or the response to a body without one. -/
def readBody : Body α → Except (Response α) (Option (Json α))
  | .absent => .ok none
  | .document v => .ok (some v)
  | .bytes bs =>
    if bs.isEmpty then .ok none
    else
      match Json.decodeBytes? bs with
      | none => .error unreadableBody
      | some text =>
        match Json.readAll .lenient text with
        | .ok v => .ok (some v)
        | .error (.malformed _ left) =>
          .error (unprocessable
            [⟨[.field "body", .item (Json.position text left)], .notJson, .obj []⟩])
        | .error (.number _) => .error unreadableBody

/-- Check the fields of a body. A null is no body. -/
def checkBody {β : Type} (check : Fields (Json α) → Checked α β) (body : Option (Json α)) :
    Checked α β :=
  (match body with
    | none | some .null => .fail .missing .null
    | some (.obj fields) => check fields
    | some v => .fail .noFields v : Checked α β).under (.field "body")

/-- A text in the query. -/
def queryText (name : String) (query : Fields String) : Checked α String :=
  (match query.get? name with
    | some s => .valid s
    | none => (Checked.fail .missing .null).under (.field name) : Checked α String).under (.field "query")

/-! ### The fields of the routes -/

/-- The text of a script and the factors for it. -/
def parseFields (fields : Fields (Json α)) : Checked α (String × Vec2 α) :=
  (fun text x y => (text, ⟨x, y⟩)) <$> Validation.required "text" Validation.text fields
    <*> Validation.withDefault "scale_x" (Scalar.ofNat 1) Validation.real fields
    <*> Validation.withDefault "scale_y" (Scalar.ofNat 1) Validation.real fields

/-- Commands. -/
def commandsField (fields : Fields (Json α)) : Checked α (List (Command α)) :=
  Validation.withDefault "commands" [] (Validation.commands .request) fields

/-- A width and a height. -/
def sizeFields (what : String) (fields : Fields (Json α)) : Checked α (Vec2 α) :=
  Vec2.mk <$> Validation.required (what ++ "_width") Validation.real fields
    <*> Validation.required (what ++ "_height") Validation.real fields

/-- Commands, a canvas, and what a caller may choose. -/
def exportFields (fields : Fields (Json α)) :
    Checked α (List (Command α) × Vec2 α × Service.ExportOptions α) :=
  (fun commands canvas duration width height easing =>
      (commands, canvas, ⟨duration.map Int.ofNat, width, height, easing⟩))
    <$> commandsField fields
    <*> sizeFields "canvas" fields
    <*> Validation.withDefault "export_duration" none (Validation.optional Validation.natural) fields
    <*> Validation.withDefault "base_width" none (Validation.optional Validation.real) fields
    <*> Validation.withDefault "base_height" none (Validation.optional Validation.real) fields
    <*> Validation.withDefault "default_easing" none Validation.optionalText fields

/-- A target, an anchor and two sizes. -/
def placeFields (fields : Fields (Json α)) : Checked α (String × Anchor × Vec2 α × Vec2 α) :=
  (fun target canvas image anchor => (target, anchor, canvas, image))
    <$> Validation.required "target" Validation.someText fields
    <*> sizeFields "canvas" fields
    <*> sizeFields "image" fields
    <*> Validation.withDefault "preset" .center (Validation.among Validation.anchors) fields

/-! ## Actions -/

/-- What a caller did wrong, if that is why an action failed. -/
def callerMistake? : Failure α → Option String
  | .payload e => some e.message
  | .write e => e.message?
  | .placement .notPositive => some PlacementError.notPositive.message
  | .placement .divisionByZero => none
  | .invalid issues => some (String.intercalate "\n" (issues.map fun i => i.problem.message))
  | .divisionByZero => none
  | .outOfRange => none

/-- The response to a failed action. -/
def failed (resourceKind action : String) (failure : Failure α) : Response α :=
  match callerMistake? failure with
  | some message => badRequest (Envelope.invalidRequest message resourceKind action)
  | none => serverError

/-! ### Depth

The values of filters are the only part of an answer that can be nested at will. An
answer is written to a limited depth, and one that goes deeper cannot be sent. -/

/-- How deep the value of a filter in a command may be nested. -/
def maxDepth : Nat := 254

/-- The values of the filters are nested no deeper than the limit. -/
def transformFits (limit : Nat) (t : Transform α) : Bool :=
  t.filters.all fun filter => decide (filter.2.depth ≤ limit)

def commandFits (c : Command α) : Bool :=
  match c.effect? with
  | some (_, t) => transformFits maxDepth t
  | none => true

/-- A segment refers to its transforms, which takes one level. -/
def segmentFits (s : Segment α) : Bool :=
  transformFits (maxDepth - 1) s.startState && transformFits (maxDepth - 1) s.endState

/-- An answer, if it fits. -/
def answerIf (fits : Bool) (v : Json α) : Response α := if fits then answer v else serverError

/-- The lines of a written script. -/
def writtenLines (script : String) : List String :=
  if script.isEmpty then []
  else (script.toList.splitOn '\n').map String.ofList

/-- Go on with what was checked, or report the issues. -/
def whenValid {β : Type} (checked : Checked α β) (act : β → Hosted (Response α)) :
    Hosted (Response α) :=
  match checked with
  | .valid x => act x
  | .invalid issues => return unprocessable issues

/-- What a route without a service does. -/
def actAlone (route : Route) (query : Fields String) (body : Option (Json α)) :
    Hosted (Response α) :=
  match route with
  | .toggleNext =>
    whenValid (checkBody (Validation.required "line" Validation.text) body) fun line => do
      let toggled := Line.toggleNext line.toList
      return answer (.obj [("line", .str (String.ofList toggled)),
        ("has_next", .bool (Line.hasNext toggled))])
  | .setTransformOnly =>
    whenValid (checkBody (Validation.required "text" Validation.text) body) fun text => do
      let kept := Line.setTransforms (Text.contentLines text.toList)
      return answer (.obj [("lines", Wire.texts (kept.map String.ofList))])
  | .assetType => whenValid (queryText "path" query) fun path => return answer (Wire.fileType path)
  | _ => return answer (.obj [("status", .str "ok")])

/-- What a route does with the service. -/
def actWith (s : Service) (route : Route) (query : Fields String) (body : Option (Json α)) :
    Hosted (Response α) :=
  match route with
  | .parse =>
    whenValid (checkBody parseFields body) fun (text, factor) => do
      let commands ← Host.parse factor text
      return answerIf (commands.all commandFits) (.obj [("commands", Wire.commands .obj commands)])
  | .reconcile =>
    whenValid (checkBody commandsField body) fun commands => do
      match ← Host.reconcile commands with
      | .ok r =>
        return answerIf (r.consolidated.all commandFits) (Wire.reconciled .obj r)
      | .error _ => return serverError
  | .animation =>
    whenValid (checkBody commandsField body) fun commands =>
      let segments := Timeline.ofCommands commands
      return answerIf (segments.all segmentFits) (Wire.segments .obj segments)
  | .export =>
    whenValid (checkBody exportFields body) fun (commands, canvas, options) => do
      match s.write commands canvas options with
      | .error e => return failed "script" "export" e
      | .ok script =>
        return answer (.obj [("script", .str script), ("lines", Wire.texts (writtenLines script))])
  | .placeFigure =>
    whenValid (checkBody placeFields body) fun (target, anchor, canvas, image) => do
      match s.placeFigure (.str target) anchor canvas image with
      | .error e => return failed "figure" "place" e
      | .ok c => return answer (Wire.setTransform .obj c)
  | .assetMetadata =>
    whenValid (queryText "path" query) fun path => do
      return answer (Wire.metadata (← Host.figureMetadata α s path))
  | _ => actAlone route query body

/-- The response to a request that a route answers to. -/
def act (route : Route) (request : Request α) : Hosted (Response α) := do
  let body := if route.method = "GET" then .ok none else readBody request.body
  match body with
  | .error response => return response
  | .ok body =>
    if route.needsService then actWith (← Host.theService) route request.target.query body
    else actAlone route request.target.query body

/-- The response to a request, with its content. -/
def respondInFull (request : Request α) : Hosted (Response α) := do
  match Route.find? request.target.path with
  | none => return notFound
  | some route =>
    if route.method = request.method then return (← act route request).sent
    else return methodNotAllowed

/-- The response to a request. A request for the head alone is sent no content. -/
def respond (request : Request α) : Hosted (Response α) := do
  let response ← respondInFull request
  return if request.method = "HEAD" then { response with content := .text "" } else response

end Http
end SceneScript
