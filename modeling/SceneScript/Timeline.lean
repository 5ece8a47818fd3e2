import SceneScript.Command

/-!
# The timeline of a preview

Every `setTransform` is a **segment**, a tween from the transform that its target is in
to its own one; the segments of a target are chained by that. A target that is put up
and never moved has one segment of no length, which holds it.

At a moment inside a segment each part of the transform lies on the straight line
between its two ends, at the height of the easing curve. The curve is cut off to the
unit interval before and behind, so that **no moment and no curve lead out of the
segment**. What is no number switches at the end.
-/

set_option autoImplicit false

namespace SceneScript

/-- One tween of a target. Times are in milliseconds. -/
structure Segment (α : Type) where
  target : String
  startState : Transform α
  endState : Transform α
  duration : Int
  easing : Easing
  startTime : Int

namespace Segment

/-- The time at which the segment is over. -/
def endTime {α : Type} (s : Segment α) : Int := s.startTime + s.duration

end Segment

namespace Timeline

/-! ## Segments -/

section Segments

variable {α : Type}

/-- The tweens of commands, on a stage. Without an earlier state a tween stays at its
    own one. -/
def tweens (stage : Stage α) : List (Command α) → List (Segment α)
  | [] => []
  | c :: cs =>
    match c with
    | .setTransform m =>
      ⟨m.target, (stage.get? m.target).getD m.transform, m.transform, m.duration, m.easing, 0⟩
        :: tweens (stage.after c) cs
    | _ => tweens (stage.after c) cs

/-- The command moves the target. -/
def moves (target : String) : Command α → Bool
  | .setTransform m => m.target == target
  | _ => false

/-- The stage after commands. -/
def stageAfter (commands : List (Command α)) : Stage α := commands.foldl Stage.after []

/-- A segment of no length for each target that is never moved. -/
def holds (commands : List (Command α)) : List (Segment α) :=
  (stageAfter commands).filterMap fun (target, state) =>
    if commands.any (moves target) then none
    else some ⟨target, state, state, 0, .unspecified, 0⟩

/-- The segments of commands: first the tweens in the order of the commands, then the
    holds in the order in which their targets first appear. -/
def ofCommands (commands : List (Command α)) : List (Segment α) :=
  tweens [] commands ++ holds commands

end Segments

/-! ## Moments -/

variable {α : Type} [Scalar α]

/-- The point between two values at a height from zero to one. -/
def lerp (a b u : α) : α := a + (b - a) * u

/-- A filter value as a number: nothing for what is none, and a failure for a whole
    number that is out of range. -/
def number? : Json α → Option (Option α)
  | .int n => (Scalar.ofInt? n).map some
  | .real x => some (if Scalar.isFinite x then some x else none)
  | _ => some none

/-- The distance between two numeric filter values; that between two whole numbers is
    taken exactly. -/
def distance (a b : Json α) (x y : α) : Option α :=
  match a, b with
  | .int m, .int n => Scalar.ofInt? (n - m)
  | _, _ => some (y - x)

/-- A filter at a height from zero to one. -/
def blend (start : Option (Json α)) (stop : Json α) (u : α) : Option (Json α) := do
  let switched := if u < Scalar.ofNat 1 then start.getD stop else stop
  match start with
  | none => return switched
  | some a =>
    match ← number? a with
    | none => return switched
    | some x =>
      match ← number? stop with
      | none => return switched
      | some y =>
        let d ← distance a stop x y
        return .real (x + d * u)

/-- The filters of the start, each one of the end blended in. -/
def blendFilters (start stop : Fields (Json α)) (u : α) : Option (Fields (Json α)) :=
  stop.foldlM (fun filters (name, b) => (blend (start.get? name) b u).map (filters.set name)) start

/-- The transform at a height between two others; nothing if a whole number leaves the
    range. -/
def between (a b : Transform α) (u : α) : Option (Transform α) :=
  (blendFilters a.filters b.filters u).map fun filters =>
    { position := ⟨lerp a.position.x b.position.x u, lerp a.position.y b.position.y u⟩
      scale := ⟨lerp a.scale.x b.scale.x u, lerp a.scale.y b.scale.y u⟩
      rotation := lerp a.rotation b.rotation u
      filters }

/-- The part of a segment that is over at a time, from zero to one. -/
def progress? (s : Segment α) (t : α) : Option α := do
  let start ← Scalar.ofInt? s.startTime
  let duration ← Scalar.ofInt? s.duration
  return Scalar.clamp ((t - start) / duration)

/-- The transform at a time, moved along a curve. A segment of no length has only its
    two ends. -/
def at? (s : Segment α) (curve : α → α) (t : α) : Option (Transform α) :=
  if s.duration ≤ 0 then
    some (if Scalar.atLeast t s.startTime then s.endState else s.startState)
  else do
    let u ← progress? s t
    between s.startState s.endState (Scalar.clamp (curve u))

/-- The transform at a time, moved along the curve of the segment. -/
def moment? (s : Segment α) (t : α) : Option (Transform α) :=
  at? s (Curve.ofEasing s.easing).value t

end Timeline
end SceneScript
