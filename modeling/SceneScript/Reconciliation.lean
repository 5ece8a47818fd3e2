import SceneScript.Command

/-!
# Reconciliation

The renderer wants one running transform for each figure. Reconciling a list of commands
folds every `setTransform` into the state that its target is in, and hands back **the
same commands in the same order**, each move now carrying the whole state of its figure.
A figure put on stage anew starts from its own transform. The background is followed by
nobody and passes through.

A transform is folded in by its payload. So a filter under a structural name, which only
a caller can have put there, is read as that part of the transform, and the fold fails
if it cannot be.
-/

set_option autoImplicit false

namespace SceneScript

/-- Commands that carry the running state, and the state at the end. -/
structure Reconciled (α : Type) where
  consolidated : List (Command α)
  finalStates : Stage α

namespace Reconciliation

/-- What is worth telling: a figure is moved before it was put on stage. -/
structure Notice where
  target : String
deriving Repr, DecidableEq

def Notice.message (n : Notice) : String :=
  "No baseline for target '" ++ n.target ++ "'; synthesizing default state"

/-- The states of figures are followed, that of the background is not. -/
def isFollowed (target : String) : Bool := target != backgroundTarget

variable {α : Type}

/-- The notice on a command, if there is one. -/
def notices (running : Stage α) : Command α → List Notice
  | .setTransform c =>
    if isFollowed c.target ∧ (running.get? c.target).isNone then [⟨c.target⟩] else []
  | _ => []

variable [Scalar α]

/-- The command with the running state of its target, and the states after it. -/
def step (running : Stage α) : Command α → Except PayloadError (Command α × Stage α)
  | .setTransform c =>
    if isFollowed c.target then
      let base := (running.get? c.target).getD Transform.initial
      (base.merge c.transform.payload Vec2.one).map fun merged =>
        (.setTransform { c with transform := merged }, running.set c.target merged)
    else .ok (.setTransform c, running)
  | .changeFigure c =>
    .ok (.changeFigure c,
      if isFollowed c.target then running.set c.target c.transform else running)
  | .changeBackground c => .ok (.changeBackground c, running)
  | .rawText text => .ok (.rawText text, running)

/-- Reconcile commands from a running state on, with the notices up to a failure. -/
def run (running : Stage α) : List (Command α) → Except PayloadError (Reconciled α) × List Notice
  | [] => (.ok ⟨[], running⟩, [])
  | c :: cs =>
    match step running c with
    | .error e => (.error e, notices running c)
    | .ok (c', running') =>
      let (result, more) := run running' cs
      (result.map fun r => ⟨c' :: r.consolidated, r.finalStates⟩, notices running c ++ more)

/-- No command is dropped. -/
theorem length_run (running : Stage α) (commands : List (Command α)) (r : Reconciled α)
    (h : (run running commands).1 = .ok r) : r.consolidated.length = commands.length := by
  induction commands generalizing running r with
  | nil =>
    cases h
    rfl
  | cons c cs ih =>
    rw [run] at h
    cases hs : step running c with
    | error e => simp [hs] at h
    | ok p =>
      obtain ⟨c', running'⟩ := p
      simp only [hs] at h
      cases hr : (run running' cs).1 with
      | error e =>
        rw [hr] at h
        cases h
      | ok r' =>
        rw [hr] at h
        cases h
        simp [ih running' r' hr]

/-- Reconcile commands. -/
def reconcile (commands : List (Command α)) : Except PayloadError (Reconciled α) :=
  (run [] commands).1

end Reconciliation
end SceneScript
