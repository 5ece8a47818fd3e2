import Mathlib.Data.List.Forall2
import SceneScript.Proofs.Reconciliation

/-!
# Settled commands

A caller can make commands that no script was read into, each with a transform of its own. What
they mean is said here once, apart from reading and from reconciling: a move puts its transform
**on top of** the state that its target is in, so that filters which it does not name stay
(`Command.settle`), and commands are settled one after the other (`settleAll`).

**Reconciling settles commands** (`forall₂_reconcile`), the moves of the background apart, which it
leaves as they are.
-/

set_option autoImplicit false

namespace SceneScript

variable {α : Type}

section Settle

variable [Scalar α]

/-- The command on a stage, a move on top of what its target was. -/
def Command.settle (stage : Stage α) : Command α → Command α
  | .setTransform c =>
    .setTransform
      { c with transform := c.transform.onTop ((stage.get? c.target).getD Transform.initial) }
  | .changeFigure c => .changeFigure c
  | .changeBackground c => .changeBackground c
  | .rawText text => .rawText text

/-- Commands one after the other, each on the stage that those before it leave. -/
def settleAll (stage : Stage α) : List (Command α) → List (Command α)
  | [] => []
  | c :: cs => c.settle stage :: settleAll (stage.after (c.settle stage)) cs

end Settle

namespace Reconciliation

/-- The running states are those on stage, the background apart. -/
def AgreeOff (stage running : Stage α) : Prop :=
  ∀ target, target ≠ backgroundTarget → running.get? target = stage.get? target

theorem AgreeOff.set {stage running : Stage α} (h : AgreeOff stage running) (target : String)
    (t : Transform α) : AgreeOff (stage.set target t) (running.set target t) := by
  intro other hne
  rw [Fields.get?_set, Fields.get?_set, h other hne]

theorem AgreeOff.setBackground {stage running : Stage α} (h : AgreeOff stage running)
    (t : Transform α) : AgreeOff (stage.set backgroundTarget t) running := by
  intro other hne
  rw [Fields.get?_set, if_neg hne, h other hne]

/-- The first command is what the second one is settled to, unless it moves the background. -/
def SettledTo (c s : Command α) : Prop := c.outline ≠ .setTransform backgroundTarget → c = s

variable [Scalar α] [Scalar.Lawful α]

/-- **One command**: reconciling settles it. -/
theorem step_settle {stage running : Stage α} (h : AgreeOff stage running) {c : Command α}
    (hc : ∀ target t, c.effect? = some (target, t) → t.Resolved) :
    ∃ c' running', step running c = .ok (c', running') ∧ SettledTo c' (c.settle stage) ∧
      AgreeOff (stage.after (c.settle stage)) running' := by
  cases c with
  | rawText text => exact ⟨_, running, rfl, fun _ => rfl, h⟩
  | changeBackground c => exact ⟨_, running, rfl, fun _ => rfl, h.setBackground _⟩
  | changeFigure c =>
    by_cases ht : c.target = backgroundTarget
    · refine ⟨.changeFigure c, running, step_passed running ?_, fun _ => rfl, ?_⟩
      · exact fun target he => (Option.some.inj he).symm.trans ht
      · show AgreeOff (stage.set c.target c.transform) running
        rw [ht]
        exact h.setBackground _
    · exact ⟨_, _, step_changeFigure running ht, fun _ => rfl, h.set c.target c.transform⟩
  | setTransform c =>
    by_cases ht : c.target = backgroundTarget
    -- a move of the background: reconciling keeps it as it is, and follows no background
    · refine ⟨.setTransform c, running, step_passed running ?_,
        fun hne => absurd (congrArg _ ht) hne, ?_⟩
      · exact fun target he => (Option.some.inj he).symm.trans ht
      · show AgreeOff (stage.set c.target _) running
        rw [ht]
        exact h.setBackground _
    · refine ⟨_, _, step_setTransform running ht (hc _ _ rfl), fun _ => ?_, ?_⟩
      · rw [h c.target ht]
        rfl
      · rw [h c.target ht]
        exact h.set c.target _

/-- **All commands**: by induction, with the step above. -/
theorem run_settleAll {commands : List (Command α)} {stage running : Stage α}
    (h : AgreeOff stage running)
    (hc : ∀ c ∈ commands, ∀ target t, c.effect? = some (target, t) → t.Resolved) :
    ∃ r, (run running commands).1 = .ok r ∧
      List.Forall₂ SettledTo r.consolidated (settleAll stage commands) := by
  induction commands generalizing stage running with
  | nil => exact ⟨_, rfl, .nil⟩
  | cons c commands ih =>
    obtain ⟨hhead, htail⟩ := List.forall_mem_cons.mp hc
    obtain ⟨c', running', hstep, hsettled, h'⟩ := step_settle h hhead
    obtain ⟨r, hrun, hr⟩ := ih h' htail
    refine ⟨⟨c' :: r.consolidated, r.finalStates⟩, ?_, .cons hsettled hr⟩
    rw [run, hstep]
    dsimp only
    rw [hrun]
    rfl

/-- **Reconciling settles commands** with resolved transforms. -/
theorem forall₂_reconcile {commands : List (Command α)}
    (hc : ∀ c ∈ commands, ∀ target t, c.effect? = some (target, t) → t.Resolved) :
    ∃ r, reconcile commands = .ok r ∧
      List.Forall₂ SettledTo r.consolidated (settleAll [] commands) :=
  run_settleAll (fun _ _ => rfl) hc

end Reconciliation
end SceneScript
