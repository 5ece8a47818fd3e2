import SceneScript.Proofs.Fields
import SceneScript.Proofs.Outcome
import SceneScript.Script.Reading

/-!
# What the reading of one line depends on

A line is read on a stage that every earlier line may have changed. **It looks at one place of
that stage**, the transform of its own target, and only a `setTransform` line looks at all:

* which kind of command it becomes, on which target, or that it becomes raw text, is decided by
  the line alone (`outline_readLine`);
* the command itself is the same on two stages that agree on its target (`readLine_congr`);
* a line that puts its target on stage anew does not even look there (`readLine_of_resets`).

The statements about whole scripts — slicing, saving, filtering — are inductions over the lines
with these three as their step, so they are stated here once, on the line.
-/

set_option autoImplicit false

namespace SceneScript

open Outcome (bind_eq_ok mapError_eq_ok)

variable {α : Type}

/-! ## The outline of a command -/

/-- What a command is apart from its numbers and texts: its kind and its target, or the raw
    text. -/
inductive Outline where
  | setTransform (target : String)
  | changeFigure (target : String)
  | changeBackground
  | rawText (text : String)
deriving Repr, DecidableEq

def Outline.isRawText : Outline → Bool
  | .rawText _ => true
  | _ => false

namespace Command

def outline : Command α → Outline
  | .setTransform c => .setTransform c.target
  | .changeFigure c => .changeFigure c.target
  | .changeBackground _ => .changeBackground
  | .rawText text => .rawText text

/-- The command puts the target on stage anew, whatever it was before. -/
def resets (target : String) : Command α → Bool
  | .changeFigure c => c.target == target
  | .changeBackground _ => backgroundTarget == target
  | _ => false

theorem target?_of_resets {c : Command α} {target : String} (h : c.resets target = true) :
    c.target? = some target := by
  cases c with
  | changeFigure c => exact congrArg some (by simpa [resets] using h)
  | changeBackground c => exact congrArg some (by simpa [resets] using h)
  | setTransform c => exact absurd h (by simp [resets])
  | rawText text => exact absurd h (by simp [resets])

theorem target?_of_effect? {c : Command α} {target : String} {tr : Transform α}
    (h : c.effect? = some (target, tr)) : c.target? = some target := by
  unfold target?
  rw [h]
  rfl

theorem isRawText_outline (c : Command α) : c.outline.isRawText = c.isRawText := by
  cases c <;> rfl

end Command

/-! ## The stage after a command, seen at one target -/

namespace Stage

theorem get?_after_self (stage : Stage α) {c : Command α} {target : String} {tr : Transform α}
    (h : c.effect? = some (target, tr)) : (stage.after c).get? target = some tr := by
  unfold after
  rw [h]
  exact Fields.get?_set_self stage target tr

/-- **The frame**: a command leaves every other target as it was. -/
theorem get?_after_of_ne (stage : Stage α) {c : Command α} {target : String}
    (h : c.target? ≠ some target) : (stage.after c).get? target = stage.get? target := by
  unfold after
  cases he : c.effect? with
  | none => rfl
  | some p =>
    obtain ⟨other, tr⟩ := p
    have hne : target ≠ other := fun e => h (by
      rw [Command.target?_of_effect? he, e])
    exact Fields.get?_set_of_ne stage other target tr hne

theorem get?_after_congr {stage stage' : Stage α} {target : String}
    (h : stage.get? target = stage'.get? target) (c : Command α) :
    (stage.after c).get? target = (stage'.after c).get? target := by
  by_cases ht : c.target? = some target
  · obtain ⟨p, he, hp⟩ := Option.map_eq_some_iff.mp ht
    obtain ⟨other, tr⟩ := p
    obtain rfl : other = target := hp
    rw [get?_after_self stage he, get?_after_self stage' he]
  · rw [get?_after_of_ne stage ht, get?_after_of_ne stage' ht, h]

/-- The same targets are on both stages, with related transforms. -/
def Related (R : Transform α → Transform α → Prop) (stage' stage : Stage α) : Prop :=
  ∀ target, Option.Rel R (stage'.get? target) (stage.get? target)

theorem Related.set {R : Transform α → Transform α → Prop} {stage' stage : Stage α}
    (h : stage'.Related R stage) (target : String) {t' t : Transform α} (ht : R t' t) :
    Stage.Related R (Fields.set stage' target t') (Fields.set stage target t) := by
  intro other
  rw [Fields.get?_set, Fields.get?_set]
  split
  · exact .some ht
  · exact h other

/-- What follows from the relation holds of what stands in the place of a target, if it holds of
    what stands for no target. -/
theorem Related.getD {R P : Transform α → Transform α → Prop} {stage' stage : Stage α}
    (h : stage'.Related R stage) (hR : ∀ t' t, R t' t → P t' t) {d' d : Transform α} (hd : P d' d)
    (target : String) : P ((stage'.get? target).getD d') ((stage.get? target).getD d) := by
  have ht := h target
  cases hg' : stage'.get? target <;> cases hg : stage.get? target <;> rw [hg', hg] at ht
  · exact hd
  · cases ht
  · cases ht
  · cases ht with
    | some hr => exact hR _ _ hr

end Stage

/-! ## Actions

All that can be wrong with a statement is wrong with it before any stage is looked at. What is left
once that is checked is an **action**: a total function of the factors and the stage, and the form
in which the theorems below see a line. -/

/-- What a line does, once nothing more can be wrong with it. -/
inductive Action (α : Type) where
  | setTransform (target : String) (duration : Nat) (easing : Easing) (update : Update α)
  | changeFigure (target path : String) (update : Update α) (preset : Anchor)
      (params : Fields String)
  | changeBackground (path : String) (update : Update α) (params : Fields String)

namespace Action

def target : Action α → String
  | .setTransform target .. => target
  | .changeFigure target .. => target
  | .changeBackground .. => backgroundTarget

/-- What it says about the transform of its target. -/
def update : Action α → Update α
  | .setTransform _ _ _ u => u
  | .changeFigure _ _ u _ _ => u
  | .changeBackground _ u _ => u

def outline : Action α → Outline
  | .setTransform target .. => .setTransform target
  | .changeFigure target .. => .changeFigure target
  | .changeBackground .. => .changeBackground

variable [Scalar α]

/-- The command of an action on a stage. -/
def command (factor : Vec2 α) (stage : Stage α) : Action α → Command α
  | .setTransform target duration easing u =>
    .setTransform ⟨target, duration, easing,
      u.apply factor ((stage.get? target).getD Transform.initial)⟩
  | .changeFigure target path u preset params =>
    .changeFigure ⟨target, path, u.apply factor Transform.initial, preset, params⟩
  | .changeBackground path u params =>
    .changeBackground ⟨path, u.apply factor Transform.initial, params⟩

@[simp] theorem outline_command (a : Action α) (factor : Vec2 α) (stage : Stage α) :
    (a.command factor stage).outline = a.outline := by
  cases a <;> rfl

@[simp] theorem target?_command (a : Action α) (factor : Vec2 α) (stage : Stage α) :
    (a.command factor stage).target? = some a.target := by
  cases a <;> rfl

/-- An action looks at one place of the stage. -/
theorem command_congr (a : Action α) (factor : Vec2 α) {stage stage' : Stage α}
    (h : stage.get? a.target = stage'.get? a.target) :
    a.command factor stage = a.command factor stage' := by
  cases a with
  | setTransform target duration easing u =>
    have h' : stage.get? target = stage'.get? target := h
    simp only [command, h']
  | changeFigure target path u preset params => rfl
  | changeBackground path u params => rfl

/-- An action that resets its target looks at none. -/
theorem command_of_resets (a : Action α) (factor : Vec2 α) {stage : Stage α} {target : String}
    (h : (a.command factor stage).resets target = true) (stage' : Stage α) :
    a.command factor stage' = a.command factor stage := by
  cases a with
  | setTransform t duration easing u => exact absurd h (by simp [command, Command.resets])
  | changeFigure t path u preset params => rfl
  | changeBackground path u params => rfl

end Action

namespace Statement

/-- What a statement says about the transform of its target, as it is written. -/
def payload : Statement α → Fields (Json α)
  | .setTransform _ payload _ _ => payload
  | .changeFigure _ _ payload _ _ => payload
  | .changeBackground _ payload _ => payload

variable [Scalar α]

/-- The action of a statement, or what is wrong with it. -/
def action? : Statement α → Except LineError (Action α)
  | .setTransform target payload duration ease => do
    let duration ← (Duration.ofParameter duration).mapError .duration
    let u ← update payload
    return .setTransform target duration (Easing.ofParameter ease) u
  | .changeFigure target path payload preset params => do
    let u ← update payload
    return .changeFigure target path u preset params
  | .changeBackground path payload params => do
    let u ← update payload
    return .changeBackground path u params

/-- The payload of a statement with an action was read as an update. -/
theorem ofPayload_of_action? {s : Statement α} {a : Action α} (h : s.action? = .ok a) :
    Update.ofPayload s.payload = .ok a.update := by
  cases s with
  | setTransform target payload duration ease =>
    obtain ⟨n, -, h⟩ := bind_eq_ok.mp h
    obtain ⟨u, hu, h⟩ := bind_eq_ok.mp h
    cases h
    exact mapError_eq_ok.mp hu
  | changeFigure target path payload preset params =>
    obtain ⟨u, hu, h⟩ := bind_eq_ok.mp h
    cases h
    exact mapError_eq_ok.mp hu
  | changeBackground path payload params =>
    obtain ⟨u, hu, h⟩ := bind_eq_ok.mp h
    cases h
    exact mapError_eq_ok.mp hu

theorem command_eq_map_action? (s : Statement α) (factor : Vec2 α) (stage : Stage α) :
    s.command factor stage = s.action?.map fun a => a.command factor stage := by
  cases s with
  | setTransform target payload duration ease =>
    simp only [command, action?]
    cases (Duration.ofParameter duration).mapError LineError.duration with
    | error e => rfl
    | ok n =>
      cases update payload with
      | error e => rfl
      | ok u => rfl
  | changeFigure target path payload preset params =>
    simp only [command, action?]
    cases update payload with
    | error e => rfl
    | ok u => rfl
  | changeBackground path payload params =>
    simp only [command, action?]
    cases update payload with
    | error e => rfl
    | ok u => rfl

end Statement

/-! ## Lines -/

namespace Script

variable [Scalar α]

/-- The action of a trimmed line, if it has one. -/
def action? (line : List Char) : Option (Action α) :=
  match Statement.read? (α := α) line with
  | .ok (some s) => s.action?.toOption
  | _ => none

theorem exists_statement_of_action? {line : List Char} {a : Action α} (h : action? line = some a) :
    ∃ s : Statement α, Statement.read? line = .ok (some s) ∧ s.action? = .ok a := by
  unfold action? at h
  split at h
  · next s hs =>
    refine ⟨s, hs, ?_⟩
    cases ha : s.action? with
    | error e =>
      rw [ha] at h
      cases h
    | ok b =>
      rw [ha] at h
      exact congrArg _ (Option.some.inj h)
  · cases h

theorem action?_of_statement {line : List Char} {s : Statement α} {a : Action α}
    (hr : Statement.read? line = .ok (some s)) (ha : s.action? = .ok a) :
    action? line = some a := by
  unfold action?
  rw [hr]
  dsimp only
  rw [ha]
  rfl

/-- **What a line becomes**: the command of its action, or raw text where it has none. -/
theorem readLine_eq (factor : Vec2 α) (stage : Stage α) (line : List Char) :
    (readLine factor stage line).1 =
      match action? line with
      | some a => a.command factor stage
      | none => .rawText (String.ofList line) := by
  unfold readLine action?
  cases Statement.read? (α := α) line with
  | error e => rfl
  | ok found =>
    cases found with
    | none => rfl
    | some s =>
      dsimp only
      rw [s.command_eq_map_action? factor stage]
      cases s.action? with
      | error e => rfl
      | ok a => rfl

theorem readLine_of_action {factor : Vec2 α} {stage : Stage α} {line : List Char} {a : Action α}
    (h : action? line = some a) : (readLine factor stage line).1 = a.command factor stage := by
  rw [readLine_eq, h]

theorem readLine_of_no_action {factor : Vec2 α} {stage : Stage α} {line : List Char}
    (h : action? (α := α) line = none) :
    (readLine factor stage line).1 = .rawText (String.ofList line) := by
  rw [readLine_eq, h]

theorem exists_action_of_target? {factor : Vec2 α} {stage : Stage α} {line : List Char}
    {target : String} (h : (readLine factor stage line).1.target? = some target) :
    ∃ a : Action α, action? line = some a ∧ a.target = target := by
  cases ha : action? (α := α) line with
  | none =>
    rw [readLine_of_no_action ha] at h
    exact absurd h (by simp [Command.target?, Command.effect?])
  | some a =>
    rw [readLine_of_action ha, a.target?_command] at h
    exact ⟨a, rfl, Option.some.inj h⟩

/-- A line that is no command stays none, on every stage and for every factor; a line that is
    one keeps its kind and its target. -/
theorem outline_readLine (factor factor' : Vec2 α) (stage stage' : Stage α) (line : List Char) :
    (readLine factor stage line).1.outline = (readLine factor' stage' line).1.outline := by
  cases ha : action? (α := α) line with
  | none => rw [readLine_of_no_action ha, readLine_of_no_action ha]
  | some a =>
    rw [readLine_of_action ha, readLine_of_action ha, a.outline_command, a.outline_command]

/-- **Stages that agree on the target of a line give it the same command.** -/
theorem readLine_congr {factor : Vec2 α} {stage stage' : Stage α} {line : List Char}
    {target : String} (ht : (readLine factor stage line).1.target? = some target)
    (h : stage.get? target = stage'.get? target) :
    (readLine factor stage' line).1 = (readLine factor stage line).1 := by
  obtain ⟨a, ha, rfl⟩ := exists_action_of_target? ht
  rw [readLine_of_action ha, readLine_of_action ha, a.command_congr factor h]

/-- **A reset looks at no stage at all.** -/
theorem readLine_of_resets {factor : Vec2 α} {stage : Stage α} {line : List Char}
    {target : String} (h : (readLine factor stage line).1.resets target = true)
    (stage' : Stage α) : (readLine factor stage' line).1 = (readLine factor stage line).1 := by
  obtain ⟨a, ha, -⟩ := exists_action_of_target? (Command.target?_of_resets h)
  rw [readLine_of_action ha] at h ⊢
  rw [readLine_of_action ha, a.command_of_resets factor h stage']

/-! ## Lines one after the other -/

/-- The commands of lines, read from a stage on. -/
def commandsFrom (factor : Vec2 α) (stage : Stage α) (lines : List (List Char)) :
    List (Command α) :=
  (readLines factor stage lines).map (·.1)

@[simp] theorem commandsFrom_nil (factor : Vec2 α) (stage : Stage α) :
    commandsFrom factor stage [] = [] := rfl

@[simp] theorem commandsFrom_cons (factor : Vec2 α) (stage : Stage α) (line : List Char)
    (lines : List (List Char)) :
    commandsFrom factor stage (line :: lines) =
      (readLine factor stage line).1 ::
        commandsFrom factor (stage.after (readLine factor stage line).1) lines := rfl

theorem parse_eq_commandsFrom (factor : Vec2 α) (text : List Char) :
    parse factor text = commandsFrom factor [] (Text.contentLines text) := rfl

@[simp] theorem length_commandsFrom (factor : Vec2 α) (stage : Stage α)
    (lines : List (List Char)) : (commandsFrom factor stage lines).length = lines.length := by
  simp [commandsFrom, length_readLines]

/-- What is read at a place is read there from some stage on. -/
theorem exists_drop_commandsFrom (factor : Vec2 α) (n : Nat) :
    ∀ (stage : Stage α) (lines : List (List Char)), ∃ stage' : Stage α,
      (commandsFrom factor stage lines).drop n = commandsFrom factor stage' (lines.drop n) := by
  induction n with
  | zero => exact fun stage lines => ⟨stage, rfl⟩
  | succ n ih =>
    intro stage lines
    cases lines with
    | nil => exact ⟨stage, rfl⟩
    | cons line lines => exact ih _ lines

theorem take_commandsFrom (factor : Vec2 α) (n : Nat) :
    ∀ (stage : Stage α) (lines : List (List Char)),
      (commandsFrom factor stage lines).take n = commandsFrom factor stage (lines.take n) := by
  induction n with
  | zero => exact fun stage lines => rfl
  | succ n ih =>
    intro stage lines
    cases lines with
    | nil => rfl
    | cons line lines => simp [ih]

/-- The stage on which the last line is read does not depend on that line. -/
theorem exists_stage_concat (factor : Vec2 α) (lines : List (List Char)) :
    ∀ stage : Stage α, ∃ stage' : Stage α, ∀ line : List Char,
      commandsFrom factor stage (lines ++ [line]) =
        commandsFrom factor stage lines ++ [(readLine factor stage' line).1] := by
  induction lines with
  | nil => exact fun stage => ⟨stage, fun line => rfl⟩
  | cons first lines ih =>
    intro stage
    obtain ⟨stage', h⟩ := ih (stage.after (readLine factor stage first).1)
    refine ⟨stage', fun line => ?_⟩
    rw [List.cons_append, commandsFrom_cons, commandsFrom_cons, h, List.cons_append]

theorem map_outline_commandsFrom (factor : Vec2 α) (stage stage' : Stage α)
    (lines : List (List Char)) :
    (commandsFrom factor stage lines).map Command.outline =
      lines.map fun line => (readLine factor stage' line).1.outline := by
  induction lines generalizing stage with
  | nil => rfl
  | cons line lines ih =>
    rw [commandsFrom_cons, List.map_cons, List.map_cons, ih,
      outline_readLine factor factor stage stage' line]

end Script
end SceneScript
