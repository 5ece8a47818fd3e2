import SceneScript.Proofs.Script.Locality
import SceneScript.Proofs.Transform
import SceneScript.Reconciliation

/-!
# Reconciling what was read changes nothing

Two machines resolve the state of a scene. Reading a script carries a stage from line to line, and
reconciling carries the running states of the figures from command to command. **On commands that
come from a script the second repeats the first**: it succeeds, hands back the same commands, and
ends in the state that the last command on each figure left (`reconcile_parse`).

The two are kept in step by `InStep`: every transform on stage is resolved, the running states are
those of the stage, and the background has none. A move then merges a transform into an earlier
state of itself, which gives the transform back (`Transform.onTop_of_prefix`).
-/

set_option autoImplicit false

namespace SceneScript

variable {α : Type}

/-! ## The stage after commands -/

namespace Stage

/-- The stage after commands, one after the other. -/
def afterAll (stage : Stage α) (commands : List (Command α)) : Stage α :=
  commands.foldl Stage.after stage

end Stage

namespace Command

/-- The transform of the last command on a target. -/
def lastTransform? (commands : List (Command α)) (target : String) : Option (Transform α) :=
  ((commands.filterMap effect?).filter fun e => e.1 == target).getLast?.map (·.2)

theorem lastTransform?_concat (commands : List (Command α)) (c : Command α) (target : String) :
    lastTransform? (commands ++ [c]) target =
      if c.target? = some target then c.effect?.map (·.2) else lastTransform? commands target := by
  unfold lastTransform? target?
  cases he : c.effect? with
  | none => simp [he]
  | some p =>
    obtain ⟨t, tr⟩ := p
    by_cases ht : t = target
    · simp [he, ht]
    · simp [he, ht]

theorem lastTransform?_concat_self (commands : List (Command α)) {c : Command α} {target : String}
    {t : Transform α} (he : c.effect? = some (target, t)) :
    lastTransform? (commands ++ [c]) target = some t := by
  rw [lastTransform?_concat, if_pos (target?_of_effect? he), he]
  rfl

end Command

/-- **A target is in the state that the last command on it left.** -/
theorem Stage.get?_afterAll (commands : List (Command α)) (target : String) :
    (Stage.afterAll [] commands).get? target = Command.lastTransform? commands target := by
  induction commands using List.reverseRecOn with
  | nil => rfl
  | append_singleton commands c ih =>
    unfold Stage.afterAll at ih ⊢
    rw [List.foldl_append, Command.lastTransform?_concat, List.foldl_cons, List.foldl_nil]
    by_cases ht : c.target? = some target
    · rw [if_pos ht]
      obtain ⟨⟨t, tr⟩, he, rfl⟩ := Option.map_eq_some_iff.mp ht
      rw [Stage.get?_after_self _ he, he]
      rfl
    · rw [if_neg ht, Stage.get?_after_of_ne _ ht, ih]

namespace Reconciliation

/-- A command is on nothing that is followed, or it puts a figure on stage or moves one. -/
theorem followed_cases (c : Command α) :
    (∀ target, c.target? = some target → target = backgroundTarget) ∨
      (∃ figure, c = .changeFigure figure ∧ figure.target ≠ backgroundTarget) ∨
      ∃ move, c = .setTransform move ∧ move.target ≠ backgroundTarget := by
  by_cases hfree : ∀ target, c.target? = some target → target = backgroundTarget
  · exact .inl hfree
  · obtain ⟨target, htarget, hne⟩ : ∃ target, c.target? = some target ∧
        target ≠ backgroundTarget := by
      simpa using hfree
    cases c with
    | rawText text => cases htarget
    | changeBackground c => exact absurd (Option.some.inj htarget).symm hne
    | changeFigure figure =>
      cases htarget
      exact .inr (.inl ⟨figure, rfl, hne⟩)
    | setTransform move =>
      cases htarget
      exact .inr (.inr ⟨move, rfl, hne⟩)

variable [Scalar α]

/-- The running states are the stage without the background, and everything on stage is
    resolved. -/
structure InStep (stage running : Stage α) : Prop where
  resolved : ∀ target t, stage.get? target = some t → t.Resolved
  agree : ∀ target, running.get? target =
    if target = backgroundTarget then none else stage.get? target
  nodup : running.keys.Nodup

theorem inStep_nil : InStep ([] : Stage α) [] where
  resolved _ _ h := nomatch h
  agree target := by split <;> rfl
  nodup := List.nodup_nil

theorem isFollowed_iff (target : String) : isFollowed target = true ↔ target ≠ backgroundTarget :=
  bne_iff_ne

/-! ## One step -/

/-- A command on nothing that is followed passes through. -/
theorem step_passed (running : Stage α) {c : Command α}
    (h : ∀ target, c.target? = some target → target = backgroundTarget) :
    step running c = .ok (c, running) := by
  cases c with
  | rawText text => rfl
  | changeBackground c => rfl
  | changeFigure c =>
    unfold step
    dsimp only
    rw [if_neg fun hf => (isFollowed_iff _).mp hf (h _ rfl)]
  | setTransform c =>
    unfold step
    dsimp only
    rw [if_neg fun hf => (isFollowed_iff _).mp hf (h _ rfl)]

/-- A figure put on stage anew starts from its own transform. -/
theorem step_changeFigure (running : Stage α) {c : ChangeFigure α}
    (h : c.target ≠ backgroundTarget) : step running (.changeFigure c) =
      .ok (.changeFigure c, running.set c.target c.transform) := by
  unfold step
  dsimp only
  rw [if_pos ((isFollowed_iff _).mpr h)]

/-- A move goes on top of the state of its figure. -/
theorem step_setTransform [Scalar.Lawful α] (running : Stage α) {c : SetTransform α}
    (h : c.target ≠ backgroundTarget) (hr : c.transform.Resolved) :
    let moved := c.transform.onTop ((running.get? c.target).getD Transform.initial)
    step running (.setTransform c) =
      .ok (.setTransform { c with transform := moved }, running.set c.target moved) := by
  unfold step
  dsimp only
  rw [if_pos ((isFollowed_iff _).mpr h), hr.merge_payload]
  rfl

/-- What stands in the place of a target on stage is resolved, the initial transform included. -/
theorem InStep.resolved_getD [Scalar.Lawful α] {stage running : Stage α}
    (h : InStep stage running) (target : String) :
    ((stage.get? target).getD Transform.initial).Resolved := by
  cases hg : stage.get? target with
  | none => exact Transform.resolved_initial
  | some t => exact h.resolved target t hg

theorem InStep.set {stage running : Stage α} (h : InStep stage running) {target : String}
    (ht : target ≠ backgroundTarget) {t : Transform α} (hr : t.Resolved) :
    InStep (stage.set target t) (running.set target t) where
  resolved := Fields.forall_get?_set h.resolved hr
  agree other := by
    rw [Fields.get?_set, Fields.get?_set, h.agree]
    by_cases he : other = target
    · rw [if_pos he, if_pos he, if_neg (he ▸ ht)]
    · rw [if_neg he, if_neg he]
  nodup := Fields.nodup_keys_set h.nodup _ _

/-- The running states stay as they are while the background changes. -/
theorem InStep.setBackground {stage running : Stage α} (h : InStep stage running)
    {t : Transform α} (hr : t.Resolved) : InStep (stage.set backgroundTarget t) running where
  resolved := Fields.forall_get?_set h.resolved hr
  agree other := by
    rw [h.agree, Fields.get?_set]
    split
    · rfl
    · rfl
  nodup := h.nodup

variable [Scalar.Lawful α] {factor : Vec2 α}

/-- **One line**: its command passes through reconciliation as it is, and the two machines stay
    in step. -/
theorem step_command (hx : Scalar.Keeps factor.x) (hy : Scalar.Keeps factor.y)
    {stage running : Stage α} (h : InStep stage running) (a : Action α) (hu : a.update.Sound) :
    ∃ running', step running (a.command factor stage) = .ok (a.command factor stage, running') ∧
      InStep (stage.after (a.command factor stage)) running' := by
  cases a with
  | setTransform target duration easing u =>
    have hu' : u.Sound := hu
    have hr := (h.resolved_getD target).apply hu' hx hy
    by_cases ht : target = backgroundTarget
    · subst ht
      exact ⟨running, rfl, h.setBackground hr⟩
    · refine ⟨_, ?_, h.set ht hr⟩
      have hrun : running.get? target = stage.get? target := by rw [h.agree, if_neg ht]
      -- merging a transform into the earlier state that it was itself made from changes nothing
      have hkeys := Transform.keys_prefix_apply u factor
        ((stage.get? target).getD Transform.initial)
      unfold Action.command
      dsimp only
      rw [step_setTransform running ht hr]
      dsimp only
      rw [hrun, Transform.onTop_of_prefix hkeys hr.nodup]
  | changeFigure target path u preset params =>
    have hr := Transform.resolved_initial.apply hu hx hy
    by_cases ht : target = backgroundTarget
    · subst ht
      exact ⟨running, rfl, h.setBackground hr⟩
    · exact ⟨_, step_changeFigure running ht, h.set ht hr⟩
  | changeBackground path u params =>
    exact ⟨running, rfl, h.setBackground (Transform.resolved_initial.apply hu hx hy)⟩

theorem step_readLine (hx : Scalar.Keeps factor.x) (hy : Scalar.Keeps factor.y)
    {stage running : Stage α} (h : InStep stage running) (line : List Char) :
    ∃ running', step running (Script.readLine factor stage line).1 =
        .ok ((Script.readLine factor stage line).1, running') ∧
      InStep (stage.after (Script.readLine factor stage line).1) running' := by
  cases ha : Script.action? (α := α) line with
  | none =>
    rw [Script.readLine_of_no_action ha]
    exact ⟨running, rfl, h⟩
  | some a =>
    rw [Script.readLine_of_action ha]
    obtain ⟨s, -, hs⟩ := Script.exists_statement_of_action? ha
    exact step_command hx hy h a (Update.sound_of_ofPayload (Statement.ofPayload_of_action? hs))

/-- **All lines**: by induction, with the step above. -/
theorem run_commandsFrom (hx : Scalar.Keeps factor.x) (hy : Scalar.Keeps factor.y)
    (lines : List (List Char)) {stage running : Stage α} (h : InStep stage running) :
    ∃ running', (run running (Script.commandsFrom factor stage lines)).1 =
        .ok ⟨Script.commandsFrom factor stage lines, running'⟩ ∧
      InStep (stage.afterAll (Script.commandsFrom factor stage lines)) running' := by
  induction lines generalizing stage running with
  | nil => exact ⟨running, rfl, h⟩
  | cons line lines ih =>
    obtain ⟨running₁, hstep, h₁⟩ := step_readLine hx hy h line
    obtain ⟨running₂, hrun, h₂⟩ := ih h₁
    refine ⟨running₂, ?_, h₂⟩
    rw [Script.commandsFrom_cons, run, hstep]
    dsimp only
    rw [hrun]
    rfl

/-! ## Scripts -/

/-- **Reconciling the commands of a script succeeds and changes none of them**, filters and their
    order included, as long as positions are not scaled up. The states at the end are those that
    the last command on each target left, for every target but the background. -/
theorem reconcile_parse (factor : Vec2 Float) (text : List Char)
    (hx : -1 ≤ factor.x ∧ factor.x ≤ 1) (hy : -1 ≤ factor.y ∧ factor.y ≤ 1) :
    ∃ r, reconcile (Script.parse factor text) = .ok r ∧
      r.consolidated = Script.parse factor text ∧
      r.finalStates.keys.Nodup ∧
      ∀ target, r.finalStates.get? target =
        if target = backgroundTarget then none
        else Command.lastTransform? (Script.parse factor text) target := by
  have hk := fun {v : Float} (h : -1 ≤ v ∧ v ≤ 1) => Binary64.keeps_of_le_one h.1 h.2
  obtain ⟨running, hrun, h⟩ :=
    run_commandsFrom (hk hx) (hk hy) (Text.contentLines text) inStep_nil
  refine ⟨_, hrun, rfl, h.nodup, fun target => ?_⟩
  rw [h.agree, Stage.get?_afterAll]
  rfl

/-- A figure that is moved twice, between a line of dialogue and a background, at half the
    resolution. -/
theorem reconcile_parse_half :
    let text := Line.join ([
      "changeFigure:a.png -id=a -transform=\x7b\"position\":\x7b\"x\":-640\x7d\x7d;",
      "Alice: hello", "changeBg:b.png;",
      "setTransform:\x7b\"blur\":2,\"position\":\x7b\"y\":3\x7d\x7d -target=a;",
      "setTransform:\x7b\"sepia\":1\x7d -target=a;"].map String.toList)
    (-1 ≤ (0.5 : Float) ∧ (0.5 : Float) ≤ 1) ∧
    (Command.lastTransform? (Script.parse (⟨0.5, 0.5⟩ : Vec2 Float) text) "a").map
      (fun t => (t.position.x, t.position.y, t.filters.keys)) =
        some (-320, 1.5, ["blur", "sepia"]) ∧
    ∃ r, reconcile (Script.parse (⟨0.5, 0.5⟩ : Vec2 Float) text) = .ok r ∧
      r.consolidated = Script.parse ⟨0.5, 0.5⟩ text ∧
      r.finalStates.keys.Nodup ∧
      ∀ target, r.finalStates.get? target =
        if target = backgroundTarget then none
        else Command.lastTransform? (Script.parse ⟨0.5, 0.5⟩ text) target := by
  repeat rewrite [List.map_cons, String.toList_ofList]
  exact ⟨by decide, by decide, reconcile_parse ⟨0.5, 0.5⟩ _ (by decide) (by decide)⟩

end Reconciliation
end SceneScript
