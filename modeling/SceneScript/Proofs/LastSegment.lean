import SceneScript.Proofs.Reconciliation
import SceneScript.Timeline

/-!
# The last segment of a target

The timeline and reconciliation go through the same commands, each for itself. For one target the
timeline keeps this of them: **its segments end, one by one, in the transforms of its moves**
(`map_endState_tweens`), and a target without a move is held where the stage leaves it
(`filter_holds`). So the last segment ends in the state of the target
(`exists_lastSegment?`) as long as the target is not put up again behind its last move: the
timeline has no segment for that.
-/

set_option autoImplicit false

namespace SceneScript
namespace Timeline

variable {α : Type}

/-- The last of the segments of a target. -/
def lastSegment? (segments : List (Segment α)) (target : String) : Option (Segment α) :=
  (segments.filter fun s => s.target == target).getLast?

/-- The transform that a command moves the target to. -/
def moveOf? (target : String) : Command α → Option (Transform α)
  | .setTransform m => if m.target = target then some m.transform else none
  | _ => none

/-- The transform of the last move of the target. -/
def lastMove? (commands : List (Command α)) (target : String) : Option (Transform α) :=
  (commands.filterMap (moveOf? target)).getLast?

/-- A figure is put up under the target that was moved before, and the target is not moved after
    that. -/
def PutUpAgain (commands : List (Command α)) (target : String) : Prop :=
  ∃ before c behind, commands = before ++ .changeFigure c :: behind ∧ c.target = target ∧
    before.any (moves target) = true ∧ behind.any (moves target) = false

/-! ## The segments of one target -/

/-- **The tweens of a target end in the transforms of its moves**, whatever the stage is. By
    induction on the commands, each of which leaves another stage. -/
theorem map_endState_tweens (stage : Stage α) (commands : List (Command α)) (target : String) :
    ((tweens stage commands).filter fun s => s.target == target).map Segment.endState =
      commands.filterMap (moveOf? target) := by
  induction commands generalizing stage with
  | nil => rfl
  | cons c commands ih =>
    cases c with
    | setTransform m =>
      by_cases ht : m.target = target
      · simp [tweens, moveOf?, ht, ih]
      · simp [tweens, moveOf?, ht, ih]
    | changeFigure c => simp [tweens, moveOf?, List.filterMap_cons, ih]
    | changeBackground c => simp [tweens, moveOf?, List.filterMap_cons, ih]
    | rawText text => simp [tweens, moveOf?, List.filterMap_cons, ih]

theorem isSome_moveOf? (target : String) (c : Command α) :
    (moveOf? target c).isSome = moves target c := by
  cases c with
  | setTransform m =>
    by_cases ht : m.target = target
    · simp [moveOf?, moves, ht]
    · simp [moveOf?, moves, ht]
  | changeFigure c => rfl
  | changeBackground c => rfl
  | rawText text => rfl

/-- A target has a last move if it has any. -/
theorem isSome_lastMove? (commands : List (Command α)) (target : String) :
    (lastMove? commands target).isSome = commands.any (moves target) := by
  induction commands with
  | nil => rfl
  | cons c commands ih =>
    unfold lastMove? at ih ⊢
    rw [List.any_cons, ← ih, ← isSome_moveOf?]
    cases h : moveOf? target c with
    | none => simp [h]
    | some t => simp [h, List.getLast?_cons]

/-- The segment of no length that holds a target in a state. -/
def hold (target : String) (state : Transform α) : Segment α :=
  ⟨target, state, state, 0, .unspecified, 0⟩

@[simp] theorem target_hold (target : String) (state : Transform α) :
    (hold target state).target = target := rfl

/-- The holds of a stage on one target: at most one, as the stage has each target once. -/
theorem filter_holdsOf {stage : Stage α} (hn : stage.keys.Nodup) (moved : String → Bool)
    (target : String) :
    ((stage.filterMap fun f => if moved f.1 then none else some (hold f.1 f.2)).filter
        fun s => s.target == target) =
      if moved target then [] else ((stage.get? target).map (hold target)).toList := by
  induction stage with
  | nil => simp
  | cons f stage ih =>
    obtain ⟨name, state⟩ := f
    rw [Fields.keys_cons, List.nodup_cons] at hn
    obtain ⟨hmem, hn⟩ := hn
    specialize ih hn
    rw [List.filterMap_cons, Fields.get?]
    by_cases hname : name = target
    · subst hname
      rw [Fields.get?_eq_none_of_notMem hmem] at ih
      by_cases hm : moved name
      · simpa [hm] using ih
      · simpa [hm] using ih
    · by_cases hm : moved name
      · simpa [hm, hname] using ih
      · simpa [hm, hname] using ih

theorem nodup_keys_stageAfter (commands : List (Command α)) :
    (stageAfter commands).keys.Nodup := by
  induction commands using List.reverseRecOn with
  | nil => exact List.nodup_nil
  | append_singleton commands c ih =>
    unfold stageAfter at ih ⊢
    rw [List.foldl_append, List.foldl_cons, List.foldl_nil, Stage.after]
    split
    · exact Fields.nodup_keys_set ih _ _
    · exact ih

/-- **A target without a move is held in the state that the commands leave it in.** -/
theorem filter_holds (commands : List (Command α)) (target : String) :
    (holds commands).filter (fun s => s.target == target) =
      if commands.any (moves target) then []
      else ((Command.lastTransform? commands target).map (hold target)).toList := by
  have h := filter_holdsOf (nodup_keys_stageAfter commands) (fun t => commands.any (moves t)) target
  have hstate : (stageAfter commands).get? target = Command.lastTransform? commands target :=
    Stage.get?_afterAll commands target
  rw [hstate] at h
  exact h

/-- **Where the last segment of a target ends**: in its last move, or in its state if it has
    none. -/
theorem map_endState_lastSegment? (commands : List (Command α)) (target : String) :
    (lastSegment? (ofCommands commands) target).map Segment.endState =
      (lastMove? commands target).or (Command.lastTransform? commands target) := by
  have htweens : ((tweens [] commands).filter fun s => s.target == target).getLast?.map
      Segment.endState = lastMove? commands target := by
    rw [← List.getLast?_map, map_endState_tweens]
    rfl
  have hsome := isSome_lastMove? commands target
  unfold lastSegment? ofCommands
  rw [List.filter_append, List.getLast?_append, Option.map_or, htweens, filter_holds]
  cases hm : lastMove? commands target with
  | some t =>
    rw [hm] at hsome
    rw [← hsome]
    rfl
  | none =>
    rw [hm] at hsome
    rw [← hsome]
    cases Command.lastTransform? commands target with
    | none => rfl
    | some state => rfl

/-! ## The last move and the state -/

theorem PutUpAgain.concat {commands : List (Command α)} {target : String}
    (h : PutUpAgain commands target) {c : Command α} (hc : moves target c = false) :
    PutUpAgain (commands ++ [c]) target := by
  obtain ⟨before, d, behind, rfl, ht, hbefore, hbehind⟩ := h
  refine ⟨before, d, behind ++ [c], ?_, ht, hbefore, ?_⟩
  · rw [List.append_assoc, List.cons_append]
  · rw [List.any_append, hbehind]
    simp [hc]

theorem lastMove?_concat (commands : List (Command α)) (c : Command α) (target : String) :
    lastMove? (commands ++ [c]) target = (moveOf? target c).or (lastMove? commands target) := by
  unfold lastMove?
  cases h : moveOf? target c with
  | none => simp [h]
  | some t => simp [h]

theorem moveOf?_of_target?_ne {c : Command α} {target : String} (h : c.target? ≠ some target) :
    moveOf? target c = none := by
  cases c with
  | setTransform m => exact if_neg fun ht => h (congrArg some ht)
  | changeFigure c => rfl
  | changeBackground c => rfl
  | rawText text => rfl

/-- **A figure is in the state of its last move** as long as it is not put up again. By induction
    from the last command back: the first one on the figure decides, and it is the move. -/
theorem lastTransform?_eq_of_lastMove? {commands : List (Command α)} {target : String}
    (hne : target ≠ backgroundTarget) (hagain : ¬ PutUpAgain commands target) {t : Transform α}
    (hm : lastMove? commands target = some t) :
    Command.lastTransform? commands target = some t := by
  induction commands using List.reverseRecOn with
  | nil => cases hm
  | append_singleton commands c ih =>
    rw [lastMove?_concat] at hm
    rw [Command.lastTransform?_concat]
    by_cases ht : c.target? = some target
    · rw [if_pos ht]
      cases c with
      | setTransform m =>
        rw [moveOf?, if_pos (Option.some.inj ht)] at hm
        exact hm
      | changeFigure c =>
        refine absurd ⟨commands, c, [], rfl, Option.some.inj ht, ?_, rfl⟩ hagain
        rw [← isSome_lastMove?]
        exact Option.isSome_iff_exists.mpr ⟨t, hm⟩
      | changeBackground c => exact absurd (Option.some.inj ht).symm hne
      | rawText text => cases ht
    · have hnone := moveOf?_of_target?_ne ht
      have hmoves : moves target c = false := by rw [← isSome_moveOf?, hnone, Option.isSome_none]
      rw [hnone] at hm
      rw [if_neg ht]
      exact ih (fun h => hagain (h.concat hmoves)) hm

/-- **The last segment of a figure**: there is one, it ends in the last move of the figure or in its
    state if it has no move, and it ends in its state unless the figure is put up again. -/
theorem exists_lastSegment? {commands : List (Command α)} {target : String}
    (hne : target ≠ backgroundTarget) {state : Transform α}
    (hs : Command.lastTransform? commands target = some state) :
    ∃ s, lastSegment? (ofCommands commands) target = some s ∧
      s.endState = (lastMove? commands target).getD state ∧
      (¬ PutUpAgain commands target → s.endState = state) := by
  have hend := map_endState_lastSegment? commands target
  rw [hs, Option.or_some] at hend
  obtain ⟨s, hlast, hstate⟩ := Option.map_eq_some_iff.mp hend
  refine ⟨s, hlast, hstate, fun hagain => hstate.trans ?_⟩
  cases hm : lastMove? commands target with
  | none => rfl
  | some t =>
    have ht := (lastTransform?_eq_of_lastMove? hne hagain hm).symm.trans hs
    exact Option.some.inj ht

/-! ## Scripts -/

/-- **The timeline of a script ends where reconciling it does**, for every figure that is not put up
    again behind its last move; the last segment of one that is ends in that move. -/
theorem lastSegment_parse (factor : Vec2 Float) (text : List Char)
    (hx : 0 < factor.x ∧ factor.x ≤ 1) (hy : 0 < factor.y ∧ factor.y ≤ 1) :
    ∃ r, Reconciliation.reconcile (Script.parse factor text) = .ok r ∧
      ∀ target state, r.finalStates.get? target = some state →
        ∃ s, lastSegment? (ofCommands (Script.parse factor text)) target = some s ∧
          s.endState = (lastMove? (Script.parse factor text) target).getD state ∧
          (¬ PutUpAgain (Script.parse factor text) target → s.endState = state) := by
  obtain ⟨running, hrun, h⟩ := Reconciliation.run_commandsFrom
    (Binary64.keeps_of_pos_le_one hx.1 hx.2) (Binary64.keeps_of_pos_le_one hy.1 hy.2)
    (Text.contentLines text) Reconciliation.inStep_nil
  refine ⟨_, hrun, fun target state hstate => ?_⟩
  have hagree := h.agree target
  rw [show running.get? target = some state from hstate] at hagree
  split at hagree
  · cases hagree
  · next hne =>
    rw [Stage.get?_afterAll] at hagree
    exact exists_lastSegment? hne hagree.symm

/-- A figure that is put up and moved, one that is only put up, and one that is moved, put up again
    and moved once more, at half the resolution. -/
theorem lastSegment_parse_moved :
    let text := Line.join ([
      "changeFigure:a.png -id=a;", "changeFigure:b.png -id=b -transform=\x7b\"rotation\":3\x7d;",
      "setTransform:\x7b\"position\":\x7b\"x\":100\x7d\x7d -target=c;", "Alice: hello",
      "setTransform:\x7b\"blur\":2,\"position\":\x7b\"x\":64\x7d\x7d -target=a;",
      "changeFigure:c.png -id=c;", "setTransform:\x7b\"rotation\":1\x7d -target=c;"].map String.toList)
    let commands := Script.parse (⟨0.5, 1⟩ : Vec2 Float) text
    (["a", "b", "c"].map fun target => (lastSegment? (ofCommands commands) target).map
      fun s => (s.endState.position.x, s.endState.rotation, s.endState.filters.keys)) =
        [some (32, 0, ["blur"]), some (0, 3, []), some (0, 1, [])] ∧
    ∃ r, Reconciliation.reconcile commands = .ok r ∧
      ∀ target state, r.finalStates.get? target = some state →
        ∃ s, lastSegment? (ofCommands commands) target = some s ∧
          s.endState = (lastMove? commands target).getD state ∧
          (¬ PutUpAgain commands target → s.endState = state) := by
  -- the texts by their letters: what is decided below is decided on lists
  repeat rewrite [List.map_cons, String.toList_ofList]
  exact ⟨by decide, lastSegment_parse ⟨0.5, 1⟩ _ (by decide) (by decide)⟩

/-- A figure that is put up again behind its last move is back at the origin, and its last segment
    is the move. -/
theorem lastSegment_putUpAgain :
    let text := Line.join ([
      "changeFigure:a.png -id=a;", "setTransform:\x7b\"position\":\x7b\"x\":100\x7d\x7d -target=a;",
      "changeFigure:b.png -id=a;"].map String.toList)
    let commands := Script.parse (⟨1, 1⟩ : Vec2 Float) text
    (0 < (1 : Float) ∧ (1 : Float) ≤ 1) ∧
    ((Reconciliation.reconcile commands).toOption.bind fun r => r.finalStates.get? "a").map
      (·.position.x) = some 0 ∧
    (lastSegment? (ofCommands commands) "a").map (·.endState.position.x) = some 100 ∧
    ¬ ∃ r, Reconciliation.reconcile commands = .ok r ∧
      ∀ target state, r.finalStates.get? target = some state →
        ∃ s, lastSegment? (ofCommands commands) target = some s ∧ s.endState = state := by
  repeat rewrite [List.map_cons, String.toList_ofList]
  intro text commands
  have hstate : ((Reconciliation.reconcile commands).toOption.bind
      fun r => r.finalStates.get? "a").map (·.position.x) = some 0 := by decide +kernel
  have hlast : (lastSegment? (ofCommands commands) "a").map (·.endState.position.x) = some 100 := by
    decide +kernel
  refine ⟨by decide, hstate, hlast, ?_⟩
  rintro ⟨r, hr, hall⟩
  rw [hr] at hstate
  obtain ⟨state, hget, hzero⟩ := Option.map_eq_some_iff.mp hstate
  obtain ⟨s, hs, rfl⟩ := hall "a" state hget
  rw [hs] at hlast
  have hboth : (0 : Float) = 100 := hzero.symm.trans (Option.some.inj hlast)
  exact absurd hboth (by decide)

end Timeline
end SceneScript
