import SceneScript.Proofs.LastSegment

/-!
# What the segments of commands are

The timeline goes through the commands once, with a stage that says where every target is. Here its
segments are said without it, each from the list of commands alone. **The segments are the moves,
each from the nearest earlier transform of its target, and then the targets that are put up and
never moved** (`ofCommands_eq`), the latter in the order of their first appearance.

Two facts about the stage carry that: it has a target in the transform of the last command on it
(`Stage.get?_afterAll`), and it has the targets in the order in which they appear
(`keys_stageAfter`).

**The segments of one target are a matter of its own commands** (`segmentsOf_congr`), so
commands on different targets can change places and no target has other segments for it.
-/

set_option autoImplicit false

namespace SceneScript
namespace Timeline

variable {α : Type}

/-! ## Segments from the list of commands -/

/-- The segment of the command at an index, if it is a move: from the nearest earlier transform of
    its target, or else from its own. -/
def moveSegment? (commands : List (Command α)) (index : Nat) : Option (Segment α) :=
  match commands[index]? with
  | some (.setTransform m) =>
    some ⟨m.target, (Command.lastTransform? (commands.take index) m.target).getD m.transform,
      m.transform, m.duration, m.easing, 0⟩
  | _ => none

/-- The transform that a command puts the target up in. -/
def pictureOf? (target : String) : Command α → Option (Transform α)
  | .changeFigure c => if c.target = target then some c.transform else none
  | .changeBackground c => if backgroundTarget = target then some c.transform else none
  | _ => none

/-- The transform that the target is put up in last. -/
def lastPicture? (commands : List (Command α)) (target : String) : Option (Transform α) :=
  (commands.filterMap (pictureOf? target)).getLast?

/-- The segment of a target that is put up and never moved. -/
def holdSegment? (commands : List (Command α)) (target : String) : Option (Segment α) :=
  if commands.any (moves target) then none else (lastPicture? commands target).map (hold target)

/-- The targets of commands, in the order of their first appearance. -/
def targets (commands : List (Command α)) : List String :=
  (commands.filterMap Command.target?).eraseDups

/-! ## The moves -/

/-- The tween of one command on a stage. -/
def tween? (stage : Stage α) : Command α → Option (Segment α)
  | .setTransform m =>
    some ⟨m.target, (stage.get? m.target).getD m.transform, m.transform, m.duration, m.easing, 0⟩
  | _ => none

theorem tweens_cons (stage : Stage α) (c : Command α) (commands : List (Command α)) :
    tweens stage (c :: commands) = (tween? stage c).toList ++ tweens (stage.after c) commands := by
  cases c with
  | setTransform m => rfl
  | changeFigure c => rfl
  | changeBackground c => rfl
  | rawText text => rfl

theorem tweens_concat (stage : Stage α) (commands : List (Command α)) (c : Command α) :
    tweens stage (commands ++ [c]) =
      tweens stage commands ++ (tween? (stage.afterAll commands) c).toList := by
  induction commands generalizing stage with
  | nil =>
    rw [List.nil_append, tweens_cons]
    simp [tweens, Stage.afterAll]
  | cons d commands ih =>
    rw [List.cons_append, tweens_cons, tweens_cons, ih, List.append_assoc]
    rfl

/-- A tween is that of the command at its index: the stage has the target where the last command
    before it left it. -/
theorem moveSegment?_concat_self (commands : List (Command α)) (c : Command α) :
    moveSegment? (commands ++ [c]) commands.length = tween? (Stage.afterAll [] commands) c := by
  unfold moveSegment?
  rw [List.getElem?_concat_length, List.take_left]
  cases c with
  | setTransform m =>
    dsimp only [tween?]
    rw [Stage.get?_afterAll]
  | changeFigure c => rfl
  | changeBackground c => rfl
  | rawText text => rfl

/-- What comes behind a command does not change its segment. -/
theorem moveSegment?_concat_of_lt {commands : List (Command α)} {index : Nat}
    (h : index < commands.length) (c : Command α) :
    moveSegment? (commands ++ [c]) index = moveSegment? commands index := by
  unfold moveSegment?
  rw [List.getElem?_append_left h, List.take_append_of_le_length h.le]

/-- **The tweens are the moves**, by induction from the last command back. -/
theorem tweens_eq (commands : List (Command α)) :
    tweens [] commands = (List.range commands.length).filterMap (moveSegment? commands) := by
  induction commands using List.reverseRecOn with
  | nil => rfl
  | append_singleton commands c ih =>
    have hbefore : (List.range commands.length).filterMap (moveSegment? (commands ++ [c])) =
        (List.range commands.length).filterMap (moveSegment? commands) := by
      refine List.filterMap_congr fun index hi => ?_
      exact moveSegment?_concat_of_lt (List.mem_range.mp hi) c
    rw [tweens_concat, List.length_append, List.length_singleton, List.range_succ,
      List.filterMap_append, hbefore, ← ih]
    congr 1
    rw [List.filterMap_cons, moveSegment?_concat_self]
    cases tween? (Stage.afterAll [] commands) c with
    | none => rfl
    | some s => rfl

/-! ## The holds -/

theorem eraseDups_concat (names : List String) (name : String) :
    (names ++ [name]).eraseDups =
      if name ∈ names then names.eraseDups else names.eraseDups ++ [name] := by
  rw [List.eraseDups_append]
  by_cases h : name ∈ names
  · simp [List.removeAll, h]
  · simp [List.removeAll, h, List.eraseDups_cons]

/-- **A stage has its targets in the order of their first appearance.** -/
theorem keys_stageAfter (commands : List (Command α)) :
    (stageAfter commands).keys = targets commands := by
  induction commands using List.reverseRecOn with
  | nil => rfl
  | append_singleton commands c ih =>
    unfold stageAfter targets at ih ⊢
    rw [List.foldl_append, List.foldl_cons, List.foldl_nil, List.filterMap_append, Stage.after]
    cases he : c.effect? with
    | none =>
      have ht : c.target? = none := by simp [Command.target?, he]
      simp [ht, ih]
    | some e =>
      obtain ⟨target, t⟩ := e
      have ht : c.target? = some target := by simp [Command.target?, he]
      have hnew : [c].filterMap Command.target? = [target] := by simp [ht]
      dsimp only
      rw [hnew, eraseDups_concat, Fields.keys_set, ih]
      simp only [List.mem_eraseDups]

theorem lastPicture?_concat (commands : List (Command α)) (c : Command α) (target : String) :
    lastPicture? (commands ++ [c]) target =
      (pictureOf? target c).or (lastPicture? commands target) := by
  unfold lastPicture?
  cases h : pictureOf? target c with
  | none => simp [h]
  | some t => simp [h]

/-- **A target that is never moved is where it was put up last.** -/
theorem lastTransform?_eq_lastPicture? {commands : List (Command α)} {target : String}
    (h : commands.any (moves target) = false) :
    Command.lastTransform? commands target = lastPicture? commands target := by
  induction commands using List.reverseRecOn with
  | nil => rfl
  | append_singleton commands c ih =>
    rw [List.any_append, Bool.or_eq_false_iff, List.any_cons, List.any_nil, Bool.or_false] at h
    obtain ⟨hcommands, hc⟩ := h
    rw [Command.lastTransform?_concat, lastPicture?_concat, ih hcommands]
    cases c with
    | setTransform m =>
      have hne : m.target ≠ target := by simpa [moves] using hc
      simp [Command.target?, Command.effect?, pictureOf?, hne]
    | changeFigure c =>
      by_cases ht : c.target = target
      · simp [Command.target?, Command.effect?, pictureOf?, ht]
      · simp [Command.target?, Command.effect?, pictureOf?, ht]
    | changeBackground c =>
      by_cases ht : backgroundTarget = target
      · simp [Command.target?, Command.effect?, pictureOf?, ht]
      · simp [Command.target?, Command.effect?, pictureOf?, ht]
    | rawText text => simp [Command.target?, Command.effect?, pictureOf?]

/-- **The holds are those of the targets in their order.** -/
theorem holds_eq (commands : List (Command α)) :
    holds commands = (targets commands).filterMap (holdSegment? commands) := by
  have hn := nodup_keys_stageAfter commands
  have hkeys := keys_stageAfter commands
  unfold holds
  rw [← hkeys, Fields.keys, List.filterMap_map]
  refine List.filterMap_congr fun f hf => ?_
  have hget : (stageAfter commands).get? f.1 = some f.2 := Fields.get?_of_mem hn hf
  have hlast : Command.lastTransform? commands f.1 = some f.2 :=
    (Stage.get?_afterAll commands f.1).symm.trans hget
  show (if commands.any (moves f.1) then none else some (hold f.1 f.2)) =
    holdSegment? commands f.1
  unfold holdSegment?
  by_cases hm : commands.any (moves f.1) = true
  · rw [if_pos hm, if_pos hm]
  · rw [if_neg hm, if_neg hm, ← lastTransform?_eq_lastPicture? (Bool.eq_false_of_not_eq_true hm),
      hlast]
    rfl

/-! ## The segments of one target -/

/-- The commands on a target. -/
def commandsOn (target : String) (commands : List (Command α)) : List (Command α) :=
  commands.filter fun c => c.target? == some target

/-- The segments of a target. -/
def segmentsOf (target : String) (segments : List (Segment α)) : List (Segment α) :=
  segments.filter fun s => s.target == target

theorem target?_of_tween? {stage : Stage α} {c : Command α} {s : Segment α}
    (h : tween? stage c = some s) : c.target? = some s.target := by
  cases c with
  | setTransform m =>
    cases h
    rfl
  | changeFigure c => cases h
  | changeBackground c => cases h
  | rawText text => cases h

theorem tween?_congr {stage stage' : Stage α} {c : Command α} {target : String}
    (hc : c.target? = some target) (h : stage.get? target = stage'.get? target) :
    tween? stage c = tween? stage' c := by
  cases c with
  | setTransform m =>
    cases hc
    dsimp only [tween?]
    rw [h]
  | changeFigure c => rfl
  | changeBackground c => rfl
  | rawText text => rfl

/-- **The tweens of a target** are those of the commands on it, on any stage that has the target in
    the same place. -/
theorem segmentsOf_tweens {stage stage' : Stage α} {target : String}
    (h : stage.get? target = stage'.get? target) (commands : List (Command α)) :
    segmentsOf target (tweens stage commands) = tweens stage' (commandsOn target commands) := by
  induction commands generalizing stage stage' with
  | nil => rfl
  | cons c commands ih =>
    unfold segmentsOf commandsOn at ih ⊢
    rw [tweens_cons, List.filter_append]
    by_cases hc : c.target? = some target
    · rw [List.filter_cons_of_pos (by simpa using hc), tweens_cons,
        ih (Stage.get?_after_congr h c), tween?_congr hc h]
      congr 1
      refine List.filter_eq_self.mpr fun s hs => ?_
      have ht := target?_of_tween? (Option.mem_toList.mp hs)
      rw [hc] at ht
      simpa using (Option.some.inj ht).symm
    · rw [List.filter_cons_of_neg (by simpa using hc),
        ih ((Stage.get?_after_of_ne stage hc).trans h)]
      have hnone : (tween? stage c).toList.filter (fun s => s.target == target) = [] := by
        refine List.filter_eq_nil_iff.mpr fun s hs ht => hc ?_
        rw [target?_of_tween? (Option.mem_toList.mp hs), beq_iff_eq.mp ht]
      rw [hnone, List.nil_append]

theorem any_moves_commandsOn (commands : List (Command α)) (target : String) :
    (commandsOn target commands).any (moves target) = commands.any (moves target) := by
  unfold commandsOn
  rw [List.any_filter]
  congr 1
  funext c
  cases c with
  | setTransform m =>
    by_cases ht : m.target = target
    · simp [moves, Command.target?, Command.effect?, ht]
    · simp [moves, ht]
  | changeFigure c => simp [moves]
  | changeBackground c => simp [moves]
  | rawText text => simp [moves]

theorem lastTransform?_commandsOn (commands : List (Command α)) (target : String) :
    Command.lastTransform? (commandsOn target commands) target =
      Command.lastTransform? commands target := by
  unfold commandsOn
  induction commands using List.reverseRecOn with
  | nil => rfl
  | append_singleton commands c ih =>
    rw [List.filter_append, Command.lastTransform?_concat]
    by_cases hc : c.target? = some target
    · rw [List.filter_cons_of_pos (by simpa using hc), List.filter_nil,
        Command.lastTransform?_concat, if_pos hc, if_pos hc]
    · rw [List.filter_cons_of_neg (by simpa using hc), List.filter_nil, List.append_nil, if_neg hc,
        ih]

/-- **The segments of a target are a matter of the commands on it.** -/
theorem segmentsOf_congr {commands commands' : List (Command α)} {target : String}
    (h : commandsOn target commands = commandsOn target commands') :
    segmentsOf target (ofCommands commands) = segmentsOf target (ofCommands commands') := by
  have htweens : segmentsOf target (tweens [] commands) = segmentsOf target (tweens [] commands') := by
    rw [segmentsOf_tweens rfl, segmentsOf_tweens rfl, h]
  have hholds : (holds commands).filter (fun s => s.target == target) =
      (holds commands').filter (fun s => s.target == target) := by
    rw [filter_holds, filter_holds, ← any_moves_commandsOn, ← lastTransform?_commandsOn, h,
      any_moves_commandsOn, lastTransform?_commandsOn]
  unfold segmentsOf ofCommands at *
  rw [List.filter_append, List.filter_append, htweens, hholds]

/-- Commands on different targets are on each of them in the same order, whichever comes first. -/
theorem commandsOn_swap {a b : Command α} (h : a.target? ≠ b.target?) (target : String)
    (before behind : List (Command α)) :
    commandsOn target (before ++ a :: b :: behind) =
      commandsOn target (before ++ b :: a :: behind) := by
  unfold commandsOn
  rw [List.filter_append, List.filter_append]
  congr 1
  by_cases ha : a.target? = some target
  · have hb : b.target? ≠ some target := fun hb => h (ha.trans hb.symm)
    simp [ha, hb]
  · simp [List.filter_cons, ha]

/-! ## All segments -/

/-- **What the segments of commands are**: the moves in their order, each from the nearest earlier
    transform of its target, and then the targets that are put up and never moved, in the order of
    their first appearance. So two commands on different targets that follow each other can change
    places: no target has other segments for it. -/
theorem ofCommands_eq (commands : List (Command α)) :
    ofCommands commands =
      (List.range commands.length).filterMap (moveSegment? commands) ++
        (targets commands).filterMap (holdSegment? commands) ∧
    ∀ before a b behind, commands = before ++ a :: b :: behind → a.target? ≠ b.target? →
      ∀ target, segmentsOf target (ofCommands commands) =
        segmentsOf target (ofCommands (before ++ b :: a :: behind)) := by
  refine ⟨?_, ?_⟩
  · unfold ofCommands
    rw [tweens_eq, holds_eq]
  · rintro before a b behind rfl hne target
    exact segmentsOf_congr (commandsOn_swap hne target before behind)

/-- A figure that is put up, moved, put up again and moved once more, a figure that is moved before
    it is put up, and a background that is put up twice. Its second picture and the second move
    change places. -/
theorem ofCommands_eq_scene :
    let state : Nat → Transform Nat := fun n => ⟨⟨n, 0⟩, ⟨1, 1⟩, 0, []⟩
    let figure := fun id n => Command.changeFigure ⟨id, "a.png", state n, .center, []⟩
    let move := fun id n d => Command.setTransform ⟨id, d, .unspecified, state n⟩
    let background := fun n => Command.changeBackground ⟨"bg.png", state n, []⟩
    let before := [background 9, figure "a" 0, move "b" 5 200, .rawText "Alice: hello",
      move "a" 3 500, figure "a" 1]
    let commands := before ++ [background 8, move "a" 4 100, figure "b" 7]
    let shown := fun segments : List (Segment Nat) => segments.map fun s =>
      (s.target, s.startState.position.x, s.endState.position.x, s.duration)
    shown (ofCommands commands) =
      [("b", 5, 5, 200), ("a", 0, 3, 500), ("a", 1, 4, 100), ("bg-main", 8, 8, 0)] ∧
    ofCommands commands =
      (List.range commands.length).filterMap (moveSegment? commands) ++
        (targets commands).filterMap (holdSegment? commands) ∧
    (background 8).target? ≠ (move "a" 4 100).target? ∧
    ∀ target, segmentsOf target (ofCommands commands) =
      segmentsOf target (ofCommands (before ++ [move "a" 4 100, background 8, figure "b" 7])) := by
  intro state figure move background before commands shown
  have hne : (background 8).target? ≠ (move "a" 4 100).target? := by decide
  obtain ⟨hall, hswap⟩ := ofCommands_eq commands
  exact ⟨by decide, hall, hne, hswap before _ _ [figure "b" 7] rfl hne⟩

end Timeline
end SceneScript
