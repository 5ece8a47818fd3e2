import SceneScript.Proofs.Script.EveryLine

/-!
# The moves of a script alone

A host that plays only the moves of a script keeps the lines that start like one. That is a test on
the text of a line, and reading has another one: the keyword stands before the first colon, and what
stands behind it is an object and parameters. **The test keeps every line that is read as a move and
none that is read as a picture** (`isSetTransform_of_motion`, `keyword?_of_isSetTransform`).

The pictures that go were part of what the moves were read on. They make no difference to the
target, the duration and the easing of a move, which its own line states (`motion?_readLine`). So
**the lines that are kept are a script with the same moves in the same order**
(`parse_setTransforms`).
-/

set_option autoImplicit false

namespace SceneScript

variable {α : Type}

/-! ## Motions -/

/-- What a move is apart from where it leads: on what it is, how long it takes and how it runs. -/
structure Motion where
  target : String
  duration : Nat
  easing : Easing
deriving Repr, DecidableEq

def Command.motion? : Command α → Option Motion
  | .setTransform m => some ⟨m.target, m.duration, m.easing⟩
  | _ => none

def Action.motion? : Action α → Option Motion
  | .setTransform target duration easing _ => some ⟨target, duration, easing⟩
  | _ => none

theorem Action.motion?_command [Scalar α] (a : Action α) (factor : Vec2 α) (stage : Stage α) :
    (a.command factor stage).motion? = a.motion? := by
  cases a <;> rfl

theorem Command.keyword?_of_motion? {c : Command α} {m : Motion} (h : c.motion? = some m) :
    c.keyword? = some .setTransform := by
  cases c with
  | setTransform c => rfl
  | changeFigure c => cases h
  | changeBackground c => cases h
  | rawText text => cases h

namespace Script

variable [Scalar α]

/-- **The motion of a line is its own**, whatever stage it is read on and by whatever factors. -/
theorem motion?_readLine (factor : Vec2 α) (stage : Stage α) (line : List Char) :
    (readLine factor stage line).1.motion? = (action? (α := α) line).bind Action.motion? := by
  cases ha : action? (α := α) line with
  | none =>
    rw [readLine_of_no_action ha]
    rfl
  | some a =>
    rw [readLine_of_action ha, a.motion?_command]
    rfl

theorem filterMap_motion?_commandsFrom (factor : Vec2 α) (stage : Stage α)
    (lines : List (List Char)) :
    (commandsFrom factor stage lines).filterMap Command.motion? =
      lines.filterMap fun line => (action? (α := α) line).bind Action.motion? := by
  induction lines generalizing stage with
  | nil => rfl
  | cons line lines ih =>
    rw [commandsFrom_cons, List.filterMap_cons, List.filterMap_cons, motion?_readLine, ih]

/-! ## Two tests for one line -/

/-- What a line is read as stands behind its keyword, and the keyword at the start of the line. -/
theorem keyword_isPrefix {factor : Vec2 α} {stage : Stage α} {line : List Char} {k : Keyword}
    (ht : Text.trim line = line) (h : (readLine factor stage line).1.keyword? = some k) :
    Text.trim (line.takeWhile (· != ':')) = k.text.toList ∧ k.text.toList <+: line := by
  cases ha : action? (α := α) line with
  | none =>
    rw [readLine_of_no_action ha] at h
    cases h
  | some a =>
    obtain ⟨st, hst, hact⟩ := exists_statement_of_action? ha
    rw [readLine_of_action ha, (st.command_of_action? hact factor stage).1] at h
    cases h
    rw [← ht] at hst
    have hkeyword := (Statement.keyword_before_colon hst).2
    refine ⟨hkeyword, ?_⟩
    have hstart : Text.trimStart (line.takeWhile (· != ':')) = line.takeWhile (· != ':') := by
      refine Text.trimStart_of_head fun c hc => Text.isBlank_head_of_trimmed ht c ?_
      obtain ⟨r, hr⟩ := List.head?_eq_some_iff.mp hc
      obtain ⟨s, hs⟩ := List.takeWhile_prefix (p := (· != ':')) (l := line)
      rw [← hs, hr]
      rfl
    rw [← hkeyword, Text.trim, hstart]
    exact (Text.trimEnd_isPrefix _).trans (List.takeWhile_prefix _)

/-- **A line that is read as a move starts like one.** -/
theorem isSetTransform_of_motion {line : List Char} {m : Motion} (ht : Text.trim line = line)
    (h : (action? (α := α) line).bind Action.motion? = some m) :
    Line.isSetTransform line = true := by
  have hread := (motion?_readLine (α := α) Vec2.one [] line).trans h
  have hstart := (keyword_isPrefix ht (Command.keyword?_of_motion? hread)).2
  unfold Line.isSetTransform
  rw [ht, List.isPrefixOf_iff_prefix]
  exact hstart

/-- **A line that starts like a move is read as a move or as nothing.** The word at its start is a
    part of any keyword that it has, and of no other one. -/
theorem keyword?_of_isSetTransform {line : List Char} (ht : Text.trim line = line)
    (hl : Line.isSetTransform line = true) {factor : Vec2 α} {stage : Stage α} {k : Keyword}
    (h : (readLine factor stage line).1.keyword? = some k) : k = .setTransform := by
  unfold Line.isSetTransform at hl
  rw [ht, List.isPrefixOf_iff_prefix] at hl
  obtain ⟨rest, rfl⟩ := hl
  have hword : ∀ c ∈ Keyword.setTransform.text.toList, (c != ':') = true :=
    List.all_eq_true.mp (by decide)
  have hk := (keyword_isPrefix ht h).1
  rw [List.takeWhile_append_of_pos hword] at hk
  have hpart : Keyword.setTransform.text.toList <+: k.text.toList := by
    rw [← hk]
    refine Text.prefix_trim_append ?_ ?_ (by decide) _
    · intro c hc
      cases hc
      decide
    · intro c hc
      cases hc
      decide
  cases k with
  | setTransform => rfl
  | changeFigure => exact absurd hpart (by decide)
  | changeBackground => exact absurd hpart (by decide)

/-! ## Scripts -/

/-- The lines that are kept are found again. -/
theorem contentLines_setTransforms (text : List Char) :
    Text.contentLines (Line.join (Line.setTransforms (Text.contentLines text))) =
      Line.setTransforms (Text.contentLines text) := by
  have hfound : ∀ line ∈ Line.setTransforms (Text.contentLines text),
      Text.contentLines line = [line] := by
    intro line hl
    obtain ⟨hu, ht, hne⟩ := Text.of_mem_contentLines (List.mem_filter.mp hl).1
    exact Text.contentLines_of_unbroken hu ht hne
  rw [Text.contentLines_join]
  generalize Line.setTransforms (Text.contentLines text) = lines at hfound
  induction lines with
  | nil => rfl
  | cons line lines ih =>
    obtain ⟨hline, hlines⟩ := List.forall_mem_cons.mp hfound
    rw [List.flatMap_cons, hline, ih hlines]
    rfl

/-- Every command of lines was read from one of them. -/
theorem exists_readLine_of_mem {factor : Vec2 α} {stage : Stage α} {lines : List (List Char)}
    {c : Command α} (h : c ∈ commandsFrom factor stage lines) :
    ∃ line ∈ lines, ∃ stage' : Stage α, (readLine factor stage' line).1 = c := by
  induction lines generalizing stage with
  | nil => cases h
  | cons line lines ih =>
    rcases List.mem_cons.mp h with rfl | h
    · exact ⟨line, List.mem_cons_self, stage, rfl⟩
    · obtain ⟨l, hl, hc⟩ := ih h
      exact ⟨l, List.mem_cons_of_mem _ hl, hc⟩

/-- **The lines that start like a move are a script of the moves alone**: one command for each line,
    no picture among them, and the same moves in the same order as in the whole script, by whatever
    factors the two are read. -/
theorem parse_setTransforms (factor factor' : Vec2 α) (text : List Char) :
    let kept := Line.setTransforms (Text.contentLines text)
    let commands := parse factor' (Line.join kept)
    commands.length = kept.length ∧
      (∀ c ∈ commands, c.keyword? ≠ some .changeFigure ∧ c.keyword? ≠ some .changeBackground) ∧
      commands.filterMap Command.motion? = (parse factor text).filterMap Command.motion? := by
  intro kept commands
  have hcommands : commands = commandsFrom factor' [] kept := by
    show commandsFrom factor' [] (Text.contentLines (Line.join kept)) = _
    rw [contentLines_setTransforms]
  rw [hcommands, parse_eq_commandsFrom]
  refine ⟨length_commandsFrom _ _ _, fun c hc => ?_, ?_⟩
  · obtain ⟨line, hl, stage, rfl⟩ := exists_readLine_of_mem hc
    obtain ⟨hmem, hl⟩ := List.mem_filter.mp hl
    have hk : ∀ k, (readLine factor' stage line).1.keyword? = some k → k = .setTransform :=
      fun k => keyword?_of_isSetTransform (Text.of_mem_contentLines hmem).2.1 hl
    exact ⟨fun h => absurd (hk _ h) (by decide), fun h => absurd (hk _ h) (by decide)⟩
  · rw [filterMap_motion?_commandsFrom, filterMap_motion?_commandsFrom]
    show ((Text.contentLines text).filter Line.isSetTransform).filterMap _ = _
    rw [List.filterMap_filter]
    refine List.filterMap_congr fun line hl => ?_
    split
    · rfl
    · next hno =>
      refine (Option.eq_none_iff_forall_ne_some.mpr fun m hm => hno ?_).symm
      exact isSetTransform_of_motion (Text.of_mem_contentLines hl).2.1 hm

/-- A move that is refused is kept, as it starts like one, and so is a line of which the keyword is
    only a part. -/
example :
    let text := Line.join (["changeFigure:a.png -id=a;", "setTransform:\x7b\x7d -target=a -duration=7;",
      "Alice: hi", " setTransform :\x7b\x7d -target=b;", "setTransform:none;",
      "setTransforms:\x7b\x7d -target=c;"].map String.toList)
    let commands := parse (Vec2.one : Vec2 Rat)
      (Line.join (Line.setTransforms (Text.contentLines text)))
    commands.map Command.motion? = [some ⟨"a", 7, .unspecified⟩, some ⟨"b", 500, .unspecified⟩,
      none, none] := by
  repeat rewrite [List.map_cons, String.toList_ofList]
  decide

end Script
end SceneScript
