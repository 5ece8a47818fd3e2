import Mathlib.Data.Nat.Find
import SceneScript.Proofs.Script.Locality
import SceneScript.Proofs.Text.Lines

/-!
# Slicing a script by target

What a script says about one target can be read without the rest of it. For a command on a target
`t`, its **slice** is the lines on `t` from the last one that put `t` on stage anew. **Reading the
slice alone gives the same commands** (`parse_slice`): the lines of other targets, the raw text
between them and everything before the reset have no influence.

The proof compares two runs, one over all lines and one over the lines of `t`. What relates their
stages is that they agree *at `t`*, and only there; `commandsFrom_filter` carries this from line to
line. A reset makes any two stages agree at `t`, whatever they were, which is why the slice may
start there with an empty stage (`commandsFrom_filter_of_resets`).
-/

set_option autoImplicit false

namespace SceneScript
namespace Script

variable {α : Type}

/-! ## Slices -/

/-- The place of the last command up to `i` that puts the target on stage anew, or the start. -/
def lastReset (commands : List (Command α)) (target : String) (i : Nat) : Nat :=
  Nat.findGreatest (fun j => commands[j]?.any (Command.resets target) = true) i

/-- The lines with their commands, from the last reset of the target up to `i`, that are about
    the target. -/
def slice (lines : List (List Char)) (commands : List (Command α)) (target : String) (i : Nat) :
    List (List Char × Command α) :=
  (((lines.zip commands).take (i + 1)).drop (lastReset commands target i)).filter fun p =>
    p.2.target? == some target

theorem lastReset_le (commands : List (Command α)) (target : String) (i : Nat) :
    lastReset commands target i ≤ i :=
  Nat.findGreatest_le i

/-- The last reset is one, unless it is the start. -/
theorem resets_at_lastReset {commands : List (Command α)} {target : String} {i : Nat}
    (h : lastReset commands target i ≠ 0) :
    ∃ c, commands[lastReset commands target i]? = some c ∧ c.resets target = true := by
  have hp : commands[lastReset commands target i]?.any (Command.resets target) = true :=
    Nat.findGreatest_of_ne_zero rfl h
  cases hc : commands[lastReset commands target i]? with
  | none =>
    rw [hc] at hp
    exact absurd hp (by simp)
  | some c =>
    rw [hc] at hp
    exact ⟨c, rfl, hp⟩

/-! ## Two runs that agree at a target -/

variable [Scalar α]

/-- The lines that are about a target, with their commands, when read from a stage on. -/
def linesOn (factor : Vec2 α) (stage : Stage α) (target : String) (lines : List (List Char)) :
    List (List Char × Command α) :=
  (lines.zip (commandsFrom factor stage (lines.map Text.trim))).filter fun p =>
    p.2.target? == some target

/-- **Leaving out the lines of other targets changes nothing about this one.** -/
theorem commandsFrom_filter (factor : Vec2 α) (target : String) (lines : List (List Char)) :
    ∀ {stage stage' : Stage α}, stage.get? target = stage'.get? target →
      commandsFrom factor stage' ((linesOn factor stage target lines).map fun p => Text.trim p.1) =
        (linesOn factor stage target lines).map (·.2) := by
  induction lines with
  | nil => intro stage stage' _; rfl
  | cons line lines ih =>
    intro stage stage' h
    have hcons : linesOn factor stage target (line :: lines) =
        (if (readLine factor stage (Text.trim line)).1.target? == some target then
          [(line, (readLine factor stage (Text.trim line)).1)] else []) ++
          linesOn factor (stage.after (readLine factor stage (Text.trim line)).1) target lines := by
      unfold linesOn
      rw [List.map_cons, commandsFrom_cons, List.zip_cons_cons, List.filter_cons]
      split <;> rfl
    rw [hcons]
    by_cases ht : (readLine factor stage (Text.trim line)).1.target? = some target
    · -- the line is in the slice: both runs read it, and read the same
      have hsame := readLine_congr ht h
      rw [if_pos (by simpa using ht), List.singleton_append, List.map_cons, List.map_cons,
        commandsFrom_cons, hsame]
      rw [ih (Stage.get?_after_congr h (readLine factor stage (Text.trim line)).1)]
    · -- the line is not: the run over the slice stays where it was
      rw [if_neg (by simpa using ht), List.nil_append]
      exact ih ((Stage.get?_after_of_ne stage ht).trans h)

/-- From a reset on, the stage before it does not count either. -/
theorem commandsFrom_filter_of_resets (factor : Vec2 α) (target : String) (stage stage' : Stage α)
    (line : List Char) (lines : List (List Char))
    (h : (readLine factor stage (Text.trim line)).1.resets target = true) :
    commandsFrom factor stage'
        ((linesOn factor stage target (line :: lines)).map fun p => Text.trim p.1) =
      (linesOn factor stage target (line :: lines)).map (·.2) := by
  have ht := Command.target?_of_resets h
  have hcons : linesOn factor stage target (line :: lines) =
      (line, (readLine factor stage (Text.trim line)).1) ::
        linesOn factor (stage.after (readLine factor stage (Text.trim line)).1) target lines := by
    unfold linesOn
    rw [List.map_cons, commandsFrom_cons, List.zip_cons_cons, List.filter_cons,
      if_pos (by simpa using ht)]
  obtain ⟨tr, he⟩ : ∃ tr,
      (readLine factor stage (Text.trim line)).1.effect? = some (target, tr) := by
    obtain ⟨p, he, hp⟩ := Option.map_eq_some_iff.mp ht
    exact ⟨p.2, by rw [he, ← hp]⟩
  have hagree : (stage.after (readLine factor stage (Text.trim line)).1).get? target =
      (stage'.after (readLine factor stage (Text.trim line)).1).get? target := by
    rw [Stage.get?_after_self stage he, Stage.get?_after_self stage' he]
  rw [hcons, List.map_cons, List.map_cons, commandsFrom_cons, readLine_of_resets h stage',
    commandsFrom_filter factor target lines hagree]

/-! ## The slice of a script -/

theorem parse_eq_commandsFrom_map_trim (factor : Vec2 α) (text : List Char) :
    parse factor text = commandsFrom factor [] ((Text.nonBlankLines text).map Text.trim) := by
  rw [parse_eq_commandsFrom, Text.contentLines_eq_map_trim]

/-- The lines from a place on, up to another. -/
def linesBetween (text : List Char) (j i : Nat) : List (List Char) :=
  ((Text.nonBlankLines text).take (i + 1)).drop j

/-- The commands from a place on are read from the stage that it is reached with. -/
theorem exists_stage_at (factor : Vec2 α) (text : List Char) (j i : Nat) :
    ∃ stage : Stage α, (j = 0 → stage = []) ∧
      ((parse factor text).take (i + 1)).drop j =
        commandsFrom factor stage ((linesBetween text j i).map Text.trim) := by
  have hc : (parse factor text).take (i + 1) =
      commandsFrom factor [] (((Text.nonBlankLines text).take (i + 1)).map Text.trim) := by
    rw [parse_eq_commandsFrom_map_trim, take_commandsFrom, List.map_take]
  unfold linesBetween
  by_cases h0 : j = 0
  · exact ⟨[], fun _ => rfl, by rw [h0, List.drop_zero, List.drop_zero, hc]⟩
  · obtain ⟨stage, hs⟩ := exists_drop_commandsFrom factor j []
      (((Text.nonBlankLines text).take (i + 1)).map Text.trim)
    exact ⟨stage, fun h => absurd h h0, by rw [hc, hs, List.map_drop]⟩

theorem slice_eq_linesOn {factor : Vec2 α} {text : List Char} {target : String} {i : Nat}
    {stage : Stage α}
    (hs : ((parse factor text).take (i + 1)).drop (lastReset (parse factor text) target i) =
      commandsFrom factor stage
        ((linesBetween text (lastReset (parse factor text) target i) i).map Text.trim)) :
    slice (Text.nonBlankLines text) (parse factor text) target i =
      linesOn factor stage target
        (linesBetween text (lastReset (parse factor text) target i) i) := by
  unfold slice linesOn
  rw [← hs]
  unfold List.zip linesBetween
  rw [List.take_zipWith, List.drop_zipWith]

/-- **What a slice says is read from it alone.** -/
theorem commandsFrom_slice (factor : Vec2 α) (text : List Char) (target : String) (i : Nat) :
    commandsFrom factor []
        ((slice (Text.nonBlankLines text) (parse factor text) target i).map fun p =>
          Text.trim p.1) =
      (slice (Text.nonBlankLines text) (parse factor text) target i).map (·.2) := by
  obtain ⟨stage, hz, hs⟩ :=
    exists_stage_at factor text (lastReset (parse factor text) target i) i
  rw [slice_eq_linesOn hs]
  by_cases h0 : lastReset (parse factor text) target i = 0
  · rw [hz h0]
    exact commandsFrom_filter factor target _ rfl
  · -- the slice starts with a reset, so the empty stage is as good as the one before it
    obtain ⟨c, hc, hr⟩ := resets_at_lastReset h0
    have hle := lastReset_le (parse factor text) target i
    have hhead : (((parse factor text).take (i + 1)).drop
        (lastReset (parse factor text) target i)).head? = some c := by
      rw [List.head?_drop, List.getElem?_take_of_lt (by omega), hc]
    rw [hs] at hhead
    cases hl : linesBetween text (lastReset (parse factor text) target i) i with
    | nil =>
      rw [hl] at hhead
      exact absurd hhead (by simp)
    | cons line lines =>
      rw [hl, List.map_cons, commandsFrom_cons, List.head?_cons] at hhead
      refine commandsFrom_filter_of_resets factor target stage [] line lines ?_
      rw [Option.some.inj hhead]
      exact hr

theorem getLast?_slice {factor : Vec2 α} {text : List Char} {target : String} {i : Nat}
    {c : Command α} (hc : (parse factor text)[i]? = some c) (ht : c.target? = some target) :
    ((slice (Text.nonBlankLines text) (parse factor text) target i).map (·.2)).getLast? =
      some c := by
  have hlen : (parse factor text).length = (Text.nonBlankLines text).length := by
    rw [length_parse, Text.contentLines_eq_map_trim, List.length_map]
  obtain ⟨hi, hci⟩ := List.getElem?_eq_some_iff.mp hc
  have hle := lastReset_le (parse factor text) target i
  have hz : ((Text.nonBlankLines text).zip (parse factor text)).take (i + 1) =
      ((Text.nonBlankLines text).zip (parse factor text)).take i ++
        [((Text.nonBlankLines text).get ⟨i, by omega⟩, c)] := by
    rw [List.take_succ_eq_append_getElem (by rw [List.length_zip]; omega), List.getElem_zip, hci]
    rfl
  unfold slice
  rw [hz, List.drop_append_of_le_length (by rw [List.length_take, List.length_zip]; omega),
    List.filter_append]
  simp [ht]

/-! ## Slicing -/

/-- **A command depends on the lines about its own target since the last reset, and on no
    other.** The lines of the slice, read alone and with the same factors, give the commands that
    the whole script has there, the last of them the command itself. Whether a line is a command or
    raw text does not even depend on those: it is the same in every script and for all factors. -/
theorem parse_slice (factor : Vec2 α) (text : List Char) :
    (∀ (i : Nat) (c : Command α) (target : String),
      (parse factor text)[i]? = some c → c.target? = some target →
      let taken := slice (Text.nonBlankLines text) (parse factor text) target i
      parse factor (Line.join (taken.map (·.1))) = taken.map (·.2) ∧
        (taken.map (·.2)).getLast? = some c) ∧
    ∀ (factor' : Vec2 α) (text' : List Char) (k k' : Nat),
      (Text.contentLines text)[k]? = (Text.contentLines text')[k']? →
      ((parse factor text)[k]?).map Command.isRawText =
        ((parse factor' text')[k']?).map Command.isRawText := by
  constructor
  · intro i c target hc ht taken
    have hlines : Text.nonBlankLines (Line.join (taken.map (·.1))) = taken.map (·.1) := by
      refine Text.nonBlankLines_join_of_mem (s := text) fun l hl => ?_
      obtain ⟨p, hp, rfl⟩ := List.mem_map.mp hl
      exact (List.of_mem_zip (List.mem_of_mem_take (List.mem_of_mem_drop
        (List.mem_filter.mp hp).1))).1
    refine ⟨?_, getLast?_slice hc ht⟩
    rw [parse_eq_commandsFrom_map_trim, hlines, List.map_map]
    exact commandsFrom_slice factor text target i
  · intro factor' text' k k' hk
    have hout : ∀ (f : Vec2 α) (s : List Char) (n : Nat),
        ((parse f s)[n]?).map Command.outline =
          ((Text.contentLines s)[n]?).map fun line => (readLine factor [] line).1.outline := by
      intro f s n
      rw [← List.getElem?_map, ← List.getElem?_map, parse_eq_commandsFrom,
        map_outline_commandsFrom f [] [] (Text.contentLines s)]
      congr 2
      funext line
      exact outline_readLine f factor [] [] line
    have heq : ((parse factor text)[k]?).map Command.outline =
        ((parse factor' text')[k']?).map Command.outline := by
      rw [hout, hout, hk]
    have hraw : Command.isRawText (α := α) = Outline.isRawText ∘ Command.outline :=
      funext fun c => (Command.isRawText_outline c).symm
    rw [hraw, ← Option.map_map, ← Option.map_map, heq]

/-- The last of four lines: the slice is the line that put its figure on stage and the line
    itself. The raw text and the move of the other figure are left out, and so is the line before
    the reset. -/
theorem parse_slice_interleaved :
    let text := Line.join (["setTransform:\x7b\"rotation\":5\x7d -target=a;",
      "changeFigure:a.png -id=a;", "Alice: hello",
      "setTransform:\x7b\"rotation\":7\x7d -target=b;",
      "setTransform:\x7b\"blur\":2\x7d -target=a;"].map String.toList)
    let commands : List (Command Float) := parse Vec2.one text
    let taken := slice (Text.nonBlankLines text) commands "a" 4
    taken.map (fun p => String.ofList p.1) =
        ["changeFigure:a.png -id=a;", "setTransform:\x7b\"blur\":2\x7d -target=a;"] ∧
      ∃ c, commands[4]? = some c ∧ c.target? = some "a" ∧
        parse Vec2.one (Line.join (taken.map (·.1))) = taken.map (·.2) ∧
        (taken.map (·.2)).getLast? = some c := by
  repeat rewrite [List.map_cons, String.toList_ofList]
  intro text commands taken
  have hc : commands[4]?.bind Command.target? = some "a" := by decide
  obtain ⟨c, hc, ht⟩ := Option.bind_eq_some_iff.mp hc
  exact ⟨by decide, c, hc, ht, (parse_slice Vec2.one text).1 4 c "a" hc ht⟩

end Script
end SceneScript
