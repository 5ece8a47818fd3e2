import SceneScript.Proofs.Json.Behind
import SceneScript.Proofs.Script.Counted
import SceneScript.Proofs.Script.WrittenLine

/-!
# What decides about a move

A `setTransform` line is a JSON object with parameters behind it. Its duration and its easing say
how the target moves, not whether and not where to: **two lines with one payload and one target are
both moves of the target to the same transform, or both raw text** (`parse_sameMove`). A duration
that is no number, an easing that no engine knows and parameters that nobody reads change nothing
about that.

Two things are to be kept in mind. A semicolon at the end is the terminator of the line and no part
of the last value; hence the statement is about the bodies of the lines. And a `transform` parameter
is read as JSON in such a line too, so that the target is that of the last parameter that *counts*.
-/

set_option autoImplicit false

namespace SceneScript
namespace Script

open Json (ReadError)
open Parameters (Given counted written written_cons follows_written)
open Text (trim trimStart Unbroken isBlank isBlankText)

/-! ## The payload -/

section Payload

variable (α : Type) [Scalar α]

/-- The text is that of a JSON object, blanks around it included. A number in it that the reader
    refuses makes it no other text. -/
def isObjectText (s : List Char) : Bool :=
  match (Json.read .strict (trimStart s) : Except ReadError (Json α × List Char)) with
  | .ok (.obj _, behind) => isBlankText behind
  | .error (.number _) => true
  | _ => false

/-- The update that the text of an object is, if it is one. -/
def payload? (s : List Char) : Option (Update α) :=
  match (Json.read .strict (trimStart s) : Except ReadError (Json α × List Char)) with
  | .ok (.obj members, _) => (Update.ofPayload members).toOption
  | _ => none

end Payload

variable {α : Type} [Scalar α]

theorem cases_of_isObjectText {s : List Char} (h : isObjectText α s = true) :
    (∃ (members : Fields (Json α)) (behind : List Char),
      Json.read .strict (trimStart s) = .ok (.obj members, behind) ∧ isBlankText behind = true) ∨
    ∃ fault, (Json.read .strict (trimStart s) : Except ReadError (Json α × List Char)) =
      .error (.number fault) := by
  unfold isObjectText at h
  split at h
  · next members behind hread => exact .inl ⟨members, behind, hread, h⟩
  · next fault hread => exact .inr ⟨fault, hread⟩
  · cases h

theorem trimStart_append {s : List Char} (h : isObjectText α s = true) (t : List Char) :
    trimStart (s ++ t) = trimStart s ++ t := by
  have hne : (s.dropWhile isBlank).isEmpty = false := by
    rw [List.isEmpty_eq_false_iff]
    intro h0
    unfold isObjectText trimStart at h
    rw [h0] at h
    cases h
  unfold trimStart
  rw [List.dropWhile_append, hne]
  rfl

/-- Blanks hold no mark, as they hold no hyphen. -/
theorem unmarked_of_isBlankText {s : List Char} (h : isBlankText s = true) : Text.Unmarked s := by
  intro hm
  have hblank := (List.all_eq_true.mp h) '-' (hm.subset (by simp [Text.mark]))
  exact absurd hblank (by decide)

/-- What stands behind an object and blanks is no text that does not belong there. -/
theorem head?_behind {behind : List Char} (h : isBlankText behind = true) (p : String × String)
    (ps : List (String × String)) :
    (trimStart (behind ++ written (p :: ps))).head? = some '-' := by
  have hmark : isBlank ' ' = true ∧ isBlank '-' = false := by decide
  unfold trimStart
  rw [List.dropWhile_append_of_pos (List.all_eq_true.mp h), written_cons,
    List.dropWhile_cons_of_pos hmark.1, List.dropWhile_cons_of_neg (by simp [hmark.2])]
  rfl

/-! ## Reading the line of a move -/

/-- **What a move says**: the object, and the values of the parameters that count. -/
theorem readSetTransform_object {s behind : List Char} {members : Fields (Json α)}
    (h : Json.read .strict (trimStart s) = .ok (.obj members, behind))
    (hb : isBlankText behind = true) {ps cs : List (String × String)} (hps : ∀ p ∈ ps, Given p)
    (hc : counted α 0 ps = .ok cs) {target : String}
    (ht : Fields.last? cs "target" = some target) (hne : target ≠ "") :
    Statement.readSetTransform (s ++ written ps) =
      .ok (.setTransform target members (Fields.last? cs "duration")
        (Fields.last? cs "ease")) := by
  have hread : Json.read .strict (trimStart s ++ written ps) =
      .ok (Json.obj members, behind ++ written ps) :=
    Json.read_behind (follows_written ps).apart h
  obtain ⟨tokens, hsplit, hgives⟩ :=
    Parameters.split_written (unmarked_of_isBlankText hb) hps hc
  have hget {name : String} (hn : name ≠ Parameters.transformName) :
      (Parameters.fields tokens).get? name = Fields.last? cs name :=
    Parameters.get?_fields_of_gives hgives hn
  have hbehind : (trimStart (behind ++ written ps)).head? = some '-' := by
    cases ps with
    | nil =>
      -- a target is counted, so there is a parameter
      cases hc
      cases ht
    | cons p ps => exact head?_behind hb p ps
  have hobject : isObjectText α s = true := by
    unfold isObjectText
    rw [h]
    exact hb
  unfold Statement.readSetTransform
  rw [trimStart_append hobject, hread]
  simp only [Except.mapError, bind, Except.bind, pure, Except.pure]
  rw [if_neg fun h => h.2 hbehind, hsplit]
  dsimp only
  rw [hget (by decide), hget (by decide), hget (by decide), ht, Option.getD_some,
    if_neg (by rwa [String.isEmpty_iff])]

/-- A number that is refused in the object is refused in the line. -/
theorem readSetTransform_refused {s : List Char} {fault : Json.NumberFault}
    (h : (Json.read .strict (trimStart s) : Except ReadError (Json α × List Char)) =
      .error (.number fault)) (ps : List (String × String)) :
    Statement.readSetTransform (α := α) (s ++ written ps) = .error (.number fault) := by
  have hread : (Json.read .strict (trimStart s ++ written ps) :
      Except ReadError (Json α × List Char)) = .error (.number fault) := by
    obtain ⟨_, _, hx⟩ | ⟨_, hx, hy⟩ | ⟨_, _, hx, -⟩ :=
      (Json.settled_read (α := α) (follows_written ps).apart .strict (trimStart s)).cases
    · rw [h] at hx
      cases hx
    · rw [h] at hx
      cases hx
      exact hy
    · rw [h] at hx
      cases hx
  have hobject : isObjectText α s = true := by
    unfold isObjectText
    rw [h]
  unfold Statement.readSetTransform
  rw [trimStart_append hobject, hread]
  rfl

/-- A move whose duration is no number of too many digits has an action if its payload is an
    update. -/
theorem toOption_action? {target : String} {members : Fields (Json α)}
    {duration ease : Option String} {n : Nat} (hn : Duration.ofParameter duration = .ok n) :
    (Statement.setTransform target members duration ease).action?.toOption =
      (Update.ofPayload members).toOption.map fun u =>
        Action.setTransform target n (Easing.ofParameter ease) u := by
  simp only [Statement.action?, Statement.update]
  rw [hn]
  cases Update.ofPayload members with
  | error e => rfl
  | ok u => rfl

/-! ## Lines -/

/-- The line moves a target by a payload: that is its body, with parameters of which the last target
    that counts is this one, and the last duration that counts is none with too many digits. -/
structure Moves (α : Type) [Scalar α] (payload : List Char) (target : String)
    (ps : List (String × String)) (line : List Char) : Prop where
  given : ∀ p ∈ ps, Given p
  unbroken : Unbroken line
  body : Line.body line = opening .setTransform ++ (payload ++ written ps)
  counts : ∃ cs, counted α 0 ps = .ok cs ∧ Fields.last? cs "target" = some target ∧
    ∃ n, Duration.ofParameter (Fields.last? cs "duration") = .ok n

/-- The body of a line has its first character, and the line has no blank behind it but for what a
    terminator cuts off. -/
theorem trim_of_body {line s : List Char} {keyword : Keyword}
    (h : Line.body line = opening keyword ++ s) (hs : EndsFirmly (opening keyword ++ s)) :
    trim line = line := by
  obtain ⟨c, r, ho, hc, -⟩ := exists_opening keyword
  unfold Line.body at h
  by_cases ht : Line.isTerminated line = true
  · rw [if_pos ht] at h
    have hlast : line.getLast? = some Line.terminator := by
      unfold Line.isTerminated at ht
      simpa using ht
    have hhead : line.dropLast.head? = some c :=
      Text.head_trimEnd _ c (by rw [h, ho]; rfl)
    refine Text.trim_of_ends (fun d hd => ?_) (fun d hd => ?_)
    · obtain ⟨t, ht⟩ := List.head?_eq_some_iff.mp hhead
      obtain ⟨u, hu⟩ := List.dropLast_prefix line
      rw [← hu, ht] at hd
      cases hd
      exact hc
    · rw [hlast] at hd
      cases hd
      decide
  · rw [if_neg ht] at h
    rw [h]
    refine Text.trim_of_ends (fun d hd => ?_) hs
    rw [ho] at hd
    cases hd
    exact hc

namespace Moves

variable {payload line : List Char} {target : String} {ps : List (String × String)}

theorem trimmed (h : Moves α payload target ps line) : trim line = line := by
  refine trim_of_body h.body fun c hc => ?_
  obtain ⟨cs, hc', ht, -⟩ := h.counts
  cases ps with
  | nil =>
    cases hc'
    cases ht
  | cons p ps =>
    rw [List.getLast?_append, List.getLast?_append, written_cons, List.getLast?_cons,
      Option.some_or, Option.some_or, ← List.getLast?_cons, ← written_cons] at hc
    exact endsFirmly_marked (Parameters.trimmed_pairText h.given) c hc

theorem ne_nil (h : Moves α payload target ps line) : line ≠ [] := by
  rintro rfl
  have hb := h.body
  obtain ⟨c, r, ho, -⟩ := exists_opening .setTransform
  rw [ho] at hb
  cases hb

/-- **The line has an action exactly if its object is an update**, and then it moves the target
    by it. -/
theorem action?_eq (h : Moves α payload target ps line) (hp : isObjectText α payload = true)
    (hne : target ≠ "") :
    ∃ duration easing, action? (α := α) line =
      (payload? α payload).map fun u => Action.setTransform target duration easing u := by
  obtain ⟨cs, hc, ht, n, hn⟩ := h.counts
  have hread : Statement.read? (α := α) line =
      (Statement.readSetTransform (payload ++ written ps)).map some := by
    unfold Statement.read?
    rw [h.body, keyword?_opening]
  refine ⟨n, Easing.ofParameter (Fields.last? cs "ease"), ?_⟩
  unfold action? payload?
  rcases cases_of_isObjectText hp with ⟨members, behind, hj, hb⟩ | ⟨fault, hj⟩
  · rw [hread, readSetTransform_object hj hb h.given hc ht hne, hj]
    exact toOption_action? hn
  · rw [hread, readSetTransform_refused hj ps, hj]
    rfl

end Moves

/-- The stage on which a line is read depends on the lines before it alone. -/
theorem exists_parse_concat (factor : Vec2 α) (earlier : List Char) :
    ∃ stage : Stage α, ∀ line, Unbroken line → trim line = line → line ≠ [] →
      parse factor (earlier ++ '\n' :: line) =
        parse factor earlier ++ [(readLine factor stage line).1] := by
  obtain ⟨stage, h⟩ := exists_stage_concat factor (Text.contentLines earlier) []
  refine ⟨stage, fun line hu ht hne => ?_⟩
  have hlines : Text.contentLines (earlier ++ '\n' :: line) =
      Text.contentLines earlier ++ [line] := by
    rw [Text.contentLines_eq_map_trim, Text.nonBlankLines_append_newline, List.map_append,
      ← Text.contentLines_eq_map_trim, ← Text.contentLines_eq_map_trim,
      Text.contentLines_of_unbroken hu ht hne]
  rw [parse_eq_commandsFrom, parse_eq_commandsFrom, hlines, h]

/-- Two commands move a target to the same transform, or both are raw text. -/
inductive SameMove (target : String) : Command α → Command α → Prop
  | moved {m m' : SetTransform α} (h : m.target = target) (h' : m'.target = target)
    (ht : m.transform = m'.transform) : SameMove target (.setTransform m) (.setTransform m')
  | kept {text text' : String} : SameMove target (.rawText text) (.rawText text')

/-- **Payload and target decide about a move.** Whatever the other parameters are, behind the same
    earlier lines two lines with one payload and one target both become moves of the target to the
    same transform, or both are kept as raw text, the latter exactly if the payload is no update. -/
theorem parse_sameMove {payload line line' : List Char} {target : String}
    {ps ps' : List (String × String)} (hp : isObjectText α payload = true) (hne : target ≠ "")
    (h : Moves α payload target ps line) (h' : Moves α payload target ps' line')
    (factor : Vec2 α) (earlier : List Char) :
    ∃ c c', parse factor (earlier ++ '\n' :: line) = parse factor earlier ++ [c] ∧
      parse factor (earlier ++ '\n' :: line') = parse factor earlier ++ [c'] ∧
      SameMove target c c' ∧ c.isRawText = (payload? α payload).isNone := by
  obtain ⟨stage, hread⟩ := exists_parse_concat factor earlier
  refine ⟨_, _, hread line h.unbroken h.trimmed h.ne_nil,
    hread line' h'.unbroken h'.trimmed h'.ne_nil, ?_⟩
  obtain ⟨duration, easing, ha⟩ := h.action?_eq hp hne
  obtain ⟨duration', easing', ha'⟩ := h'.action?_eq hp hne
  cases hu : payload? α payload with
  | none =>
    rw [hu] at ha ha'
    rw [readLine_of_no_action ha, readLine_of_no_action ha']
    exact ⟨.kept, rfl⟩
  | some u =>
    rw [hu] at ha ha'
    rw [readLine_of_action ha, readLine_of_action ha']
    exact ⟨.moved rfl rfl rfl, rfl⟩

/-- A move whose duration is no number, and one whose first target is a part of the text before
    it. -/
theorem parse_sameMove_strange :
    let payload := "\x7b\"position\":\x7b\"x\":10\x7d\x7d".toList
    let ps := [("target", "a"), ("duration", "soon")]
    let ps' := [("transform", "\"b"), ("target", "c\""), ("target", "a"), ("ease", "")]
    let line := opening .setTransform ++ (payload ++ written ps) ++ [Line.terminator]
    let line' := opening .setTransform ++ (payload ++ written ps')
    isObjectText Float payload = true ∧ "a" ≠ "" ∧ Moves Float payload "a" ps line ∧
      Moves Float payload "a" ps' line' ∧
      ∃ c c', parse (⟨1, 1⟩ : Vec2 Float) ("Alice: hi".toList ++ '\n' :: line) =
          parse ⟨1, 1⟩ "Alice: hi".toList ++ [c] ∧
        parse ⟨1, 1⟩ ("Alice: hi".toList ++ '\n' :: line') =
          parse ⟨1, 1⟩ "Alice: hi".toList ++ [c'] ∧
        SameMove "a" c c' ∧ c.isRawText = (payload? Float payload).isNone := by
  -- the texts by their letters: what is decided below is decided on lists
  repeat rewrite [String.toList_ofList]
  intro payload ps ps' line line'
  have hp : isObjectText Float payload = true := by decide +kernel
  have h : Moves Float payload "a" ps line :=
    ⟨by decide +kernel, by decide +kernel, by decide +kernel, ps, by decide +kernel, by decide,
      500, by decide +kernel⟩
  have h' : Moves Float payload "a" ps' line' :=
    ⟨by decide +kernel, by decide +kernel, by decide +kernel,
      [("transform", "\"b"), ("target", "a"), ("ease", "")], by decide +kernel, by decide,
      500, by decide +kernel⟩
  exact ⟨hp, by decide, h, h', parse_sameMove hp (by decide) h h' ⟨1, 1⟩ _⟩

/-- The last target that is given is not the last that counts: it can be a part of the JSON before
    it, and a semicolon at its end can be the terminator. -/
theorem parse_sameMove_uncounted :
    let parsed (ps : List (String × String)) :=
      (parse (⟨1, 1⟩ : Vec2 Float)
        (opening .setTransform ++ ("\x7b\x7d".toList ++ written ps))).map Command.outline
    let swallowed := [("transform", "\"a"), ("target", "b\"")]
    let plain := [("target", "b\"")]
    let last := [("target", "a;")]
    let notLast := [("target", "a;"), ("ease", "linear")]
    isObjectText Float "\x7b\x7d".toList = true ∧
      (∀ p ∈ swallowed ++ plain ++ last ++ notLast, Given p) ∧
      (Fields.last? swallowed "target" = some "b\"" ∧ Fields.last? plain "target" = some "b\"" ∧
        parsed swallowed = [.rawText "setTransform:\x7b\x7d -transform=\"a -target=b\""] ∧
        parsed plain = [.setTransform "b\""]) ∧
      Fields.last? last "target" = some "a;" ∧ Fields.last? notLast "target" = some "a;" ∧
        parsed last = [.setTransform "a"] ∧ parsed notLast = [.setTransform "a;"] := by
  repeat rewrite [String.toList_ofList]
  intro parsed swallowed plain last notLast
  refine ⟨by decide +kernel, by decide +kernel,
    ⟨by decide, by decide, by decide +kernel, by decide +kernel⟩, by decide, by decide,
    by decide +kernel, by decide +kernel⟩

end Script
end SceneScript
