import SceneScript.Proofs.Script.Locality
import SceneScript.Proofs.Transform

/-!
# Positions are converted once

A script is read with two factors, which convert its positions to working units. A coordinate is
converted on the line that gives it, and every later line that leaves it open inherits what was
converted already. So **reading with factors is reading without them and multiplying the positions
at the end** (`parse_rescaled`), however often a coordinate was inherited and whatever was reset in
between; and nothing but the positions is touched.

The proof compares the two runs line by line. Their stages are related by `Transform.Rescaled`, and
an update keeps that for a reason of its own in each case: a coordinate that it gives is multiplied
on both sides, and one that it leaves open was related before. Only the position where everything
starts has to be looked at: it is zero, and a finite factor leaves zero where it is.
-/

set_option autoImplicit false

namespace SceneScript

variable {α : Type} [Scalar α]

/-! ## Transforms -/

/-- The first transform is the second one with its position multiplied by the factors. The
    coordinates are compared as numbers. -/
structure Transform.Rescaled (factor : Vec2 α) (t' t : Transform α) : Prop where
  x : Scalar.Same t'.position.x (t.position.x * factor.x)
  y : Scalar.Same t'.position.y (t.position.y * factor.y)
  scale : t'.scale = t.scale
  rotation : t'.rotation = t.rotation
  filters : t'.filters = t.filters

/-- The first command is the second one with the position of its transform multiplied by the
    factors. -/
inductive Command.Rescaled (factor : Vec2 α) : Command α → Command α → Prop
  | setTransform {c : SetTransform α} {t' : Transform α} (h : t'.Rescaled factor c.transform) :
      Rescaled factor (.setTransform { c with transform := t' }) (.setTransform c)
  | changeFigure {c : ChangeFigure α} {t' : Transform α} (h : t'.Rescaled factor c.transform) :
      Rescaled factor (.changeFigure { c with transform := t' }) (.changeFigure c)
  | changeBackground {c : ChangeBackground α} {t' : Transform α}
      (h : t'.Rescaled factor c.transform) :
      Rescaled factor (.changeBackground { c with transform := t' }) (.changeBackground c)
  | rawText (text : String) : Rescaled factor (.rawText text) (.rawText text)

/-- Both factors scale. -/
structure Vec2.Scales (factor : Vec2 α) : Prop where
  x : Scalar.Scales factor.x
  y : Scalar.Scales factor.y

variable {factor : Vec2 α}

theorem Transform.rescaled_initial (hf : factor.Scales) :
    (initial : Transform α).Rescaled factor initial where
  x := hf.x.same_zero_mul
  y := hf.y.same_zero_mul
  scale := rfl
  rotation := rfl
  filters := rfl

variable [Scalar.Lawful α]

theorem Update.same_coordinate {f : α} (hf : Scalar.Scales f) {given : Option α}
    (hg : ∀ v, given = some v → Scalar.isFinite v = true) {p' p : α}
    (hp : Scalar.Same p' (p * f)) :
    Scalar.Same (coordinate given f p') (coordinate given (Scalar.ofNat 1) p * f) := by
  cases given with
  | none => exact hp
  | some v =>
    show Scalar.Same (v * f) (v * Scalar.ofNat 1 * f)
    rw [Scalar.Lawful.mul_one]
    exact hf.same_mul v (hg v rfl)

/-- **An update keeps transforms rescaled.** -/
theorem Transform.Rescaled.apply {t' t : Transform α} (h : t'.Rescaled factor t)
    (hf : factor.Scales) {u : Update α} (hu : u.Sound) :
    (u.apply factor t').Rescaled factor (u.apply Vec2.one t) where
  x := Update.same_coordinate hf.x hu.x h.x
  y := Update.same_coordinate hf.y hu.y h.y
  scale := by
    show (⟨u.scaleX.getD t'.scale.x, u.scaleY.getD t'.scale.y⟩ : Vec2 α) = _
    rw [h.scale]
    rfl
  rotation := by
    show u.rotation.getD t'.rotation = _
    rw [h.rotation]
    rfl
  filters := by
    show t'.filters.update u.filters = _
    rw [h.filters]
    rfl

/-! ## Two runs -/

/-- The transforms on the first stage are those on the second one, rescaled. -/
def Stage.Rescaled (factor : Vec2 α) (stage' stage : Stage α) : Prop :=
  stage'.Related (Transform.Rescaled factor) stage

omit [Scalar.Lawful α] in
theorem Stage.Rescaled.after {stage' stage : Stage α} (h : Stage.Rescaled factor stage' stage)
    {c' c : Command α} (hc : c'.Rescaled factor c) :
    Stage.Rescaled factor (stage'.after c') (stage.after c) := by
  cases hc with
  | rawText text => exact h
  | setTransform ht => exact Stage.Related.set h _ ht
  | changeFigure ht => exact Stage.Related.set h _ ht
  | changeBackground ht => exact Stage.Related.set h _ ht

namespace Script

variable {stage' stage : Stage α}

theorem rescaled_command (hf : factor.Scales) (h : Stage.Rescaled factor stage' stage)
    (a : Action α) (hu : a.update.Sound) :
    (a.command factor stage').Rescaled factor (a.command Vec2.one stage) := by
  have hinitial := Transform.rescaled_initial hf
  cases a with
  | setTransform target duration easing u =>
    have hu' : u.Sound := hu
    exact .setTransform (c := ⟨target, duration, easing, _⟩)
      ((Stage.Related.getD h (fun _ _ ht => ht) hinitial target).apply hf hu')
  | changeFigure target path u preset params =>
    have hu' : u.Sound := hu
    exact .changeFigure (c := ⟨target, path, _, preset, params⟩) (hinitial.apply hf hu')
  | changeBackground path u params =>
    have hu' : u.Sound := hu
    exact .changeBackground (c := ⟨path, _, params⟩) (hinitial.apply hf hu')

/-- **One line**: what it is read as with factors is what it is read as without them, rescaled. -/
theorem rescaled_readLine (hf : factor.Scales) (h : Stage.Rescaled factor stage' stage)
    (line : List Char) :
    (readLine factor stage' line).1.Rescaled factor (readLine Vec2.one stage line).1 := by
  cases ha : action? (α := α) line with
  | none =>
    rw [readLine_of_no_action ha, readLine_of_no_action ha]
    exact .rawText _
  | some a =>
    rw [readLine_of_action ha, readLine_of_action ha]
    obtain ⟨s, -, hs⟩ := exists_statement_of_action? ha
    exact rescaled_command hf h a (Update.sound_of_ofPayload (Statement.ofPayload_of_action? hs))

/-- **All lines**: by induction, with the step above. -/
theorem rescaled_commandsFrom (hf : factor.Scales) (lines : List (List Char))
    (h : Stage.Rescaled factor stage' stage) :
    List.Forall₂ (Command.Rescaled factor) (commandsFrom factor stage' lines)
      (commandsFrom Vec2.one stage lines) := by
  induction lines generalizing stage' stage with
  | nil => exact .nil
  | cons line lines ih =>
    have hline := rescaled_readLine hf h line
    rw [commandsFrom_cons, commandsFrom_cons]
    exact .cons hline (ih (h.after hline))

/-! ## Scripts -/

/-- **Factors act once and only on positions.** Read with finite factors, a script has the commands
    that it has without them, one by one the same but for the position of the transform, and that
    is the other one multiplied by the factors. -/
theorem parse_rescaled (factor : Vec2 Float) (hx : Scalar.isFinite factor.x = true)
    (hy : Scalar.isFinite factor.y = true) (text : List Char) :
    List.Forall₂ (Command.Rescaled factor) (parse factor text) (parse Vec2.one text) :=
  rescaled_commandsFrom ⟨Binary64.scales_of_isFinite hx, Binary64.scales_of_isFinite hy⟩
    (Text.contentLines text) fun _ => .none

/-- Twice a coordinate is inherited that was given three lines before, and a move of another figure
    starts where nothing was given at all. -/
theorem parse_rescaled_inherited :
    let text := Line.join ([
      "changeFigure:a.png -id=a -transform=\x7b\"position\":\x7b\"x\":100\x7d\x7d;",
      "setTransform:\x7b\"position\":\x7b\"y\":10\x7d\x7d -target=a;",
      "Alice: hello", "setTransform:\x7b\"blur\":2\x7d -target=a;",
      "setTransform:\x7b\"rotation\":1\x7d -target=b;"].map String.toList)
    let factor : Vec2 Float := ⟨0.5, -3⟩
    let positions (commands : List (Command Float)) : List (Option (Float × Float)) :=
      commands.map fun c => c.effect?.map fun e => (e.2.position.x, e.2.position.y)
    (Scalar.isFinite factor.x = true ∧ Scalar.isFinite factor.y = true) ∧
    positions (parse factor text) =
      [some (50, 0), some (50, -30), none, some (50, -30), some (0, 0)] ∧
    positions (parse Vec2.one text) =
      [some (100, 0), some (100, 10), none, some (100, 10), some (0, 0)] ∧
    List.Forall₂ (Command.Rescaled factor) (parse factor text) (parse Vec2.one text) := by
  -- the texts by their letters: what is decided below is decided on lists
  repeat rewrite [List.map_cons, String.toList_ofList]
  exact ⟨⟨by decide, by decide⟩, by decide, by decide,
    parse_rescaled ⟨0.5, -3⟩ (by decide) (by decide) _⟩

end Script
end SceneScript
