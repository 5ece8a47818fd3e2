import SceneScript.Proofs.SavedPayload
import SceneScript.Proofs.Script.WrittenCommand
import SceneScript.Proofs.Settling

/-!
# Commands that are given back

Commands that a caller made can be written to a script and read from it. What is given back is not
quite what was written: a line says what a target *is*, and reading it on a stage says what the
target *becomes*. So the commands that are read are the **settled** ones, each move with the one
duration that everything was written with and with the easing that was written (`Restated`), and
reconciling the commands gives the same ones (`parse_write`).

The two sides are kept in step by `Alike`: the transforms on the two stages have the same numbers,
and filters that agree under the same names in the same order.
-/

set_option autoImplicit false

namespace SceneScript

open Json (Agree)
open Outcome (bind_eq_ok mapM_eq_ok)
open Text (Unbroken)

variable {α : Type}

/-! ## Transforms that say the same -/

namespace Transform

/-- The first transform says what the second one does: the same numbers, and filters that agree. -/
structure Alike [Scalar α] (t' t : Transform α) : Prop where
  numbers : Numbers.Rel Scalar.Same t'.numbers t.numbers
  filters : Fields.Rel Agree t'.filters t.filters

theorem alike_apply [Scalar α] [Scalar.Lawful α] {t prior prior' : Transform α} {m : Numbers α}
    {fs : Fields (Json α)} (hm : Numbers.Rel Scalar.Same m t.numbers)
    (hf : Fields.Rel Agree fs t.filters)
    (hp : Fields.Rel Agree prior'.filters prior.filters) :
    ((m.update fs).apply Vec2.one prior').Alike (t.onTop prior) := by
  rw [Update.apply_numbers]
  exact ⟨hm, hp.update hf⟩

theorem alike_apply_initial [Scalar α] [Scalar.Lawful α] {t : Transform α} {m : Numbers α}
    {fs : Fields (Json α)} (hm : Numbers.Rel Scalar.Same m t.numbers)
    (hf : Fields.Rel Agree fs t.filters) (hn : t.filters.keys.Nodup) :
    ((m.update fs).apply Vec2.one initial).Alike t := by
  have hfs : Fields.update [] fs = fs := Fields.ofPairs_of_nodup (hf.keys_eq ▸ hn)
  rw [Update.apply_numbers]
  refine ⟨hm, ?_⟩
  show Fields.Rel Agree (Fields.update [] fs) t.filters
  rw [hfs]
  exact hf

end Transform

namespace Script

/-! ## Commands that say the same -/

section Restated

variable [Scalar α]

/-- The second command is the first one as it is read from its line: with the duration and the
    easing that were written, and a transform that says the same. -/
inductive Restated (duration : Nat) (default : Option String) : Command α → Command α → Prop
  | setTransform {c : SetTransform α} {t' : Transform α} (h : t'.Alike c.transform) :
      Restated duration default (.setTransform c)
        (.setTransform ⟨c.target, duration, statedEasing (easeName? c.easing default), t'⟩)
  | changeFigure {c : ChangeFigure α} {t' : Transform α} (h : t'.Alike c.transform) :
      Restated duration default (.changeFigure c) (.changeFigure { c with transform := t' })
  | changeBackground {c : ChangeBackground α} {t' : Transform α} (h : t'.Alike c.transform) :
      Restated duration default (.changeBackground c) (.changeBackground { c with transform := t' })
  | rawText (text : String) : Restated duration default (.rawText text) (.rawText text)

/-- Two stages say the same of every target. -/
def StagesAlike (stage' stage : Stage α) : Prop :=
  ∀ target, Option.Rel Transform.Alike (stage'.get? target) (stage.get? target)

theorem StagesAlike.after {stage' stage : Stage α} (h : StagesAlike stage' stage)
    {duration : Nat} {default : Option String} {c c' : Command α}
    (hc : Restated duration default c c') : StagesAlike (stage'.after c') (stage.after c) := by
  cases hc with
  | rawText text => exact h
  | setTransform ha => exact Stage.Related.set h _ ha
  | changeFigure ha => exact Stage.Related.set h _ ha
  | changeBackground ha => exact Stage.Related.set h _ ha

theorem StagesAlike.filters {stage' stage : Stage α} (h : StagesAlike stage' stage)
    (target : String) : Fields.Rel Agree ((stage'.get? target).getD Transform.initial).filters
      ((stage.get? target).getD Transform.initial).filters := by
  have hinitial : Fields.Rel Agree (Transform.initial : Transform α).filters
      (Transform.initial : Transform α).filters := .nil
  exact Stage.Related.getD (P := fun t' t => Fields.Rel Agree t'.filters t.filters) h
    (fun _ _ ha => ha.filters) hinitial target

end Restated

/-! ## Exportable commands -/

/-- The command can be given back: its texts can stand in a line, its transform is saved as it is,
    no parameter is an anchor, and raw text is read as raw text. -/
def Exportable [WrittenScalar α] (default : Option String) : Command α → Prop
  | .setTransform c => Writable default (.setTransform c) ∧ c.transform.Exportable
  | .changeFigure c => Writable default (.changeFigure c) ∧ c.transform.Exportable ∧
      ∀ p ∈ c.params, anchorOf? p = none
  | .changeBackground c => Writable default (.changeBackground c) ∧ c.transform.Exportable
  | .rawText text => text ≠ "" ∧ Text.trim text.toList = text.toList ∧ Unbroken text.toList ∧
      (parse Vec2.one text.toList : List (Command α)) = [.rawText text]

section RoundTrip

variable [WrittenScalar α] {duration : Nat} {default : Option String}

/-- Raw text that is read as raw text. -/
theorem found_of_exportable {text : String} (h : Exportable (α := α) default (.rawText text)) :
    Text.contentLines text.toList = [text.toList] ∧ action? (α := α) text.toList = none := by
  obtain ⟨hne, ht, hu, hp⟩ := h
  have hfound : Text.contentLines text.toList = [text.toList] :=
    Text.contentLines_of_unbroken hu ht fun h0 => hne (String.toList_eq_nil_iff.mp h0)
  refine ⟨hfound, ?_⟩
  rw [parse_eq_commandsFrom, hfound, commandsFrom_cons] at hp
  have hread : (readLine Vec2.one [] text.toList).1 = (.rawText text : Command α) :=
    (List.cons.inj hp).1
  cases ha : action? (α := α) text.toList with
  | none => rfl
  | some a =>
    rw [readLine_of_action ha] at hread
    cases a <;> cases hread

variable [Scalar.Readable α]

/-- A command that acts on the stage is written to a line that says the same. -/
theorem exists_action {c : Command α} {target : String} {t : Transform α}
    (hw : Writable default c) (he : c.effect? = some (target, t)) (hd : TakesDuration duration c)
    (ht : t.Exportable) :
    ∃ line, writeLine Vec2.one duration default c = .ok line ∧ Text.contentLines line = [line] ∧
      ∃ (m : Numbers α) (fs : Fields (Json α)),
        action? line = rewritten duration default (m.update fs) c ∧
          Numbers.Rel Scalar.Same m t.numbers ∧ Fields.Rel Agree fs t.filters := by
  obtain ⟨payload, json, m, fs, hsaved, hj, hv, hu, hup, hm, hf⟩ := ht.exists_saved
  refine ⟨lineText duration default json c, ?_, contentLines_lineText hw hj hu, m, fs,
    action?_lineText hw hd hj hv hup, hm, hf⟩
  exact (writeLine_eq_ok hw he).mpr ⟨json, payloadText_eq_ok.mpr ⟨payload, hsaved, hj⟩, hd, rfl⟩

/-- **One command**: it is written to a line, the line is found as itself, and what is read there
    restates the command. -/
theorem exists_line {c : Command α} (hc : Exportable default c)
    (hd : (Nat.toDigits 10 duration).length ≤ Text.maxDigits) :
    ∃ line, writeLine Vec2.one duration default c = .ok line ∧ Text.contentLines line = [line] ∧
      ∀ stage' stage : Stage α, StagesAlike stage' stage →
        Restated duration default (c.settle stage) (readLine Vec2.one stage' line).1 := by
  cases c with
  | rawText text =>
    obtain ⟨hfound, hraw⟩ := found_of_exportable hc
    refine ⟨_, rfl, hfound, fun stage' stage _ => ?_⟩
    rw [readLine_of_no_action hraw, String.ofList_toList]
    exact .rawText text
  | setTransform c =>
    obtain ⟨hw, ht⟩ := hc
    obtain ⟨line, hline, hfound, m, fs, haction, hm, hf⟩ := exists_action hw rfl hd ht
    refine ⟨line, hline, hfound, fun stage' stage h => ?_⟩
    rw [readLine_of_action haction]
    exact .setTransform (Transform.alike_apply hm hf (h.filters c.target))
  | changeFigure c =>
    obtain ⟨hw, ht, hp⟩ := hc
    obtain ⟨line, hline, hfound, m, fs, haction, hm, hf⟩ := exists_action hw rfl trivial ht
    refine ⟨line, hline, hfound, fun stage' stage h => ?_⟩
    -- no parameter is an anchor, so the last anchor in the line is the one that was written
    have hcommand : rewritten duration default (m.update fs) (.changeFigure c) =
        some (.changeFigure c.target c.path (m.update fs) c.preset c.params) := by
      unfold rewritten
      dsimp only
      rw [presetOf_append hp, withoutAnchors_eq hp]
    rw [readLine_of_action (haction.trans hcommand)]
    exact .changeFigure (Transform.alike_apply_initial hm hf ht.nodup)
  | changeBackground c =>
    obtain ⟨hw, ht⟩ := hc
    obtain ⟨line, hline, hfound, m, fs, haction, hm, hf⟩ := exists_action hw rfl trivial ht
    refine ⟨line, hline, hfound, fun stage' stage h => ?_⟩
    rw [readLine_of_action haction]
    exact .changeBackground (Transform.alike_apply_initial hm hf ht.nodup)

/-- **All commands**: by induction, with the step above. -/
theorem exists_lines {commands : List (Command α)} (hc : ∀ c ∈ commands, Exportable default c)
    (hd : (Nat.toDigits 10 duration).length ≤ Text.maxDigits) :
    ∃ lines, List.Forall₂ (fun c line => writeLine Vec2.one duration default c = .ok line) commands
        lines ∧ lines.flatMap Text.contentLines = lines ∧
      ∀ stage' stage : Stage α, StagesAlike stage' stage →
        List.Forall₂ (Restated duration default) (settleAll stage commands)
          (commandsFrom Vec2.one stage' lines) := by
  induction commands with
  | nil => exact ⟨[], .nil, rfl, fun _ _ _ => .nil⟩
  | cons c commands ih =>
    obtain ⟨hhead, htail⟩ := List.forall_mem_cons.mp hc
    obtain ⟨line, hline, hfound, hread⟩ := exists_line hhead hd
    obtain ⟨lines, hlines, hfounds, hreads⟩ := ih htail
    refine ⟨line :: lines, .cons hline hlines, ?_, fun stage' stage h => ?_⟩
    · rw [List.flatMap_cons, hfound, hfounds]
      rfl
    · rw [commandsFrom_cons]
      exact .cons (hread stage' stage h) (hreads _ _ (h.after (hread stage' stage h)))

end RoundTrip

/-! ## Doubles -/

theorem Exportable.resolved [WrittenScalar α] {default : Option String} {c : Command α}
    (h : Exportable default c) (target : String) (t : Transform α)
    (he : c.effect? = some (target, t)) : t.Resolved := by
  have hresolved : ∀ t : Transform α, t.Exportable → t.Resolved := fun t ht =>
    ⟨ht.finite.x, ht.finite.y, ht.finite.scaleX, ht.finite.scaleY, ht.finite.rotation, ht.nodup,
      ht.free⟩
  cases c with
  | rawText text => cases he
  | setTransform c =>
    cases he
    exact hresolved _ h.2
  | changeFigure c =>
    cases he
    exact hresolved _ h.2.1
  | changeBackground c =>
    cases he
    exact hresolved _ h.2

/-- What holds of settled commands holds of reconciled ones, unless they move the background. -/
theorem forall₂_of_settledTo {R : Command α → Command α → Prop}
    {commands settled read : List (Command α)}
    (h : List.Forall₂ Reconciliation.SettledTo commands settled)
    (hr : List.Forall₂ R settled read) :
    List.Forall₂ (fun c c' => c.outline ≠ .setTransform backgroundTarget → R c c') commands
      read := by
  induction h generalizing read with
  | nil =>
    cases hr
    exact .nil
  | cons hc _ ih =>
    cases hr with
    | cons hr hrest => exact .cons (fun hne => hc hne ▸ hr) (ih hrest)

theorem isUnusable_of_pos {size : Extent Float} {x : Float} (hs : size.value? = some x)
    (hx : 0 < x) : size.isUnusable = false := by
  cases size with
  | whole n => exact decide_eq_false (not_le.mpr (Binary64.pos_of_ofInt? hs hx))
  | real y =>
    obtain rfl := Option.some.inj hs
    exact decide_eq_false (Binary64.not_le_zero_of_pos hx)

/-- Nothing is converted where the script has the resolution of the canvas. -/
theorem writeRatio_self {w h : Float} {base : Vec2 (Extent Float)}
    (hx : base.x.value? = some w) (hy : base.y.value? = some h)
    (hw : 0 < w ∧ Scalar.isFinite w = true) (hh : 0 < h ∧ Scalar.isFinite h = true) :
    writeRatio ⟨w, h⟩ base = .ok Vec2.one := by
  have hw0 := Binary64.not_le_zero_of_pos hw.1
  have hh0 := Binary64.not_le_zero_of_pos hh.1
  have hdx := Binary64.div_self hw.2 (Binary64.magnitude_ne_zero_of_pos hw.1)
  have hdy := Binary64.div_self hh.2 (Binary64.magnitude_ne_zero_of_pos hh.1)
  unfold writeRatio
  rw [if_neg (not_or.mpr ⟨hw0, hh0⟩), isUnusable_of_pos hx hw.1, isUnusable_of_pos hy hh.1, hx, hy]
  show Except.ok (⟨w / w, h / h⟩ : Vec2 Float) = _
  rw [hdx, hdy]
  rfl

/-- **Commands that are written are given back**, settled, with every move in the one duration, if
    the script has the resolution of the canvas: writing succeeds, every line that is read restates
    its command, and so it does the command that reconciling makes of it, which leaves the moves of
    the background as they are. -/
theorem parse_write {commands : List (Command Float)} {default : Option String} {duration : Nat}
    {w h : Float} {base : Vec2 (Extent Float)} (hc : ∀ c ∈ commands, Exportable default c)
    (hd : (Nat.toDigits 10 duration).length ≤ Text.maxDigits)
    (hx : base.x.value? = some w) (hy : base.y.value? = some h)
    (hw : 0 < w ∧ Scalar.isFinite w = true) (hh : 0 < h ∧ Scalar.isFinite h = true) :
    ∃ saved r, write commands duration ⟨w, h⟩ base default = .ok saved ∧
      Reconciliation.reconcile commands = .ok r ∧
      List.Forall₂ (Restated duration default) (settleAll [] commands) (parse Vec2.one saved) ∧
      List.Forall₂
        (fun c c' => c.outline ≠ .setTransform backgroundTarget → Restated duration default c c')
        r.consolidated (parse Vec2.one saved) := by
  obtain ⟨lines, hlines, hfound, hread⟩ := exists_lines hc hd
  obtain ⟨r, hr, hsettled⟩ := Reconciliation.forall₂_reconcile fun c hm => (hc c hm).resolved
  have hparse : (parse Vec2.one (Line.join lines) : List (Command Float)) =
      commandsFrom Vec2.one [] lines := by
    rw [parse_eq_commandsFrom, Text.contentLines_join, hfound]
  have hgiven := hread [] [] fun target => .none
  rw [← hparse] at hgiven
  refine ⟨Line.join lines, r, ?_, hr, hgiven, forall₂_of_settledTo hsettled hgiven⟩
  exact bind_eq_ok.mpr ⟨_, writeRatio_self hx hy hw hh,
    bind_eq_ok.mpr ⟨lines, mapM_eq_ok.mpr hlines, rfl⟩⟩

/-- A figure with a filter that looks like a mark, a line of dialogue, and a move whose easing is
    left to the caller. -/
theorem parse_write_scene :
    let commands : List (Command Float) :=
      [.changeFigure ⟨"f1", "a.png",
          ⟨⟨-640, 0.5⟩, ⟨1, 1⟩, 0, [("name", .str "x -y"), ("blur", .real 2)]⟩, .left,
          [("next", "")]⟩,
        .rawText "Alice: hello",
        .setTransform ⟨"f1", 300, .useDefault, ⟨⟨12.25, -7⟩, ⟨1, 1⟩, 0, [("sepia", .int 1)]⟩⟩]
    let easing := some "easeOut"
    (∀ c ∈ commands, Exportable easing c) ∧
    ∃ saved r, write commands (800 : Nat) ⟨1280, 720⟩ ⟨.real 1280, .real 720⟩ easing = .ok saved ∧
      Reconciliation.reconcile commands = .ok r ∧
      List.Forall₂ (Restated 800 easing) (settleAll [] commands) (parse Vec2.one saved) ∧
      List.Forall₂
        (fun c c' => c.outline ≠ .setTransform backgroundTarget → Restated 800 easing c c')
        r.consolidated (parse Vec2.one saved) := by
  intro commands easing
  have hflag : FreeParams [("next", "")] := by
    refine ⟨fun p hp => ?_, by decide, by decide⟩
    obtain rfl := List.mem_singleton.mp hp
    exact storable_of_letters (by decide) (by decide)
  have heasing : ∀ name, easeName? .useDefault easing = some name → Text.Clean name.toList := by
    intro name hn
    cases hn
    exact Text.clean_ofList (by decide)
  have hc : ∀ c ∈ commands, Exportable easing c := by
    refine List.forall_mem_cons.mpr ⟨?_, List.forall_mem_cons.mpr ⟨?_,
      List.forall_mem_singleton.mpr ?_⟩⟩
    · exact ⟨⟨Text.clean_ofList (by decide), by decide, Text.clean_ofList (by decide), hflag⟩,
        by decide +kernel, by decide⟩
    · exact ⟨by decide, by decide, by decide, by rfl⟩
    · exact ⟨⟨Text.clean_ofList (by decide), by decide, heasing⟩, by decide +kernel⟩
  exact ⟨hc, parse_write hc (by decide) rfl rfl (by decide) (by decide)⟩

/-- Neither a move on a canvas of infinite width is written, where the ratio is no number, nor a
    move to an infinite position, which is left as it is by rounding. -/
theorem write_infinite :
    let infinity : Float := Binary64.ofNonFinite .infinity
    let moved (x : Float) : Transform Float := { Transform.initial with position := ⟨x, 0⟩ }
    let move (x : Float) : Command Float := .setTransform ⟨"f1", 500, .unspecified, moved x⟩
    (0 < infinity ∧ Exportable none (move 0) ∧
      write [move 0] (500 : Nat) ⟨infinity, 720⟩ ⟨.real infinity, .real 720⟩ none =
        .error (.unwritable .notFinite)) ∧
    Writable none (move infinity) ∧ (moved infinity).isRounded = true ∧
      write [move infinity] (500 : Nat) ⟨1280, 720⟩ ⟨.real 1280, .real 720⟩ none =
        .error (.unwritable .notFinite) := by
  intro infinity moved move
  have hclean : Text.Clean "f1".toList := Text.clean_ofList (by decide)
  have hw : ∀ x, Writable none (move x) := fun x => ⟨hclean, by simp, fun _ h => nomatch h⟩
  exact ⟨⟨by decide, ⟨hw 0, by decide +kernel⟩, by decide +kernel⟩, hw _, by decide +kernel,
    by decide +kernel⟩

end Script
end SceneScript
