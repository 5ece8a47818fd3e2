import SceneScript.Proofs.Json.Flags
import SceneScript.Proofs.Script.Saving
import SceneScript.Proofs.Script.Switched

/-!
# Saved lines with the flag switched

Switching the flag in a saved line is meant to change nothing but the flag. It does not look at what
the line says, though: ` -next` in the text of a filter is a flag to it, and so is the start of a
parameter `next y`. **If no flag stands in the texts of a command, the parameter `next` apart
(`FlagAlone`), its saved line is read as the same command before and after** (`parse_toggleNext`).
-/

set_option autoImplicit false

namespace SceneScript
namespace Script

open Line (Alone Flagless)
open Parameters (token)
open Text (mark Unbroken)

variable {α : Type}

/-! ## Flags in the texts of a command -/

/-- No flag stands in the texts of the command, apart from the parameter that is the flag. -/
def FlagAlone : Command α → Prop
  | .setTransform c => Flagless c.target.toList ∧
      (∀ name ∈ c.easing.statedName?, Flagless name.toList) ∧
      Json.MembersFlagless c.transform.filters
  | .changeFigure c => Flagless c.path.toList ∧ Flagless c.target.toList ∧
      (∀ p ∈ c.params, Alone (token p)) ∧ Json.MembersFlagless c.transform.filters
  | .changeBackground c => Flagless c.path.toList ∧
      (∀ p ∈ c.params, Alone (token p)) ∧ Json.MembersFlagless c.transform.filters
  | .rawText _ => True

instance : DecidablePred (FlagAlone (α := α))
  | .setTransform _ | .changeFigure _ | .changeBackground _ => inferInstanceAs (Decidable (_ ∧ _))
  | .rawText _ => isTrue trivial

theorem FlagAlone.filters {c : Command α} (h : FlagAlone c) {target : String} {t : Transform α}
    (he : c.effect? = some (target, t)) : Json.MembersFlagless t.filters := by
  cases c with
  | setTransform c =>
    cases he
    exact h.2.2
  | changeFigure c =>
    cases he
    exact h.2.2.2
  | changeBackground c =>
    cases he
    exact h.2.2
  | rawText text => cases he

/-! ## Flags in a written line -/

/-- A parameter with a value holds a flag in its name or in its value: an equals sign is no part of
    a flag. -/
theorem flagless_token {name value : String} (hv : value ≠ "") :
    Flagless (mark ++ token (name, value)) ↔
      Flagless (mark ++ name.toList ++ ['=']) ∧ Flagless value.toList := by
  have htoken : mark ++ token (name, value) = (mark ++ name.toList) ++ '=' :: value.toList := by
    unfold token
    rw [if_neg fun he => hv (String.isEmpty_iff.mp he), List.append_assoc]
  rw [htoken, Line.flagless_append_cons (by decide) (by decide)]

/-- A parameter with a fixed name holds a flag in its value only. -/
theorem alone_of_value {name value : String} (hv : value ≠ "")
    (hname : Flagless (mark ++ name.toList ++ ['='])) (h : Flagless value.toList) :
    Alone (token (name, value)) :=
  .inr ((flagless_token hv).mpr ⟨hname, h⟩)

section Tokens

variable {json : List Char} {target : String} {params : Fields String}

theorem alone_moveParams (duration : Nat) {ease : Option String} (hne : target ≠ "")
    (ht : Flagless target.toList)
    (he : ∀ name, ease = some name → name ≠ "" ∧ Flagless name.toList) :
    ∀ p ∈ moveParams target duration ease, Alone (token p) := by
  have hdigits : String.ofList (Nat.toDigits 10 duration) ≠ "" := fun h =>
    Nat.toDigits_ne_nil (String.ofList_eq_empty_iff.mp h)
  intro p hp
  simp only [moveParams, List.mem_append, List.mem_cons, List.not_mem_nil, or_false, List.mem_map,
    Option.mem_toList] at hp
  rcases hp with ((rfl | rfl) | ⟨name, hname, rfl⟩) | rfl
  · exact alone_of_value hne (by decide) ht
  · refine alone_of_value hdigits (by decide) ?_
    rw [String.toList_ofList]
    exact Line.flagless_of_no_blank fun d hd =>
      (Text.visible_of_isDigit (Text.isDigit_toDigits hd)).isBlank
  · obtain ⟨hne', hf⟩ := he name hname
    exact alone_of_value hne' (by decide) hf
  · exact .inl rfl

theorem alone_backgroundParams (hne : json ≠ []) (hjson : Flagless json)
    (hp : ∀ p ∈ params, Alone (token p)) :
    ∀ p ∈ backgroundParams json params, Alone (token p) := by
  refine List.forall_mem_cons.mpr ⟨?_, hp⟩
  refine alone_of_value (fun he => hne (String.ofList_eq_empty_iff.mp he)) (by decide) ?_
  rwa [String.toList_ofList]

theorem alone_figureParams (hne : json ≠ []) (hjson : Flagless json) (hne' : target ≠ "")
    (ht : Flagless target.toList) (hp : ∀ p ∈ params, Alone (token p)) (preset : Anchor) :
    ∀ p ∈ figureParams json target params preset, Alone (token p) := by
  have hanchor : ∀ p ∈ anchorParams preset, Alone (token p) := by cases preset <;> decide
  refine List.forall_mem_cons.mpr ⟨alone_of_value hne' (by decide) ht, ?_⟩
  exact alone_backgroundParams hne hjson (List.forall_mem_append.mpr ⟨hp, hanchor⟩)

end Tokens

section Lines

variable [WrittenScalar α] [Scalar.Readable α]
variable {members : Fields (Json α)} {json : List Char} {c : Command α}

/-- **Switching the flag in the line of a command gives a line that says the same besides.** -/
theorem exists_switched (duration : Nat) (hw : Writable none c)
    (hj : Json.render (.obj members) = .ok json) (hv : (Json.obj members).InRange)
    (hjson : Flagless json) (hflag : FlagAlone c) :
    ∃ keyword s s', lineText duration none json c = line keyword s ∧
      Line.toggleNext (line keyword s) = line keyword s' ∧ (Unbroken s → Unbroken s') ∧
      SameBesides (α := α) nextParam.1 (line keyword s) (line keyword s') := by
  have hne := Parameters.ne_nil_of_render_obj hj
  cases c with
  | rawText text => exact hw.elim
  | setTransform c =>
    obtain ⟨ht, hease, -⟩ := hflag
    have hstorable : ∀ p ∈ moveParams c.target duration (easeName? c.easing none),
        Parameters.Storable p := storable_moveParams duration hw.1 hw.2.2
    have halone : ∀ p ∈ moveParams c.target duration (easeName? c.easing none),
        Alone (token p) := by
      refine alone_moveParams duration hw.2.1 ht fun name hn => ⟨ne_empty_of_easeName? hn, ?_⟩
      exact hease name (easeName?_none c.easing ▸ hn)
    exact ⟨.setTransform, _, _, rfl,
      (toggleNext_line_iff _ (endsFirmly_of_trimmed (trimmed_json hj))
        fun p hp => (hstorable p hp).named.trimmed).mpr ⟨hjson, halone⟩,
      unbroken_switched, sameBesides_setTransform hj hv hstorable⟩
  | changeFigure c =>
    obtain ⟨htarget, hne', hpath, hfree⟩ := hw
    obtain ⟨hp, ht, hparams, -⟩ := hflag
    have hpicture : ∀ p ∈ figureParams json c.target c.params c.preset, PictureParam json p :=
      pictureParam_figure htarget hfree
    exact ⟨.changeFigure, _, _, rfl,
      (toggleNext_line_iff _ (endsFirmly_of_trimmed hpath.trimmed)
        fun p hm => ((hpicture p hm).named hj).trimmed).mpr
          ⟨hp, alone_figureParams hne hjson hne' ht hparams c.preset⟩,
      unbroken_switched, sameBesides_changeFigure hj hv hpath hpicture
        (List.mem_cons_of_mem _ List.mem_cons_self)⟩
  | changeBackground c =>
    obtain ⟨hpath, hfree⟩ := hw
    obtain ⟨hp, hparams, -⟩ := hflag
    have hpicture : ∀ p ∈ backgroundParams json c.params, PictureParam json p :=
      pictureParam_background hfree
    exact ⟨.changeBackground, _, _, rfl,
      (toggleNext_line_iff _ (endsFirmly_of_trimmed hpath.trimmed)
        fun p hm => ((hpicture p hm).named hj).trimmed).mpr
          ⟨hp, alone_backgroundParams hne hjson hparams⟩,
      unbroken_switched, sameBesides_changeBackground hj hv hpath hpicture List.mem_cons_self⟩

/-- **A saved command is read as the same command when the flag is switched in its line**, but for
    the parameter that is the flag, if no other flag stands in its texts. -/
theorem parse_toggleNext {factor canvas : Vec2 α} {base : Vec2 (Extent α)} {duration : Nat}
    {text saved : List Char} {c : Command α} (hc : c ∈ parse factor text)
    (hraw : c.isRawText = false) (h : write [c] duration canvas base none = .ok saved)
    (hu : Unbroken saved) (hflag : FlagAlone c) (factor' : Vec2 α) :
    ∃ c₁ c₂, parse factor' saved = [c₁] ∧ parse factor' (Line.toggleNext saved) = [c₂] ∧
      c₂.eraseParam nextParam.1 = c₁.eraseParam nextParam.1 := by
  obtain ⟨ratio, hline⟩ := exists_writeLine h
  cases kept_parse factor text c hc with
  | rawText found raw => cases hraw
  | @acting c target t effect writable savable =>
    obtain ⟨json, hpayload, hd, rfl⟩ := (writeLine_eq_ok writable effect).mp hline
    obtain ⟨payload, hsaved, hj⟩ := payloadText_eq_ok.mp hpayload
    obtain ⟨hv, ⟨u, hup⟩, hstrings⟩ := savable.exists_update hsaved hj
    have hjson : Flagless json := (Json.flagless_render hj).mpr
      ((hstrings Json.StringFlagless (by decide)).mpr (hflag.filters effect))
    obtain ⟨keyword, s, s', hs, htoggle, hbroken, hsame⟩ :=
      exists_switched duration writable hj hv hjson hflag
    rw [hs] at hu ⊢
    -- the saved line has the action that the command is rewritten to; the switched one follows it
    obtain ⟨a, ha, -⟩ := Option.map_eq_some_iff.mp (outline_rewritten effect duration none u)
    have haction : action? (line keyword s) = some a := by
      rw [← hs, action?_lineText writable hd hj hv hup, ha]
    obtain ⟨a', haction', he⟩ := hsame.exists_action haction
    have hunbroken := unbroken_of_line hu
    refine ⟨_, a'.command factor' [], parse_line hunbroken haction factor', ?_, ?_⟩
    · rw [htoggle]
      exact parse_line (hbroken hunbroken) haction' factor'
    · rw [← Action.command_eraseParam, ← Action.command_eraseParam, he]

end Lines

/-- What only looks like the flag is none: `a-next` in a filter, and the parameter `nextone`. The
    flag is put behind them, and nothing else changes. -/
theorem parse_toggleNext_lookalikes :
    let text :=
      "changeFigure:a.png -id=f1 -transform=\x7b\"name\":\"a-next\"\x7d -nextone;".toList
    let saved := "changeFigure:a.png -id=f1 -transform=\x7b\"position\":\x7b\"x\":0,".toList ++
      "\"y\":0\x7d,\"scale\":\x7b\"x\":1,\"y\":1\x7d,\"rotation\":0,".toList ++
      "\"name\":\"a-next\"\x7d -nextone".toList
    let one : Vec2 Float := ⟨1, 1⟩
    ∃ c c₁ c₂, parse one text = [c] ∧ FlagAlone c ∧
      write [c] (500 : Nat) ⟨1280, 720⟩ ⟨.real 1280, .real 720⟩ none = .ok (saved ++ [';']) ∧
      parse one (saved ++ [';']) = [c₁] ∧
      Line.toggleNext (saved ++ [';']) = saved ++ " -next;".toList ∧
      parse one (Line.toggleNext (saved ++ [';'])) = [c₂] ∧
      c₂.eraseParam "next" = c₁.eraseParam "next" := by
  -- the texts by their letters: what is decided below is decided on lists
  repeat rewrite [String.toList_ofList]
  intro text saved one
  obtain ⟨c, hc⟩ : ∃ c, parse one text = [c] := List.length_eq_one_iff.mp (by decide)
  have hkind : ∀ c ∈ parse one text, c.isRawText = false := by decide
  have hflag : ∀ c ∈ parse one text, FlagAlone c := by decide
  have hwrite : write (parse one text) (500 : Nat) ⟨1280, 720⟩ ⟨.real 1280, .real 720⟩ none =
      .ok (saved ++ [';']) := by decide +kernel
  have hm : c ∈ parse one text := hc ▸ List.mem_singleton_self c
  rw [hc] at hwrite
  obtain ⟨c₁, c₂, h₁, h₂, he⟩ :=
    parse_toggleNext hm (hkind c hm) hwrite (by decide +kernel) (hflag c hm) one
  exact ⟨c, c₁, c₂, hc, hflag c hm, hwrite, h₁, by decide, h₂, he⟩

/-- The filters of commands as text. -/
def filterTexts (commands : List (Command Float)) : List (Option (List Char)) :=
  (commands.filterMap Command.effect?).map fun e => (Json.render (.obj e.2.filters)).toOption

-- A filter with the flag in its text: switched off, it is taken out of both.
example :
    let saved := "setTransform:\x7b\"name\":\"a -next b\"\x7d -target=f1 -next;".toList
    Line.toggleNext saved = "setTransform:\x7b\"name\":\"a b\"\x7d -target=f1;".toList ∧
    filterTexts (parse ⟨1, 1⟩ saved) = [some "\x7b\"name\":\"a -next b\"\x7d".toList] ∧
    filterTexts (parse ⟨1, 1⟩ (Line.toggleNext saved)) =
      [some "\x7b\"name\":\"a b\"\x7d".toList] := by
  repeat rewrite [String.toList_ofList]
  decide

end Script
end SceneScript
