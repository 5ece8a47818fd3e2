import SceneScript.Proofs.Rounding
import SceneScript.Proofs.Script.WrittenPicture

/-!
# Commands that were written

A command can be written if its texts can stand in a line (`Writable`). **Writing it and reading the
line gives the action of the command back** (`action?_lineText`), with the update that its saved
payload is, and the line is found in a text as one line exactly when no line break stands in the
payload (`contentLines_lineText`, `one_lt_length_contentLines_lineText`).

Three things are not given back as they were. Every move has the duration and the easing that it is
written with; and a figure's parameter `left`, `center` or `right` without a value is its preset.
-/

set_option autoImplicit false

namespace SceneScript

open Outcome (bind_eq_ok mapError_eq_ok)
open Parameters (marked token)
open Text (Clean Unbroken)

namespace Script

/-! ## What is written -/

theorem clause_eq (name : String) {value : String} (h : value ≠ "") :
    clause name value = marked [token (name, value)] := by
  unfold clause token
  rw [if_neg fun he => h (String.isEmpty_iff.mp he)]
  simp [Parameters.marked_cons]

theorem paramClauses_eq (params : Fields String) :
    paramClauses params = marked (params.map token) := by
  unfold paramClauses marked
  rw [List.flatMap_map]
  refine congrArg (List.flatMap · params) (funext fun p => ?_)
  unfold paramClause clause token
  dsimp only
  split <;> rfl

theorem anchorClause_eq (preset : Anchor) :
    anchorClause preset = marked ((anchorParams preset).map token) := by
  cases preset <;> decide

/-- The name that an easing is written with. -/
def easeName? (easing : Easing) (default : Option String) : Option String :=
  match easing.statedName? with
  | some name => some name
  | none =>
    match easing.kind, default with
    | .useDefault, some name => if name.isEmpty ∨ name = noDefaultEasing then none else some name
    | _, _ => none

theorem ne_empty_of_statedName? {easing : Easing} {name : String}
    (h : easing.statedName? = some name) : name ≠ "" := by
  unfold Easing.statedName? at h
  split at h
  · split at h
    · cases h
    · next hne =>
      cases h
      rwa [String.isEmpty_iff] at hne
  · cases h

theorem ne_empty_of_easeName? {easing : Easing} {default : Option String} {name : String}
    (h : easeName? easing default = some name) : name ≠ "" := by
  unfold easeName? at h
  split at h
  · next hs =>
    cases h
    exact ne_empty_of_statedName? hs
  · split at h
    · split at h
      · cases h
      · next hne =>
        cases h
        rw [not_or, String.isEmpty_iff] at hne
        exact hne.1
    · cases h

theorem easeName?_none (easing : Easing) : easeName? easing none = easing.statedName? := by
  unfold easeName?
  cases easing.statedName? with
  | some name => rfl
  | none => cases easing.kind <;> rfl

theorem easeClause_eq (easing : Easing) (default : Option String) :
    easeClause easing default =
      marked (((easeName? easing default).toList.map fun name => ("ease", name)).map token) := by
  have hnone : easeClause easing default =
      match easeName? easing default with
      | some name => clause "ease" name
      | none => [] := by
    unfold easeClause easeName?
    cases easing.statedName? with
    | some name => rfl
    | none =>
      cases default with
      | none => cases easing.kind <;> rfl
      | some name =>
        cases easing.kind with
        | useDefault =>
          dsimp only
          split <;> rfl
        | unspecified => rfl
        | named => rfl
  rw [hnone]
  cases hn : easeName? easing default with
  | none => rfl
  | some name => exact clause_eq "ease" (ne_empty_of_easeName? hn)

section Writing

variable {α : Type} [WrittenScalar α] {ratio : Vec2 α} {duration : Nat} {default : Option String}

theorem wholeText_nat {text : List Char} :
    Json.wholeText (duration : Int) = .ok text ↔
      (Nat.toDigits 10 duration).length ≤ Text.maxDigits ∧ text = Nat.toDigits 10 duration := by
  unfold Json.wholeText
  rw [Int.natAbs_natCast]
  dsimp only
  rw [if_neg (Int.not_lt.mpr (Int.natCast_nonneg duration))]
  split
  · next h => exact ⟨fun ht => ⟨h, (Except.ok.inj ht).symm⟩, fun ht => congrArg _ ht.2.symm⟩
  · next h => exact ⟨fun ht => (nomatch ht), fun ht => absurd ht.1 h⟩

theorem payloadText_eq_ok {t : Transform α} {json : List Char} :
    payloadText ratio t = .ok json ↔
      ∃ payload, Rounding.savedPayload ratio t = .ok payload ∧
        Json.render (.obj payload) = .ok json := by
  unfold payloadText
  rw [bind_eq_ok]
  simp only [mapError_eq_ok]

theorem ne_nil_of_payloadText {t : Transform α} {json : List Char}
    (h : payloadText ratio t = .ok json) : json ≠ [] := by
  obtain ⟨payload, -, hj⟩ := payloadText_eq_ok.mp h
  exact Parameters.ne_nil_of_render_obj hj

/-- The line around a payload, in another form. -/
theorem bind_payloadText_eq_ok {t : Transform α} {text : List Char} {f g : List Char → List Char}
    (hfg : ∀ json ≠ [], f json = g json) :
    (payloadText ratio t >>= fun json => .ok (f json)) = .ok text ↔
      ∃ json, payloadText ratio t = .ok json ∧ text = g json := by
  rw [bind_eq_ok]
  refine exists_congr fun json => and_congr_right fun hj => ?_
  rw [Except.ok.injEq, hfg json (ne_nil_of_payloadText hj)]
  exact eq_comm

/-- **What a move is written as.** -/
theorem writeLine_setTransform {c : SetTransform α} (hne : c.target ≠ "") {text : List Char} :
    writeLine ratio duration default (.setTransform c) = .ok text ↔
      ∃ json, payloadText ratio c.transform = .ok json ∧
        (Nat.toDigits 10 duration).length ≤ Text.maxDigits ∧
        text = line .setTransform
          (moveText json c.target duration (easeName? c.easing default)) := by
  have hdigits : String.ofList (Nat.toDigits 10 duration) ≠ "" := fun h =>
    Nat.toDigits_ne_nil (String.ofList_eq_empty_iff.mp h)
  have htext : ∀ json : List Char, opening .setTransform ++ json ++ clause "target" c.target
      ++ clause "duration" (String.ofList (Nat.toDigits 10 duration))
      ++ easeClause c.easing default ++ ' ' :: (Line.flag ++ [Line.terminator]) =
        line .setTransform (moveText json c.target duration (easeName? c.easing default)) := by
    intro json
    have hflag : ' ' :: (Line.flag ++ [Line.terminator]) =
        marked [token ("next", "")] ++ [Line.terminator] := rfl
    rw [clause_eq _ hne, clause_eq _ hdigits, easeClause_eq, hflag]
    unfold line moveText moveParams
    simp only [List.map_append, List.map_cons, List.map_nil, List.append_assoc,
      marked, List.flatMap_append, List.flatMap_cons, List.flatMap_nil, List.append_nil]
  constructor
  · intro h
    obtain ⟨json, hj, h⟩ := bind_eq_ok.mp h
    obtain ⟨digits, hd, h⟩ := bind_eq_ok.mp h
    obtain ⟨hlen, rfl⟩ := wholeText_nat.mp (mapError_eq_ok.mp hd)
    exact ⟨json, hj, hlen, (Except.ok.inj h).symm.trans (htext json)⟩
  · rintro ⟨json, hj, hlen, rfl⟩
    refine bind_eq_ok.mpr ⟨json, hj, bind_eq_ok.mpr ⟨_, ?_, congrArg _ (htext json)⟩⟩
    exact mapError_eq_ok.mpr (wholeText_nat.mpr ⟨hlen, rfl⟩)

/-- **What a figure is written as.** -/
theorem writeLine_changeFigure {c : ChangeFigure α} (hne : c.target ≠ "") {text : List Char} :
    writeLine ratio duration default (.changeFigure c) = .ok text ↔
      ∃ json, payloadText ratio c.transform = .ok json ∧
        text = line .changeFigure
          (pathText c.path (figureParams json c.target c.params c.preset)) := by
  have htext : ∀ json : List Char, json ≠ [] →
      opening .changeFigure ++ c.path.toList ++ clause "id" c.target
        ++ clause Parameters.transformName (String.ofList json) ++ paramClauses c.params
        ++ anchorClause c.preset ++ [Line.terminator] =
      line .changeFigure (pathText c.path (figureParams json c.target c.params c.preset)) := by
    intro json hjson
    rw [clause_eq _ hne, clause_eq _ fun h => hjson (String.ofList_eq_empty_iff.mp h),
      paramClauses_eq, anchorClause_eq]
    unfold line pathText figureParams
    simp only [List.map_append, List.map_cons, List.append_assoc,
      marked, List.flatMap_append, List.flatMap_cons, List.flatMap_nil, List.append_nil]
    rfl
  exact bind_payloadText_eq_ok htext

/-- **What a background is written as.** -/
theorem writeLine_changeBackground {c : ChangeBackground α} {text : List Char} :
    writeLine ratio duration default (.changeBackground c) = .ok text ↔
      ∃ json, payloadText ratio c.transform = .ok json ∧
        text = line .changeBackground (pathText c.path (backgroundParams json c.params)) := by
  have htext : ∀ json : List Char, json ≠ [] →
      opening .changeBackground ++ c.path.toList
        ++ clause Parameters.transformName (String.ofList json) ++ paramClauses c.params
        ++ [Line.terminator] =
      line .changeBackground (pathText c.path (backgroundParams json c.params)) := by
    intro json hjson
    rw [clause_eq _ fun h => hjson (String.ofList_eq_empty_iff.mp h), paramClauses_eq]
    unfold line pathText backgroundParams
    simp only [List.map_cons, List.append_assoc, marked, List.flatMap_cons, List.flatMap_nil,
      List.append_nil]
    rfl
  exact bind_payloadText_eq_ok htext

end Writing

/-! ## Writable commands -/

section Commands

variable {α : Type}

/-- The texts of a command can stand in a line, that of the default easing included where it is
    written. -/
def Writable (default : Option String) : Command α → Prop
  | .setTransform c => Clean c.target.toList ∧ c.target ≠ "" ∧
      ∀ name, easeName? c.easing default = some name → Clean name.toList
  | .changeFigure c => Clean c.target.toList ∧ c.target ≠ "" ∧ Clean c.path.toList ∧
      FreeParams c.params
  | .changeBackground c => Clean c.path.toList ∧ FreeParams c.params
  | .rawText _ => False

/-- The line of a command with its payload. -/
def lineText (duration : Nat) (default : Option String) (json : List Char) : Command α → List Char
  | .setTransform c =>
    line .setTransform (moveText json c.target duration (easeName? c.easing default))
  | .changeFigure c =>
    line .changeFigure (pathText c.path (figureParams json c.target c.params c.preset))
  | .changeBackground c => line .changeBackground (pathText c.path (backgroundParams json c.params))
  | .rawText text => text.toList

/-- The duration can be written, if it has to be. -/
def TakesDuration (duration : Nat) : Command α → Prop
  | .setTransform _ => (Nat.toDigits 10 duration).length ≤ Text.maxDigits
  | _ => True

/-- What the line of a command says. -/
def rewritten (duration : Nat) (default : Option String) (u : Update α) :
    Command α → Option (Action α)
  | .setTransform c =>
    some (.setTransform c.target duration (statedEasing (easeName? c.easing default)) u)
  | .changeFigure c =>
    some (.changeFigure c.target c.path u (presetOf (c.params ++ anchorParams c.preset))
      (withoutAnchors c.params))
  | .changeBackground c => some (.changeBackground c.path u c.params)
  | .rawText _ => none

theorem outline_rewritten {c : Command α} {target : String} {t : Transform α}
    (he : c.effect? = some (target, t)) (duration : Nat) (default : Option String) (u : Update α) :
    (rewritten duration default u c).map Action.outline = some c.outline := by
  cases c with
  | rawText text => cases he
  | setTransform c => rfl
  | changeFigure c => rfl
  | changeBackground c => rfl

variable {default : Option String} {duration : Nat} {json : List Char} {c : Command α}

theorem namesEasing_of_writable {m : SetTransform α} (h : Writable default (.setTransform m)) :
    ∀ name, easeName? m.easing default = some name → NamesEasing name :=
  fun name hn => ⟨h.2.2 name hn, ne_empty_of_easeName? hn⟩

variable [WrittenScalar α] {members : Fields (Json α)} {target : String} {t : Transform α}

/-- **What a command is written as.** -/
theorem writeLine_eq_ok {ratio : Vec2 α} {text : List Char} (hw : Writable default c)
    (he : c.effect? = some (target, t)) :
    writeLine ratio duration default c = .ok text ↔
      ∃ json, payloadText ratio t = .ok json ∧ TakesDuration duration c ∧
        text = lineText duration default json c := by
  cases c with
  | rawText text => cases he
  | setTransform c =>
    cases he
    exact writeLine_setTransform hw.2.1
  | changeFigure c =>
    cases he
    rw [writeLine_changeFigure hw.2.1]
    exact exists_congr fun json => and_congr_right fun _ => (and_iff_right trivial).symm
  | changeBackground c =>
    cases he
    rw [writeLine_changeBackground]
    exact exists_congr fun json => and_congr_right fun _ => (and_iff_right trivial).symm

theorem lineText_eq (duration : Nat) (hw : Writable default c)
    (hj : Json.render (.obj members) = .ok json) :
    ∃ keyword s, lineText duration default json c = line keyword s ∧
      (Unbroken s ↔ Unbroken json) := by
  cases c with
  | rawText text => exact hw.elim
  | setTransform c => exact ⟨_, _, rfl, unbroken_moveText hw.1 (namesEasing_of_writable hw)⟩
  | changeFigure c =>
    refine ⟨_, _, rfl, unbroken_pathText hj hw.2.2.1 (pictureParam_figure hw.1 hw.2.2.2) ?_⟩
    exact List.mem_cons_of_mem _ List.mem_cons_self
  | changeBackground c =>
    refine ⟨_, _, rfl, unbroken_pathText hj hw.1 (pictureParam_background hw.2) ?_⟩
    exact List.mem_cons_self

/-- **A line whose payload is unbroken is found as itself.** -/
theorem contentLines_lineText (hw : Writable default c)
    (hj : Json.render (.obj members) = .ok json) (hu : Unbroken json) :
    Text.contentLines (lineText duration default json c) = [lineText duration default json c] := by
  obtain ⟨keyword, s, hs, hiff⟩ := lineText_eq duration hw hj
  rw [hs]
  exact contentLines_line keyword (hiff.mpr hu)

/-- **A line whose payload is broken is found in more than one piece.** -/
theorem one_lt_length_contentLines_lineText (hw : Writable default c)
    (hj : Json.render (.obj members) = .ok json) (hu : ¬ Unbroken json) :
    1 < (Text.contentLines (lineText duration default json c)).length := by
  obtain ⟨keyword, s, hs, hiff⟩ := lineText_eq duration hw hj
  rw [hs]
  exact one_lt_length_contentLines_line keyword fun h => hu (hiff.mp h)

/-- **The line of a command has the action that the command is rewritten to.** -/
theorem action?_lineText [Scalar.Readable α] {u : Update α} (hw : Writable default c)
    (hd : TakesDuration duration c) (hj : Json.render (.obj members) = .ok json)
    (hv : (Json.obj members).InRange) (hu : Update.ofPayload members = .ok u) :
    action? (lineText duration default json c) = rewritten duration default u c := by
  cases c with
  | rawText text => exact hw.elim
  | setTransform c => exact action?_moveText hj hv hu hw.1 hw.2.1 (namesEasing_of_writable hw) hd
  | changeFigure c => exact action?_figureText hj hv hu hw.2.2.1 hw.1 hw.2.1 hw.2.2.2
  | changeBackground c => exact action?_backgroundText hj hv hu hw.1 hw.2

end Commands

end Script
end SceneScript
