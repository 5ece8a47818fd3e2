import SceneScript.Proofs.Overflow
import SceneScript.Proofs.Script.WrittenCommand
import SceneScript.Service.Http

/-!
# When an export fails

Writing a script can fail in four ways, and three of them are mistakes of the caller with a message:
a size that is not positive, a value that has no text, a duration of too many digits. The fourth is
a number that leaves its range on the way into the script. It has no message, and the route that
exports answers it as a failure of the server.

**That happens exactly if a command is reached with a double that is too large**
(`writeLines_outOfRange_iff`), where all commands before it are written. Everything else is a script
or the caller's mistake (`export_fails_iff`).
-/

set_option autoImplicit false

namespace SceneScript

open Outcome (bind_eq_ok bind_eq_error mapError_eq_error mapM_eq_error exists_error_iff)
open Rounding (Overflows exists_savedPayload_iff)

namespace Script

/-! ## Lines -/

section Lines

variable {ratio : Vec2 Float} {duration : Int} {default : Option String}

theorem payloadText_outOfRange_iff {t : Transform Float} :
    payloadText ratio t = .error .outOfRange ↔ Overflows ratio t := by
  rw [← not_iff_not, ← exists_savedPayload_iff, ← not_iff_not, ← exists_error_iff, not_not]
  unfold payloadText
  rw [bind_eq_error, mapError_eq_error]
  constructor
  · rintro (⟨e, he, -⟩ | ⟨payload, -, h⟩)
    · exact ⟨e, he⟩
    · obtain ⟨e, -, he⟩ := mapError_eq_error.mp h
      cases he
  · exact fun ⟨e, he⟩ => .inl ⟨e, he, rfl⟩

/-- Nothing that is done with the text of a payload leaves the range of the numbers. -/
theorem bind_payloadText_outOfRange_iff {t : Transform Float}
    {f : List Char → Except WriteError (List Char)} (hf : ∀ json, f json ≠ .error .outOfRange) :
    (payloadText ratio t >>= f) = .error .outOfRange ↔ Overflows ratio t := by
  rw [bind_eq_error, payloadText_outOfRange_iff]
  exact or_iff_left fun ⟨json, _, h⟩ => hf json h

/-- **One line**: the numbers of a command leave their range in its payload only. -/
theorem writeLine_outOfRange_iff (c : Command Float) :
    writeLine ratio duration default c = .error .outOfRange ↔
      ∃ e ∈ c.effect?, Overflows ratio e.2 := by
  have heffect {c : Command Float} {e : String × Transform Float} (h : c.effect? = some e) :
      (∃ e' ∈ c.effect?, Overflows ratio e'.2) ↔ Overflows ratio e.2 := by simp [h]
  cases c with
  | rawText text => exact iff_of_false (fun h => nomatch h) fun ⟨_, he, _⟩ => nomatch he
  | changeFigure c =>
    rw [heffect rfl]
    exact bind_payloadText_outOfRange_iff fun json h => nomatch h
  | changeBackground c =>
    rw [heffect rfl]
    exact bind_payloadText_outOfRange_iff fun json h => nomatch h
  | setTransform c =>
    rw [heffect rfl]
    refine bind_payloadText_outOfRange_iff fun json h => ?_
    obtain h | ⟨digits, -, h⟩ := bind_eq_error.mp h
    · obtain ⟨e, -, he⟩ := mapError_eq_error.mp h
      cases he
    · cases h

/-- The first command that cannot be written has a double in it that is too large. -/
def LeaveRange (ratio : Vec2 Float) (duration : Int) (default : Option String)
    (commands : List (Command Float)) : Prop :=
  ∃ before c behind, commands = before ++ c :: behind ∧
    (∀ b ∈ before, ∃ line, writeLine ratio duration default b = .ok line) ∧
    ∃ e ∈ c.effect?, Overflows ratio e.2

/-- **All lines.** -/
theorem writeLines_outOfRange_iff (commands : List (Command Float)) :
    writeLines ratio duration default commands = .error .outOfRange ↔
      LeaveRange ratio duration default commands := by
  unfold writeLines LeaveRange
  simp only [mapM_eq_error, writeLine_outOfRange_iff]

end Lines

/-! ## Scripts -/

/-- The size is not found to be unusable. -/
def Usable (size : Vec2 Float) : Prop := ¬ size.x ≤ Scalar.ofNat 0 ∧ ¬ size.y ≤ Scalar.ofNat 0

/-- Numbers leave their range while commands are written. -/
def Overflow (commands : List (Command Float)) (duration : Int) (canvas base : Vec2 Float)
    (default : Option String) : Prop :=
  Usable canvas ∧ Usable base ∧
    LeaveRange ⟨base.x / canvas.x, base.y / canvas.y⟩ duration default commands

theorem message?_eq_none_iff (e : WriteError) : e.message? = none ↔ e = .outOfRange := by
  cases e with
  | outOfRange => exact iff_of_true rfl rfl
  | canvasNotPositive => exact iff_of_false (fun h => nomatch h) fun h => nomatch h
  | baseNotPositive => exact iff_of_false (fun h => nomatch h) fun h => nomatch h
  | unwritable e => exact iff_of_false (fun h => nomatch h) fun h => nomatch h

/-- The ratio of sizes that are given as doubles: there is one if they are usable, and it is in
    range in any case. -/
theorem writeRatio_cases (canvas base : Vec2 Float) :
    (¬ (Usable canvas ∧ Usable base) ∧
      ∃ e, writeRatio canvas ⟨.real base.x, .real base.y⟩ = .error e ∧ e ≠ .outOfRange) ∨
    ((Usable canvas ∧ Usable base) ∧ writeRatio canvas ⟨.real base.x, .real base.y⟩ =
      .ok ⟨base.x / canvas.x, base.y / canvas.y⟩) := by
  have hbase : (Extent.real base.x).isUnusable = true ∨ (Extent.real base.y).isUnusable = true ↔
      ¬ Usable base := by
    unfold Usable Extent.isUnusable
    rw [decide_eq_true_iff, decide_eq_true_iff, ← not_or, not_not]
  have hcanvas : canvas.x ≤ Scalar.ofNat 0 ∨ canvas.y ≤ Scalar.ofNat 0 ↔ ¬ Usable canvas := by
    unfold Usable
    rw [← not_or, not_not]
  unfold writeRatio
  dsimp only
  by_cases h1 : Usable canvas
  · rw [if_neg fun h => hcanvas.mp h h1]
    by_cases h2 : Usable base
    · rw [if_neg fun h => hbase.mp h h2]
      exact .inr ⟨⟨h1, h2⟩, rfl⟩
    · rw [if_pos (hbase.mpr h2)]
      exact .inl ⟨fun h => h2 h.2, _, rfl, fun h => nomatch h⟩
  · rw [if_pos (hcanvas.mpr h1)]
    exact .inl ⟨fun h => h1 h.1, _, rfl, fun h => nomatch h⟩

/-- **A script**: sizes that are given as doubles leave the range of the numbers nowhere else. -/
theorem write_outOfRange_iff (commands : List (Command Float)) (duration : Int)
    (canvas base : Vec2 Float) (default : Option String) :
    write commands duration canvas ⟨.real base.x, .real base.y⟩ default = .error .outOfRange ↔
      Overflow commands duration canvas base default := by
  unfold write Overflow
  rw [← and_assoc, bind_eq_error]
  obtain ⟨hsizes, e, he, hne⟩ | ⟨hsizes, hratio⟩ := writeRatio_cases canvas base
  · rw [he]
    refine iff_of_false ?_ fun h => hsizes h.1
    rintro (h | ⟨ratio, h, -⟩)
    · exact hne (Except.error.inj h)
    · cases h
  · rw [hratio, and_iff_right hsizes, ← writeLines_outOfRange_iff]
    constructor
    · rintro (h | ⟨ratio, h, hlines⟩)
      · cases h
      · cases h
        obtain h | ⟨lines, -, h⟩ := bind_eq_error.mp hlines
        · exact h
        · cases h
    · exact fun h => .inr ⟨_, rfl, bind_eq_error.mpr (.inl h)⟩

end Script

/-! ## The route -/

namespace Http

/-- The response to an export. -/
def exportResponse (result : Except (Failure Float) String) : Response Float :=
  match result with
  | .error e => failed "script" "export" e
  | .ok script => answer (.obj [("script", .str script),
      ("lines", Wire.texts (writtenLines script))])

theorem actWith_export (s : Service) (query : Fields String) {body : Option (Json Float)}
    {commands : List (Command Float)} {canvas : Vec2 Float}
    {options : Service.ExportOptions Float}
    (h : checkBody exportFields body = .valid (commands, canvas, options)) :
    actWith s .export query body = pure (exportResponse (s.write commands canvas options)) := by
  unfold actWith exportResponse
  dsimp only
  rw [h]
  unfold whenValid
  dsimp only
  cases s.write commands canvas options with
  | error e => rfl
  | ok script => rfl

theorem status_exportResponse (result : Except WriteError (List Char)) :
    (exportResponse ((result.map String.ofList).mapError .write)).status =
      match result with
      | .ok _ => 200
      | .error .outOfRange => 500
      | .error _ => 400 := by
  cases result with
  | ok text => rfl
  | error e => cases e <;> rfl

/-- **When an export fails without a mistake of the caller**: exactly if numbers leave their range
    while the commands are written. The route answers with the script, with an envelope, or, in
    just that case, with a failure of the server. -/
theorem export_fails_iff (commands : List (Command Float)) (duration : Int)
    (canvas base : Vec2 Float) (default : Option String) :
    ((∃ e, Script.write commands duration canvas ⟨.real base.x, .real base.y⟩ default = .error e ∧
        e.message? = none) ↔
      Script.Overflow commands duration canvas base default) ∧
    ∀ (s : Service) (query : Fields String) (body : Option (Json Float)),
      checkBody exportFields body =
        .valid (commands, canvas, ⟨some duration, some base.x, some base.y, default⟩) →
      ∃ r, actWith s .export query body = pure r ∧
        (r.status = 200 ∨ r.status = 400 ∨ r.status = 500) ∧
        (r.status = 500 ↔ Script.Overflow commands duration canvas base
          (some (default.getD s.settings.defaultEasing))) := by
  constructor
  · simp only [Script.message?_eq_none_iff, exists_eq_right]
    exact Script.write_outOfRange_iff commands duration canvas base default
  · intro s query body hbody
    refine ⟨_, actWith_export s query hbody, ?_⟩
    rw [← Script.write_outOfRange_iff]
    unfold Service.write
    dsimp only [Option.map_some, Option.getD_some]
    rw [status_exportResponse]
    cases Script.write commands duration canvas ⟨.real base.x, .real base.y⟩
        (some (default.getD s.settings.defaultEasing)) with
    | ok text => simp
    | error e => cases e <;> simp

/-- A figure at ten to the power of 307: a request that is valid, and a failure of the server. -/
theorem export_fails_large :
    let moved : Transform Float := ⟨⟨1e307, 0⟩, ⟨1, 1⟩, 0, []⟩
    let commands : List (Command Float) := [.setTransform ⟨"f1", 500, .unspecified, moved⟩]
    let body : Json Float := .obj [
      ("commands", .arr [.obj [("kind", .str "setTransform"), ("target", .str "f1"),
        ("transform", .obj [("position", .obj [("x", .real 1e307)])])]]),
      ("canvas_width", .int 1280), ("canvas_height", .int 720), ("export_duration", .int 500),
      ("base_width", .int 1280), ("base_height", .int 720)]
    let s := Service.ofSettings (Settings.ofEnvironment []).1
    checkBody exportFields (some body) =
      .valid (commands, ⟨1280, 720⟩, ⟨some 500, some 1280, some 720, none⟩) ∧
    Script.Overflow commands 500 ⟨1280, 720⟩ ⟨1280, 720⟩ (some s.settings.defaultEasing) ∧
    ∃ r, actWith s .export [] (some body) = pure r ∧ r.status = 500 := by
  intro moved commands body s
  have hbody : checkBody exportFields (some body) =
      .valid (commands, ⟨1280, 720⟩, ⟨some 500, some 1280, some 720, none⟩) := rfl
  have hoverflow : Script.Overflow commands 500 ⟨1280, 720⟩ ⟨1280, 720⟩
      (some s.settings.defaultEasing) :=
    (export_fails_iff _ _ _ _ _).1.mp ⟨.outOfRange, by decide +kernel, rfl⟩
  obtain ⟨r, hr, -, hstatus⟩ :=
    (export_fails_iff commands 500 ⟨1280, 720⟩ ⟨1280, 720⟩ none).2 s [] (some body) hbody
  exact ⟨hbody, hoverflow, r, hr, hstatus.mpr hoverflow⟩

end Http
end SceneScript
