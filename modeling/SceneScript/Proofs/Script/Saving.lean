import SceneScript.Proofs.SavedPayload
import SceneScript.Proofs.Script.Rewritable
import SceneScript.Proofs.Script.WrittenCommand

/-!
# Saving a script and reading it again

Saving writes one line for each command, and reading makes one command of each line. **A saved
script is the same kind of script, command by command** (`outline_parse_write_iff`): as many
commands, of the same kinds, on the same targets, with the same raw text.

There is one exception, and the theorem says exactly which. JSON has an escape for every character,
so a filter can have a name or a text with a character in it that breaks lines. What is saved has
such a character as itself if it is one of `U+0085`, `U+2028` and `U+2029`, and the line is read as
two. Every command that a script can be read into is otherwise written to a line that says the same
(`Kept`), by induction over the lines (`kept_commandsFrom`).
-/

set_option autoImplicit false

namespace SceneScript

open Outcome (bind_eq_ok mapError_eq_ok mapM_eq_ok)
open Text (Clean)

variable {α : Type}

/-! ## Filters that were read -/

namespace Transform

theorem savable_initial [WrittenScalar α] : (initial : Transform α).Savable where
  nodup := List.nodup_nil
  free _ h := nomatch h
  inRange := trivial

theorem filters_of_ofPayload [Scalar α] {payload : Fields (Json α)} {u : Update α}
    (h : Update.ofPayload payload = .ok u) :
    u.filters = payload.filter fun f => !structuralNames.contains f.1 := by
  unfold Update.ofPayload at h
  obtain ⟨position, -, h⟩ := bind_eq_ok.mp h
  obtain ⟨scale, -, h⟩ := bind_eq_ok.mp h
  obtain ⟨x, -, h⟩ := bind_eq_ok.mp h
  obtain ⟨y, -, h⟩ := bind_eq_ok.mp h
  obtain ⟨scaleX, -, h⟩ := bind_eq_ok.mp h
  obtain ⟨scaleY, -, h⟩ := bind_eq_ok.mp h
  obtain ⟨rotation, -, h⟩ := bind_eq_ok.mp h
  cases h
  rfl

/-- **An update that was read keeps a transform savable.** -/
theorem Savable.apply [WrittenScalar α] {t : Transform α} (ht : t.Savable)
    {payload : Fields (Json α)} (hp : (Json.obj payload).InRange) {u : Update α}
    (hu : Update.ofPayload payload = .ok u) (factor : Vec2 α) : (u.apply factor t).Savable := by
  have hfilters := filters_of_ofPayload hu
  have hfree : AreFree u.filters.keys := hfilters ▸ Update.areFree_filter payload
  refine ⟨Fields.nodup_keys_update ht.nodup _, fun name hm => ?_, ?_⟩
  · exact ((Fields.mem_keys_update _ _ name).mp hm).elim (ht.free name) (hfree name)
  · refine Json.everyMember_update ht.inRange ?_
    rw [hfilters]
    exact Json.everyMember_filter hp.2 _

end Transform

namespace Script

/-! ## Commands that were read -/

section Kept

variable [WrittenScalar α]

/-- The command can be saved: raw text is read as itself, and what acts on the stage has texts and
    a transform that can be written. -/
inductive Kept : Command α → Prop
  | rawText {text : String} (found : Text.contentLines text.toList = [text.toList])
      (raw : action? (α := α) text.toList = none) : Kept (.rawText text)
  | acting {c : Command α} {target : String} {t : Transform α}
      (effect : c.effect? = some (target, t)) (writable : Writable none c) (savable : t.Savable) :
      Kept c

/-- Every transform on stage can be saved. -/
def KeptStage (stage : Stage α) : Prop :=
  ∀ (target : String) (t : Transform α), stage.get? target = some t → t.Savable

theorem KeptStage.after {stage : Stage α} (h : KeptStage stage) {c : Command α} (hc : Kept c) :
    KeptStage (stage.after c) := by
  cases hc with
  | rawText found raw => exact h
  | acting effect writable savable =>
    unfold Stage.after
    rw [effect]
    exact Fields.forall_get?_set h savable

theorem KeptStage.getD {stage : Stage α} (h : KeptStage stage) (target : String) :
    ((stage.get? target).getD Transform.initial).Savable := by
  cases hg : stage.get? target with
  | none => exact Transform.savable_initial
  | some t => exact h target t hg

theorem clean_of_easeName?_ofParameter {ease : Option String}
    (h : ∀ name, ease = some name → Clean name.toList) {name : String}
    (hn : easeName? (Easing.ofParameter ease) none = some name) : Clean name.toList := by
  cases ease with
  | none => cases hn
  | some v =>
    unfold Easing.ofParameter Easing.ofName at hn
    dsimp only at hn
    split at hn
    · cases hn
    · next hne =>
      unfold easeName? Easing.statedName? at hn
      dsimp only at hn
      rw [if_neg hne] at hn
      cases hn
      rw [String.toList_ofList]
      exact (h v rfl).piece List.infix_rfl

/-- **The command of a statement that can be written can be saved.** -/
theorem kept_command {s : Statement α} (hs : s.Rewritable) {a : Action α} (ha : s.action? = .ok a)
    {stage : Stage α} (h : KeptStage stage) (factor : Vec2 α) : Kept (a.command factor stage) := by
  cases s with
  | setTransform target payload duration ease =>
    obtain ⟨n, -, ha⟩ := bind_eq_ok.mp ha
    obtain ⟨u, hu, ha⟩ := bind_eq_ok.mp ha
    cases ha
    obtain ⟨ht, hne, he, hp⟩ := hs
    exact .acting rfl ⟨ht, hne, fun name hn => clean_of_easeName?_ofParameter he hn⟩
      ((h.getD target).apply hp (mapError_eq_ok.mp hu) factor)
  | changeFigure target path payload preset params =>
    obtain ⟨u, hu, ha⟩ := bind_eq_ok.mp ha
    cases ha
    obtain ⟨ht, hne, hpath, hparams, hp⟩ := hs
    exact .acting rfl ⟨ht, hne, hpath, hparams⟩
      (Transform.savable_initial.apply hp (mapError_eq_ok.mp hu) factor)
  | changeBackground path payload params =>
    obtain ⟨u, hu, ha⟩ := bind_eq_ok.mp ha
    cases ha
    obtain ⟨hpath, hparams, hp⟩ := hs
    exact .acting rfl ⟨hpath, hparams⟩
      (Transform.savable_initial.apply hp (mapError_eq_ok.mp hu) factor)

/-- **One line**: its command can be saved. -/
theorem kept_readLine {stage : Stage α} (h : KeptStage stage) {s line : List Char}
    (hl : line ∈ Text.contentLines s) (factor : Vec2 α) :
    Kept (readLine factor stage line).1 := by
  obtain ⟨hu, ht, hne⟩ := Text.of_mem_contentLines hl
  cases ha : action? (α := α) line with
  | none =>
    rw [readLine_of_no_action ha]
    refine .rawText ?_ ?_
    · rw [String.toList_ofList]
      exact Text.contentLines_of_unbroken hu ht hne
    · rw [String.toList_ofList]
      exact ha
  | some a =>
    rw [readLine_of_action ha]
    obtain ⟨st, hst, hact⟩ := exists_statement_of_action? ha
    exact kept_command (Statement.rewritable_read? hu hst) hact h factor

/-- **All lines**: by induction, with the step above. -/
theorem kept_commandsFrom (factor : Vec2 α) {s : List Char} {lines : List (List Char)}
    (hl : ∀ line ∈ lines, line ∈ Text.contentLines s) {stage : Stage α} (h : KeptStage stage) :
    ∀ c ∈ commandsFrom factor stage lines, Kept c := by
  induction lines generalizing stage with
  | nil => exact fun c hc => nomatch hc
  | cons line lines ih =>
    have hstep := kept_readLine h (hl line List.mem_cons_self) factor
    rw [commandsFrom_cons]
    refine List.forall_mem_cons.mpr ⟨hstep, ?_⟩
    exact ih (fun l hm => hl l (List.mem_cons_of_mem _ hm)) (h.after hstep)

/-- **Every command of a script can be saved.** -/
theorem kept_parse (factor : Vec2 α) (text : List Char) : ∀ c ∈ parse factor text, Kept c :=
  kept_commandsFrom factor (fun _ h => h) fun _ _ h => nomatch h

end Kept

/-! ## Lines that were saved -/

section Saved

variable [WrittenScalar α]

/-- No filter of the command breaks a line. -/
def FiltersUnbroken (c : Command α) : Prop :=
  ∀ (target : String) (t : Transform α), c.effect? = some (target, t) →
    Json.MembersUnbroken t.filters

omit [WrittenScalar α] in
theorem filtersUnbroken_of_no_filters {c : Command α}
    (h : ∀ (target : String) (t : Transform α), c.effect? = some (target, t) → t.filters = []) :
    FiltersUnbroken c := by
  intro target t he
  rw [h target t he]
  exact Json.membersUnbroken_nil

/-- The kind and the target of the command that a line is read into, on any stage. -/
def outlineOf (factor : Vec2 α) (line : List Char) : Outline :=
  (readLine factor [] line).1.outline

theorem map_outline_parse (factor : Vec2 α) (text : List Char) :
    (parse factor text).map Command.outline =
      (Text.contentLines text).map (outlineOf factor) :=
  map_outline_commandsFrom factor [] [] (Text.contentLines text)

variable [Scalar.Readable α] {ratio : Vec2 α} {duration : Nat} {c : Command α} {line : List Char}

omit [Scalar.Readable α] in
/-- A script with one command is its line. -/
theorem exists_writeLine {canvas : Vec2 α} {base : Vec2 (Extent α)} {saved : List Char}
    (h : write [c] duration canvas base none = .ok saved) :
    ∃ ratio, writeLine ratio duration none c = .ok saved := by
  obtain ⟨ratio, -, h⟩ := bind_eq_ok.mp h
  obtain ⟨lines, hlines, h⟩ := bind_eq_ok.mp h
  obtain _ | ⟨hline, hnil⟩ := mapM_eq_ok.mp hlines
  cases hnil
  refine ⟨ratio, hline.trans (congrArg Except.ok ?_)⟩
  rw [← Except.ok.inj h]
  exact (List.append_nil _).symm

/-- **A line that was written for a command on the stage is found as itself and says the command
    again.** -/
theorem action?_writeLine {target : String} {t : Transform α} (hc : Kept c)
    (he : c.effect? = some (target, t)) (h : writeLine ratio duration none c = .ok line)
    (hu : FiltersUnbroken c) :
    Text.contentLines line = [line] ∧ ∃ u, action? line = rewritten duration none u c := by
  cases hc with
  | rawText found raw => cases he
  | acting effect writable savable =>
    obtain ⟨json, hpayload, hd, rfl⟩ := (writeLine_eq_ok writable effect).mp h
    obtain ⟨payload, hsaved, hj⟩ := payloadText_eq_ok.mp hpayload
    obtain ⟨hv, ⟨u, hup⟩, -⟩ := savable.exists_update hsaved hj
    have hunbroken := (savable.unbroken_iff hsaved hj).mpr (hu _ _ effect)
    exact ⟨contentLines_lineText writable hj hunbroken,
      u, action?_lineText writable hd hj hv hup⟩

/-- A line that was written for a command is that command again, if it is found. -/
theorem contentLines_writeLine (hc : Kept c) (h : writeLine ratio duration none c = .ok line)
    (hu : FiltersUnbroken c) (factor : Vec2 α) :
    (Text.contentLines line).map (outlineOf factor) = [c.outline] := by
  cases he : c.effect? with
  | none =>
    cases hc with
    | @rawText text found raw =>
      cases h
      rw [found, List.map_singleton]
      unfold outlineOf
      rw [readLine_of_no_action raw, String.ofList_toList]
    | acting effect writable savable => cases he.symm.trans effect
  | some p =>
    obtain ⟨target, t⟩ := p
    obtain ⟨hlines, u, haction⟩ := action?_writeLine hc he h hu
    obtain ⟨a, ha, ho⟩ := Option.map_eq_some_iff.mp (haction ▸ outline_rewritten he duration none u)
    rw [hlines, List.map_singleton]
    unfold outlineOf
    rw [readLine_of_action ha, a.outline_command, ho]

/-- A line whose filters break it is found as more than one. -/
theorem one_lt_length_contentLines_writeLine (hc : Kept c)
    (h : writeLine ratio duration none c = .ok line) (hu : ¬ FiltersUnbroken c) :
    1 < (Text.contentLines line).length := by
  cases hc with
  | rawText found raw => exact absurd (fun _ _ he => nomatch he) hu
  | acting effect writable savable =>
    obtain ⟨json, hpayload, hd, rfl⟩ := (writeLine_eq_ok writable effect).mp h
    obtain ⟨payload, hsaved, hj⟩ := payloadText_eq_ok.mp hpayload
    refine one_lt_length_contentLines_lineText writable hj fun hbroken => hu ?_
    intro target t he
    cases effect.symm.trans he
    exact (savable.unbroken_iff hsaved hj).mp hbroken

/-! ## Scripts -/

variable {commands : List (Command α)} {lines : List (List Char)}

/-- Every command is found at least once. -/
theorem length_le_length_contentLines (hc : ∀ c ∈ commands, Kept c)
    (h : List.Forall₂ (fun c line => writeLine ratio duration none c = .ok line) commands lines) :
    commands.length ≤ (lines.flatMap Text.contentLines).length := by
  induction h with
  | nil => exact Nat.le_refl 0
  | @cons c line commands lines hline hlines ih =>
    obtain ⟨hhead, htail⟩ := List.forall_mem_cons.mp hc
    have hpos : 1 ≤ (Text.contentLines line).length := by
      by_cases hu : FiltersUnbroken c
      · have hone := congrArg List.length (contentLines_writeLine hhead hline hu ratio)
        rw [List.length_map] at hone
        exact hone.ge
      · exact (one_lt_length_contentLines_writeLine hhead hline hu).le
    rw [List.flatMap_cons, List.length_append, List.length_cons]
    have := ih htail
    omega

/-- Commands are found one by one exactly if no filter breaks a line. -/
theorem map_outlineOf_iff (hc : ∀ c ∈ commands, Kept c)
    (h : List.Forall₂ (fun c line => writeLine ratio duration none c = .ok line) commands lines)
    (factor : Vec2 α) :
    (lines.flatMap Text.contentLines).map (outlineOf factor) = commands.map Command.outline ↔
      ∀ c ∈ commands, FiltersUnbroken c := by
  induction h with
  | nil => exact iff_of_true rfl fun c hm => nomatch hm
  | @cons c line commands lines hline hlines ih =>
    obtain ⟨hhead, htail⟩ := List.forall_mem_cons.mp hc
    rw [List.flatMap_cons, List.map_append, List.map_cons, List.forall_mem_cons, ← ih htail]
    by_cases hu : FiltersUnbroken c
    · rw [contentLines_writeLine hhead hline hu factor, and_iff_right hu, List.singleton_append,
        List.cons.injEq, and_iff_right rfl]
    -- a broken line is found at least twice and every other one at least once: there are too many
    -- commands for the outlines to agree, whatever the broken one is read as
    · refine iff_of_false (fun he => ?_) fun he => hu he.1
      have hmany := one_lt_length_contentLines_writeLine hhead hline hu
      have hrest := length_le_length_contentLines htail hlines
      have hlength := congrArg List.length he
      simp only [List.length_append, List.length_map, List.length_cons] at hlength
      omega

/-- **A saved script is read as the same commands, up to their numbers and texts**: as many, of the
    same kinds, on the same targets and with the same raw text, exactly if no name and no text in a
    filter breaks a line. -/
theorem outline_parse_write_iff {factor canvas : Vec2 α} {base : Vec2 (Extent α)}
    {text saved : List Char}
    (h : write (parse factor text) duration canvas base none = .ok saved) (factor' : Vec2 α) :
    (parse factor' saved).map Command.outline = (parse factor text).map Command.outline ↔
      ∀ c ∈ parse factor text, FiltersUnbroken c := by
  obtain ⟨ratio, -, h⟩ := bind_eq_ok.mp h
  obtain ⟨lines, hlines, h⟩ := bind_eq_ok.mp h
  obtain rfl := Except.ok.inj h
  rw [map_outline_parse factor', Text.contentLines_join]
  exact map_outlineOf_iff (kept_parse factor text) (mapM_eq_ok.mp hlines) factor'

end Saved

/-- A filter whose text breaks lines: the saved script is two lines of raw text, and the figure is
    moved no more. -/
theorem outline_parse_write_separator :
    let text := "setTransform:\x7b\"name\":\"a\\u2028b\"\x7d -target=f1;".toList
    let saved := "setTransform:\x7b\"position\":\x7b\"x\":0,\"y\":0\x7d,".toList ++
      "\"scale\":\x7b\"x\":1,\"y\":1\x7d,\"rotation\":0,\"name\":\"a\u2028b\"\x7d ".toList ++
      "-target=f1 -duration=500 -next;".toList
    let one : Vec2 Float := ⟨1, 1⟩
    write (parse one text) (500 : Nat) ⟨1280, 720⟩ ⟨.real 1280, .real 720⟩ none = .ok saved ∧
    ((parse one saved).map Command.outline = (parse one text).map Command.outline ↔
      ∀ c ∈ parse one text, FiltersUnbroken c) ∧
    (parse one text).map Command.outline = [.setTransform "f1"] ∧
    ((parse one saved).map Command.outline).map Outline.isRawText = [true, true] := by
  repeat rewrite [String.toList_ofList]
  intro text saved one
  have hsaved : write (parse one text) (500 : Nat) ⟨1280, 720⟩ ⟨.real 1280, .real 720⟩ none =
      .ok saved := by decide +kernel
  exact ⟨hsaved, outline_parse_write_iff hsaved one, by decide, by decide⟩

end Script
end SceneScript
