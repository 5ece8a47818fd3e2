import SceneScript.Proofs.Json.LineBreaks
import SceneScript.Proofs.Script.Locality
import SceneScript.Proofs.Script.Parameters
import SceneScript.Script.Writing

/-!
# Lines that were written

A written line is a keyword with its colon, a head, tokens and the terminator. Read from a whole
text it has to be found first. It is, **as one line and as itself, exactly when no line break stands
in it** (`contentLines_line`, `one_lt_length_contentLines_line`).

The parameter with the payload is the one token of a line that need not be clean: its JSON may hold
what looks like a mark. Everything else in a line is a `Storable` parameter.

The line of a move is the simplest one, JSON with parameters behind it. **It has the action of the
move** (`action?_moveText`): what the action does to a transform is what the JSON says, read as an
update.
-/

set_option autoImplicit false

namespace SceneScript

open Parameters (marked token Named Storable Standing transformOpening)
open Text (trim Clean Unbroken clean_ofList)

namespace Script

/-! ## Keyword and terminator -/

/-- A line with its keyword and its terminator. -/
def line (keyword : Keyword) (s : List Char) : List Char :=
  opening keyword ++ s ++ [Line.terminator]

theorem body_terminated {s : List Char} (h : ∀ c, s.getLast? = some c → Text.isBlank c = false) :
    Line.body (s ++ [Line.terminator]) = s := by
  unfold Line.body Line.isTerminated
  rw [if_pos (by simp), List.dropLast_concat, Text.trimEnd_of_getLast h]

theorem keyword?_opening (keyword : Keyword) (s : List Char) :
    Statement.keyword? (opening keyword ++ s) = some (keyword, s) := by
  have hk : ∀ c ∈ keyword.text.toList, (c != ':') = true :=
    List.all_eq_true.mp (by cases keyword <;> decide)
  have h1 : List.takeWhile (· != ':') ([':'] ++ s) = [] := rfl
  have h2 : List.dropWhile (· != ':') ([':'] ++ s) = ':' :: s := rfl
  have h3 : Keyword.ofText? (trim keyword.text.toList) = some keyword := by
    cases keyword <;> decide
  unfold Statement.keyword? opening
  rw [List.append_assoc, List.dropWhile_append_of_pos hk, List.takeWhile_append_of_pos hk, h1, h2,
    List.append_nil, h3]
  rfl

/-- A text ends without a blank, if it is not empty. -/
def EndsFirmly (s : List Char) : Prop := ∀ c, s.getLast? = some c → Text.isBlank c = false

theorem endsFirmly_append {s t : List Char} (hs : EndsFirmly s) (ht : EndsFirmly t) :
    EndsFirmly (s ++ t) := by
  intro c hc
  rw [List.getLast?_append] at hc
  cases hl : t.getLast? with
  | none =>
    rw [hl] at hc
    exact hs c hc
  | some x =>
    rw [hl] at hc
    exact ht c (hl.trans hc)

theorem endsFirmly_opening (keyword : Keyword) : EndsFirmly (opening keyword) := by
  intro c hc
  unfold opening at hc
  rw [List.getLast?_concat] at hc
  cases hc
  decide

variable {α : Type} [Scalar α]

theorem read?_line (keyword : Keyword) {s : List Char} (h : EndsFirmly s) :
    Statement.read? (α := α) (line keyword s) =
      (match keyword with
        | .setTransform => (Statement.readSetTransform s).map some
        | .changeFigure => (Statement.readChangeFigure s).map some
        | .changeBackground => (Statement.readChangeBackground s).map some) := by
  unfold Statement.read? line
  rw [body_terminated (endsFirmly_append (endsFirmly_opening keyword) h), keyword?_opening]
  cases keyword <;> rfl

/-! ## Lines in a text -/

/-- The first character of a line is no blank. -/
theorem exists_opening (keyword : Keyword) :
    ∃ c r, opening keyword = c :: r ∧ Text.isBlank c = false ∧ Unbroken (opening keyword) := by
  cases keyword
  · exact ⟨'s', _, rfl, by decide, by decide⟩
  · exact ⟨'c', _, rfl, by decide, by decide⟩
  · exact ⟨'c', _, rfl, by decide, by decide⟩

theorem trim_line (keyword : Keyword) (s : List Char) :
    trim (line keyword s) = line keyword s := by
  obtain ⟨c, r, ho, hc, -⟩ := exists_opening keyword
  unfold line
  refine Text.trim_of_ends (fun d hd => ?_) (fun d hd => ?_)
  · rw [ho] at hd
    cases hd
    exact hc
  · rw [List.getLast?_concat] at hd
    cases hd
    decide

theorem line_ne_nil (keyword : Keyword) (s : List Char) : line keyword s ≠ [] := by
  unfold line
  simp

/-- **An unbroken line is found as itself.** -/
theorem contentLines_line (keyword : Keyword) {s : List Char} (h : Unbroken s) :
    Text.contentLines (line keyword s) = [line keyword s] := by
  obtain ⟨c, r, -, -, hu⟩ := exists_opening keyword
  refine Text.contentLines_of_unbroken ?_ (trim_line keyword s) (line_ne_nil keyword s)
  unfold line
  rw [Text.unbroken_append, Text.unbroken_append]
  exact ⟨⟨hu, h⟩, by decide⟩

/-- **A broken line is found in more than one piece.** -/
theorem one_lt_length_contentLines_line (keyword : Keyword) {s : List Char} (h : ¬ Unbroken s) :
    1 < (Text.contentLines (line keyword s)).length := by
  obtain ⟨c, r, ho, hc, -⟩ := exists_opening keyword
  -- the first character of the keyword stands before the break, the terminator behind it
  have hbreak : ∃ b ∈ s, Text.isLineBreak b = true := by
    by_contra hno
    refine h fun b hb => ?_
    rw [← Bool.not_eq_true]
    exact fun he => hno ⟨b, hb, he⟩
  obtain ⟨b, hb, hbl⟩ := hbreak
  obtain ⟨t, u, rfl⟩ := List.append_of_mem hb
  have hl : line keyword (t ++ b :: u) = c :: ((r ++ t) ++ b :: (u ++ [Line.terminator])) := by
    unfold line
    rw [ho]
    simp
  rw [hl]
  exact Text.one_lt_length_contentLines hbl hc
    ⟨Line.terminator, List.mem_append_right _ (List.mem_singleton_self _), by decide⟩

theorem unbroken_of_line {keyword : Keyword} {s : List Char} (h : Unbroken (line keyword s)) :
    Unbroken s := by
  unfold line at h
  rw [Text.unbroken_append, Text.unbroken_append] at h
  exact h.1.2

/-- **An unbroken line with an action is a script with one command.** -/
theorem parse_line {keyword : Keyword} {s : List Char} (hu : Unbroken s) {a : Action α}
    (ha : action? (line keyword s) = some a) (factor : Vec2 α) :
    parse factor (line keyword s) = [a.command factor []] := by
  rw [parse_eq_commandsFrom, contentLines_line keyword hu, commandsFrom_cons, commandsFrom_nil,
    readLine_of_action ha]

/-! ## Tokens -/

theorem endsFirmly_of_trimmed {s : List Char} (h : trim s = s) : EndsFirmly s :=
  Text.isBlank_getLast_of_trimmed h

theorem endsFirmly_marked {tokens : List (List Char)} (h : ∀ t ∈ tokens, trim t = t) :
    EndsFirmly (marked tokens) := by
  induction tokens with
  | nil => exact fun c hc => nomatch hc
  | cons t tokens ih =>
    have hmark : EndsFirmly Text.mark := fun c hc => by
      cases hc
      decide
    have ht := endsFirmly_of_trimmed (h t List.mem_cons_self)
    exact endsFirmly_append (endsFirmly_append hmark ht)
      (ih fun x hx => h x (List.mem_cons_of_mem _ hx))

theorem clean_of_isDigit {s : List Char} (h : ∀ d ∈ s, d.isDigit = true) : Clean s where
  trimmed := by
    have hb : ∀ d ∈ s, Text.isBlank d = false := fun d hd =>
      (Text.visible_of_isDigit (h d hd)).isBlank
    exact Text.trim_of_ends (fun c hc => hb c (List.mem_of_head? hc))
      fun c hc => hb c (List.mem_of_getLast? hc)
  unbroken := Json.unbroken_of_isDigit h
  unmarked hm := by
    have := h ' ' (hm.subset List.mem_cons_self)
    cases this

theorem standing_tokens {α : Type} [WrittenScalar α] [Scalar.Readable α]
    {ps : List (String × String)} (h : ∀ p ∈ ps, Storable p) :
    ∀ t ∈ ps.map token, Standing α t ∧ trim t = t := by
  intro t ht
  obtain ⟨p, hp, rfl⟩ := List.mem_map.mp ht
  exact (h p hp).standing

theorem unbroken_marked (tokens : List (List Char)) :
    Unbroken (marked tokens) ↔ ∀ t ∈ tokens, Unbroken t := by
  have hmark : Unbroken Text.mark := by decide
  induction tokens with
  | nil => simp
  | cons t tokens ih =>
    show Unbroken (Text.mark ++ t ++ marked tokens) ↔ _
    rw [Text.unbroken_append, Text.unbroken_append, and_iff_right hmark, List.forall_mem_cons]
    exact and_congr Iff.rfl ih

/-- A name by its letters, so that what is asked of a fixed one is about a list and not about the
    bytes of a string. -/
theorem storable_of_letters {letters : List Char} {value : String}
    (hn : letters ≠ [] ∧ '=' ∉ letters ∧ letters ≠ Parameters.transformName.toList ∧
      Clean letters)
    (hv : Clean value.toList) : Storable (String.ofList letters, value) where
  nonempty h := hn.1 (String.ofList_eq_empty_iff.mp h)
  noEquals := by
    rw [String.toList_ofList]
    exact hn.2.1
  notTransform h := hn.2.2.1 (by rw [← h, String.toList_ofList])
  name := clean_ofList hn.2.2.2
  value := hv

/-! ## The parameter with the payload -/

/-- The parameter with the saved payload. -/
def transformParam (json : List Char) : String × String :=
  (Parameters.transformName, String.ofList json)

section Payload

variable {α : Type} [WrittenScalar α]
variable {members : Fields (Json α)} {json : List Char}

theorem token_transformParam (h : Json.render (.obj members) = .ok json) :
    token (transformParam json) = transformOpening ++ json := by
  obtain ⟨t, rfl⟩ := Parameters.trimmed_render_obj h
  unfold token transformParam transformOpening
  rw [if_neg, String.toList_ofList, List.append_assoc]
  · rfl
  · rw [String.isEmpty_iff]
    intro h0
    exact absurd (String.ofList_eq_empty_iff.mp h0) (by simp)

theorem trimmed_json (h : Json.render (.obj members) = .ok json) : trim json = json := by
  obtain ⟨t, rfl⟩ := Parameters.trimmed_render_obj h
  refine Text.trim_of_ends (fun c hc => ?_) (fun c hc => ?_)
  · cases hc
    decide
  · rw [← List.cons_append, List.getLast?_concat] at hc
    cases hc
    decide

theorem named_transformParam (h : Json.render (.obj members) = .ok json) :
    Named (transformParam json) where
  nonempty := show Parameters.transformName ≠ "" by decide
  noEquals := show '=' ∉ Parameters.transformName.toList by decide
  trimmedName := show trim Parameters.transformName.toList = Parameters.transformName.toList by
    decide
  trimmedValue := by
    show trim (String.ofList json).toList = (String.ofList json).toList
    rw [String.toList_ofList]
    exact trimmed_json h

theorem standing_transformParam (h : Json.render (.obj members) = .ok json)
    (hv : (Json.obj members).InRange) :
    Standing α (token (transformParam json)) ∧
      trim (token (transformParam json)) = token (transformParam json) :=
  ⟨.inr ⟨members, json, hv, h, token_transformParam h⟩, (named_transformParam h).trimmed⟩

theorem unbroken_transformParam (h : Json.render (.obj members) = .ok json) :
    Unbroken (token (transformParam json)) ↔ Unbroken json := by
  have hopening : Unbroken transformOpening := by decide
  rw [token_transformParam h, Text.unbroken_append, and_iff_right hopening]

end Payload

/-! ## Moves -/

/-- The parameters of a move, in the order of their writing. -/
def moveParams (target : String) (duration : Nat) (ease : Option String) :
    List (String × String) :=
  [("target", target), ("duration", String.ofList (Nat.toDigits 10 duration))] ++
    ease.toList.map (fun name => ("ease", name)) ++ [("next", "")]

theorem storable_moveParams (duration : Nat) {target : String} {ease : Option String}
    (ht : Clean target.toList) (he : ∀ name, ease = some name → Clean name.toList) :
    ∀ p ∈ moveParams target duration ease, Storable p := by
  intro p hp
  unfold moveParams at hp
  simp only [List.mem_append, List.mem_cons, List.not_mem_nil, or_false, List.mem_map,
    Option.mem_toList] at hp
  rcases hp with (((rfl | rfl) | ⟨name, hname, rfl⟩) | rfl)
  · exact storable_of_letters (by decide) ht
  · exact storable_of_letters (by decide)
      (clean_ofList (clean_of_isDigit fun d => Text.isDigit_toDigits))
  · exact storable_of_letters (by decide) (he name hname)
  · exact storable_of_letters (by decide) (by decide)

theorem nodup_keys_moveParams (target : String) (duration : Nat) (ease : Option String) :
    (Fields.keys (moveParams target duration ease)).Nodup := by
  cases ease <;> simp [moveParams, Fields.keys]

theorem ofParameter_toDigits {duration : Nat}
    (h : (Nat.toDigits 10 duration).length ≤ Text.maxDigits) :
    Duration.ofParameter (some (String.ofList (Nat.toDigits 10 duration))) = .ok duration := by
  have hd : Duration.digits (String.ofList (Nat.toDigits 10 duration)) =
      Text.digitValues (Nat.toDigits 10 duration) := by
    unfold Duration.digits
    rw [String.toList_ofList, (clean_of_isDigit fun d => Text.isDigit_toDigits).trimmed,
      Text.leadingDigits_of_isDigit fun d => Text.isDigit_toDigits]
  unfold Duration.ofParameter
  rw [Option.map_some, hd]
  obtain ⟨c, r, hs⟩ := List.exists_cons_of_ne_nil (Nat.toDigits_ne_nil (b := 10) (n := duration))
  have hread := Text.readDigits_toDigits h
  rw [hs] at hread ⊢
  exact hread

/-- The easing that a name in a line states, or that none does. -/
def statedEasing (ease : Option String) : Easing :=
  match ease with
  | none => .unspecified
  | some name => ⟨.named, some name⟩

/-- The name can stand in a line as that of an easing. -/
def NamesEasing (name : String) : Prop := Clean name.toList ∧ name ≠ ""

theorem ofParameter_stated {ease : Option String}
    (h : ∀ name, ease = some name → NamesEasing name) :
    Easing.ofParameter ease = statedEasing ease := by
  cases ease with
  | none => rfl
  | some name =>
    obtain ⟨hc, hne⟩ := h name rfl
    unfold Easing.ofParameter Easing.ofName statedEasing
    dsimp only
    rw [hc.trimmed, String.ofList_toList, if_neg (by rwa [String.isEmpty_iff])]

/-- What stands in the line of a move behind its keyword. -/
def moveText (json : List Char) (target : String) (duration : Nat) (ease : Option String) :
    List Char :=
  json ++ marked ((moveParams target duration ease).map token)

section Moves

variable {α : Type} [WrittenScalar α] [Scalar.Readable α]
variable {members : Fields (Json α)} {json : List Char} {u : Update α}
variable {target : String} {duration : Nat} {ease : Option String}

/-- **What JSON with parameters behind it says**: a move of the target among the parameters, if there
    is one. -/
theorem readSetTransform_marked (hj : Json.render (.obj members) = .ok json)
    (hv : (Json.obj members).InRange) {ps : List (String × String)} (hps : ∀ p ∈ ps, Storable p) :
    Statement.readSetTransform (json ++ marked (ps.map token)) =
      if (((Fields.ofPairs ps).get? "target").getD "").isEmpty then .error .noTarget
      else .ok (.setTransform (((Fields.ofPairs ps).get? "target").getD "") members
        ((Fields.ofPairs ps).get? "duration") ((Fields.ofPairs ps).get? "ease")) := by
  have hsplit := Parameters.split_marked (α := α) Text.clean_nil (standing_tokens hps)
  rw [List.nil_append] at hsplit
  have hread := Json.read_render (.obj members) hj hv
    (Parameters.follows_marked (ps.map token)).endsNumber
  have hstart : Text.trimStart (json ++ marked (ps.map token)) = json ++ marked (ps.map token) := by
    obtain ⟨t, rfl⟩ := Parameters.trimmed_render_obj hj
    rfl
  have hbehind : ¬ (Text.trimStart (marked (ps.map token)) ≠ [] ∧
      (Text.trimStart (marked (ps.map token))).head? ≠ some '-') := by
    cases ps with
    | nil => exact fun h => h.1 rfl
    | cons p ps => exact fun h => h.2 rfl
  unfold Statement.readSetTransform
  rw [hstart, hread]
  simp only [Except.mapError, bind, Except.bind, pure, Except.pure]
  rw [if_neg hbehind, hsplit]
  dsimp only
  rw [Parameters.fields_tokens fun p hp => (hps p hp).named]
  split <;> rfl

theorem readSetTransform_moveText (hj : Json.render (.obj members) = .ok json)
    (hv : (Json.obj members).InRange) (ht : Clean target.toList) (hne : target ≠ "")
    (he : ∀ name, ease = some name → Clean name.toList) (duration : Nat) :
    Statement.readSetTransform (moveText json target duration ease) =
      .ok (.setTransform target members
        (some (String.ofList (Nat.toDigits 10 duration))) ease) := by
  have htarget : Fields.get? (moveParams target duration ease) "target" = some target := rfl
  have hduration : Fields.get? (moveParams target duration ease) "duration" =
      some (String.ofList (Nat.toDigits 10 duration)) := rfl
  have hease : Fields.get? (moveParams target duration ease) "ease" = ease := by
    cases ease <;> rfl
  unfold moveText
  rw [readSetTransform_marked hj hv (storable_moveParams duration ht he),
    Fields.ofPairs_of_nodup (nodup_keys_moveParams target duration ease), htarget, hduration, hease,
    Option.getD_some, if_neg (by rwa [String.isEmpty_iff])]

/-- **The line of a move has the action of the move.** -/
theorem action?_moveText (hj : Json.render (.obj members) = .ok json)
    (hv : (Json.obj members).InRange) (hu : Update.ofPayload members = .ok u)
    (ht : Clean target.toList) (hne : target ≠ "")
    (he : ∀ name, ease = some name → NamesEasing name)
    (hd : (Nat.toDigits 10 duration).length ≤ Text.maxDigits) :
    action? (line .setTransform (moveText json target duration ease)) =
      some (.setTransform target duration (statedEasing ease) u) := by
  have hfirm : EndsFirmly (moveText json target duration ease) := by
    refine endsFirmly_append (endsFirmly_of_trimmed (trimmed_json hj)) (endsFirmly_marked ?_)
    intro t ht'
    have hps := storable_moveParams duration ht fun n hn => (he n hn).1
    exact (standing_tokens (α := α) hps t ht').2
  have hread := congrArg (Except.map some)
    (readSetTransform_moveText hj hv ht hne (fun n hn => (he n hn).1) duration)
  refine action?_of_statement ((read?_line .setTransform hfirm).trans hread) ?_
  show (do
    let d ← (Duration.ofParameter (some (String.ofList (Nat.toDigits 10 duration)))).mapError
      LineError.duration
    let u ← Statement.update members
    return Action.setTransform target d (Easing.ofParameter ease) u) = _
  unfold Statement.update
  rw [ofParameter_toDigits hd, hu, ofParameter_stated he]
  rfl

omit [Scalar.Readable α] in
theorem unbroken_moveText (ht : Clean target.toList)
    (he : ∀ name, ease = some name → NamesEasing name) :
    Unbroken (moveText json target duration ease) ↔ Unbroken json := by
  unfold moveText
  rw [Text.unbroken_append, and_iff_left]
  refine (unbroken_marked _).mpr fun t ht' => ?_
  obtain ⟨p, hp, rfl⟩ := List.mem_map.mp ht'
  exact (storable_moveParams duration ht (fun n hn => (he n hn).1) p hp).unbroken

end Moves

end Script
end SceneScript
