import SceneScript.Proofs.Script.Rewritable
import SceneScript.Proofs.Script.Slicing

/-!
# Every line is accounted for

Reading has no answer but commands: what goes wrong with a line, in its JSON, its numbers or its
parameters, goes wrong with that line alone, which is kept as raw text. **A script has one command
for each line that is not blank, in their order** (`parse_accounts`), and each of them is what the
line can become:

* raw text holds the trimmed line, its terminator included;
* every other command has a target with a name;
* and it stands behind its own keyword and a colon.
-/

set_option autoImplicit false

namespace SceneScript

open Outcome (bind_eq_ok map_eq_ok mapError_eq_ok)

variable {α : Type}

/-! ## The text before the colon -/

namespace Text

/-- Blanks at the start of a text make no difference to a trimmed piece of it, if the piece does
    not end at one. -/
theorem trim_takeWhile_trimStart {p : Char → Bool} (hp : ∀ c, isBlank c = true → p c = true)
    (s : List Char) : trim ((trimStart s).takeWhile p) = trim (s.takeWhile p) := by
  unfold trim trimStart
  induction s with
  | nil => rfl
  | cons c s ih =>
    by_cases hc : isBlank c = true
    · rw [List.dropWhile_cons_of_pos hc, List.takeWhile_cons_of_pos (hp c hc),
        List.dropWhile_cons_of_pos hc]
      exact ih
    · rw [List.dropWhile_cons_of_neg hc]

end Text

/-- A text and its start have the same first piece, if it ends within the start. -/
theorem takeWhile_eq_of_prefix {β : Type} {p : β → Bool} {s t : List β} (h : s <+: t) {c : β}
    (hc : c ∈ s) (hp : p c = false) : s.takeWhile p = t.takeWhile p := by
  obtain ⟨r, rfl⟩ := h
  rw [List.takeWhile_append, if_neg]
  intro hlen
  have hall := List.takeWhile_prefix (p := p) (l := s) |>.eq_of_length hlen
  rw [List.takeWhile_eq_self_iff] at hall
  exact absurd (hall c hc) (by rw [hp]; exact Bool.false_ne_true)

/-! ## Keywords -/

/-- The keyword that a line with the command has to start with. -/
def Command.keyword? : Command α → Option Keyword
  | .setTransform _ => some .setTransform
  | .changeFigure _ => some .changeFigure
  | .changeBackground _ => some .changeBackground
  | .rawText _ => none

theorem Keyword.text_of_ofText? {s : List Char} {k : Keyword} (h : ofText? s = some k) :
    s = k.text.toList := by
  unfold ofText? at h
  have := List.find?_some h
  exact (beq_iff_eq.mp this).symm

namespace Statement

def keyword : Statement α → Keyword
  | .setTransform .. => .setTransform
  | .changeFigure .. => .changeFigure
  | .changeBackground .. => .changeBackground

def target : Statement α → String
  | .setTransform target .. => target
  | .changeFigure target .. => target
  | .changeBackground .. => backgroundTarget

variable [Scalar α]

theorem keyword_readSetTransform {s : List Char} {st : Statement α}
    (h : readSetTransform s = .ok st) : st.keyword = .setTransform := by
  obtain ⟨members, rest, path, tokens, -, -, -, rfl⟩ := exists_of_readSetTransform h
  rfl

theorem keyword_readChangeFigure {s : List Char} {st : Statement α}
    (h : readChangeFigure s = .ok st) : st.keyword = .changeFigure := by
  obtain ⟨⟨path, tokens⟩, -, h⟩ := bind_eq_ok.mp h
  obtain ⟨payload, -, h⟩ := bind_eq_ok.mp h
  cases h
  rfl

theorem keyword_readChangeBackground {s : List Char} {st : Statement α}
    (h : readChangeBackground s = .ok st) : st.keyword = .changeBackground := by
  obtain ⟨⟨path, tokens⟩, -, h⟩ := bind_eq_ok.mp h
  obtain ⟨payload, -, h⟩ := bind_eq_ok.mp h
  cases h
  rfl

/-- **A statement is of the kind of its keyword.** -/
theorem keyword?_of_read? {line : List Char} {st : Statement α}
    (h : read? line = .ok (some st)) :
    ∃ rest, keyword? (Line.body line) = some (st.keyword, rest) := by
  unfold read? at h
  split at h
  · cases h
  · next rest hk =>
    obtain ⟨s, hs, he⟩ := map_eq_ok.mp h
    cases he
    exact ⟨rest, by rw [hk, keyword_readSetTransform hs]⟩
  · next rest hk =>
    obtain ⟨s, hs, he⟩ := map_eq_ok.mp h
    cases he
    exact ⟨rest, by rw [hk, keyword_readChangeFigure hs]⟩
  · next rest hk =>
    obtain ⟨s, hs, he⟩ := map_eq_ok.mp h
    cases he
    exact ⟨rest, by rw [hk, keyword_readChangeBackground hs]⟩

omit [Scalar α] in
theorem colon_of_keyword? {body rest : List Char} {k : Keyword}
    (h : keyword? body = some (k, rest)) :
    ':' ∈ body ∧ Text.trim (body.takeWhile (· != ':')) = k.text.toList := by
  unfold keyword? at h
  split at h
  · cases h
  · next c r hr =>
    obtain ⟨k', hk, he⟩ := Option.map_eq_some_iff.mp h
    cases he
    have hc : c = ':' := by
      have := List.head?_dropWhile_not (· != ':') body
      rw [hr] at this
      simpa using this
    refine ⟨?_, Keyword.text_of_ofText? hk⟩
    exact (List.dropWhile_suffix _).subset (by rw [hr, hc]; exact List.mem_cons_self)

/-- **The keyword of a statement stands before the first colon of its line**, blanks aside. -/
theorem keyword_before_colon {line : List Char} {st : Statement α}
    (h : read? (Text.trim line) = .ok (some st)) :
    ':' ∈ line ∧ Text.trim (line.takeWhile (· != ':')) = st.keyword.text.toList := by
  obtain ⟨rest, hk⟩ := keyword?_of_read? h
  obtain ⟨hcolon, hbefore⟩ := colon_of_keyword? hk
  have hstart : Line.body (Text.trim line) <+: Text.trimStart line :=
    (body_isPrefix _).trans (Text.trimEnd_isPrefix _)
  refine ⟨(List.dropWhile_suffix _).subset (hstart.subset hcolon), ?_⟩
  rw [← hbefore, takeWhile_eq_of_prefix hstart hcolon (by decide),
    Text.trim_takeWhile_trimStart fun c hc => ?_]
  rw [bne_iff_ne]
  rintro rfl
  exact absurd hc (by decide)

/-- A command is of the kind and on the target of its statement. -/
theorem command_of_action? {st : Statement α} {a : Action α} (h : st.action? = .ok a)
    (factor : Vec2 α) (stage : Stage α) :
    (a.command factor stage).keyword? = some st.keyword ∧ a.target = st.target := by
  cases st with
  | setTransform target payload duration ease =>
    obtain ⟨n, -, h⟩ := bind_eq_ok.mp h
    obtain ⟨u, -, h⟩ := bind_eq_ok.mp h
    cases h
    exact ⟨rfl, rfl⟩
  | changeFigure target path payload preset params =>
    obtain ⟨u, -, h⟩ := bind_eq_ok.mp h
    cases h
    exact ⟨rfl, rfl⟩
  | changeBackground path payload params =>
    obtain ⟨u, -, h⟩ := bind_eq_ok.mp h
    cases h
    exact ⟨rfl, rfl⟩

theorem Rewritable.target_ne_empty {st : Statement α} (h : st.Rewritable) : st.target ≠ "" := by
  cases st with
  | setTransform target payload duration ease => exact h.2.1
  | changeFigure target path payload preset params => exact h.2.1
  | changeBackground path payload params => exact (by decide : backgroundTarget ≠ "")

end Statement

/-! ## Lines -/

namespace Script

variable [Scalar α]

/-- The command is one that the line can have become. -/
structure Accounts (line : List Char) (c : Command α) : Prop where
  /-- It is raw text exactly if the line, read by itself, does nothing. -/
  refused : c.isRawText = true ↔ action? (α := α) (Text.trim line) = none
  text : ∀ t, c = .rawText t → t.toList = Text.trim line
  target : c.isRawText = false → ∃ target, c.target? = some target ∧ target ≠ ""
  keyword : ∀ k, c.keyword? = some k →
    ':' ∈ line ∧ Text.trim (line.takeWhile (· != ':')) = k.text.toList

/-- **One line**, on any stage. -/
theorem accounts_readLine (factor : Vec2 α) (stage : Stage α) {text line : List Char}
    (hl : line ∈ Text.nonBlankLines text) :
    Accounts line (readLine factor stage (Text.trim line)).1 := by
  cases ha : action? (α := α) (Text.trim line) with
  | none =>
    rw [readLine_of_no_action ha]
    exact {
      refused := iff_of_true rfl ha
      text := fun t h => by
        cases h
        exact String.toList_ofList
      target := fun h => nomatch h
      keyword := fun k h => nomatch h }
  | some a =>
    obtain ⟨st, hst, hact⟩ := exists_statement_of_action? ha
    obtain ⟨hkeyword, htarget⟩ := st.command_of_action? hact factor stage
    have hu : Text.Unbroken (Text.trim line) :=
      (Text.of_mem_contentLines (s := text)
        (Text.contentLines_eq_map_trim text ▸ List.mem_map_of_mem hl)).1
    have hraw : (a.command factor stage).isRawText = false := by cases a <;> rfl
    rw [readLine_of_action ha]
    exact {
      refused := by rw [hraw, ha]; simp
      text := fun t h => by
        rw [h] at hraw
        cases hraw
      target := fun _ => by
        refine ⟨a.target, a.target?_command factor stage, ?_⟩
        rw [htarget]
        exact (Statement.rewritable_read? hu hst).target_ne_empty
      keyword := fun k h => by
        cases h.symm.trans hkeyword
        exact Statement.keyword_before_colon hst }

/-- **All lines**: by induction, with the step above. -/
theorem accounts_commandsFrom (factor : Vec2 α) {text : List Char} {lines : List (List Char)}
    (hl : ∀ line ∈ lines, line ∈ Text.nonBlankLines text) (stage : Stage α) :
    List.Forall₂ Accounts lines (commandsFrom factor stage (lines.map Text.trim)) := by
  induction lines generalizing stage with
  | nil => exact .nil
  | cons line lines ih =>
    obtain ⟨hline, hlines⟩ := List.forall_mem_cons.mp hl
    exact .cons (accounts_readLine factor stage hline) (ih hlines _)

/-- **A script has one command for each line that is not blank, and each accounts for its line.** -/
theorem parse_accounts (factor : Vec2 α) (text : List Char) :
    List.Forall₂ Accounts (Text.nonBlankLines text) (parse factor text) := by
  rw [parse_eq_commandsFrom_map_trim]
  exact accounts_commandsFrom factor (fun _ h => h) []

end Script
end SceneScript
