import SceneScript.Proofs.Script.Flags
import SceneScript.Proofs.Script.WrittenLine

/-!
# Switching the flag and switching it back

The flag is looked for in two texts, in the whole trimmed line by those who ask for it and in the
body by those who switch it. **The two have the same flags** (`containsFlag_body`), as a blank and a
terminator behind the body end a flag and are none.

So **switching gives the line the flag if it has none and takes it if it has, and a flag that was
put there is taken out again without a trace** (`toggleNext_flips`). What does not come back are the
blanks before the terminator. A line of blanks or of a terminator alone is no such line: its flag
would be its first word, with no blank before it once it is trimmed.
-/

set_option autoImplicit false

namespace SceneScript
namespace Line

open Text (trim trimEnd isBlank HasContent)

/-! ## The text that is switched -/

/-- **A text is switched to having flags if it has none, and to having none if it has some.** -/
theorem containsFlag_switchedText (s : List Char) :
    containsFlag (switchedText s) = !containsFlag s := by
  unfold switchedText
  cases h : containsFlag s with
  | true =>
    have hnone : containsFlag (dropFlags 0 s) = false := flagless_dropFlags 0 s
    rw [if_pos rfl, containsFlag_trimEnd, hnone, Bool.not_true]
  | false =>
    have hflag : containsFlag (' ' :: flag) = true := by decide
    rw [if_neg Bool.false_ne_true, containsFlag_append rfl, hflag, Bool.or_true, Bool.not_false]

theorem switchedText_of_flagless {s : List Char} (h : Flagless s) :
    switchedText s = s ++ ' ' :: flag := by
  have hnone : containsFlag s = false := h
  rw [switchedText, hnone, if_neg Bool.false_ne_true]

section Trimmed

variable {s : List Char} (ht : trim s = s)

include ht

/-- **The flag that was put behind a text is taken out again**, and nothing else. -/
theorem switchedText_switchedText (h : Flagless s) : switchedText (switchedText s) = s := by
  have hflag : containsFlag (switchedText s) = true := by
    have hnone : containsFlag s = false := h
    rw [containsFlag_switchedText, hnone, Bool.not_false]
  have hdrop : dropFlags 0 (' ' :: flag) = [] := by decide
  rw [switchedText, if_pos hflag, switchedText_of_flagless h, dropFlags_append rfl, hdrop,
    List.append_nil, dropFlags_of_flagless h]
  exact Text.trimEnd_of_getLast (Text.isBlank_getLast_of_trimmed ht)

/-- A trimmed text keeps its first character when it is switched, so that it stays trimmed. -/
theorem trimmed_switchedText (hne : s ≠ []) :
    trim (switchedText s) = switchedText s ∧ switchedText s ≠ [] := by
  have hhead := Text.isBlank_head_of_trimmed ht
  unfold switchedText
  split
  · obtain ⟨c, r, rfl⟩ := List.exists_cons_of_ne_nil hne
    have hc : isBlank c = false := hhead c rfl
    have hdrop : dropFlags 0 (c :: r) = c :: dropFlags 0 r :=
      dropFlags_append_of_no_blank (List.forall_mem_singleton.mpr hc) r
    rw [hdrop]
    refine ⟨Text.trim_of_ends (fun d hd => ?_) (Text.isBlank_getLast_trimEnd _), fun he => ?_⟩
    · cases Text.head_trimEnd _ d hd
      exact hc
    · have hblank := (Text.trimEnd_eq_nil_iff _).mp he
      rw [List.all_eq_true.mp hblank c List.mem_cons_self] at hc
      cases hc
  · refine ⟨Text.trimmed_append hhead hne (fun c hc => ?_) (List.cons_ne_nil _ _), by simp⟩
    cases hc
    decide

end Trimmed

/-! ## The end of a line -/

/-- A text with a terminator behind it if the line has one. -/
def endedAs (line s : List Char) : List Char := if isTerminated line then s ++ [terminator] else s

theorem toggleNext_eq (line : List Char) :
    toggleNext line = endedAs (trim line) (switchedText (body (trim line))) := rfl

theorem exists_of_isTerminated {line : List Char} (h : isTerminated line = true) :
    ∃ s, line = s ++ [terminator] :=
  List.getLast?_eq_some_iff.mp (beq_iff_eq.mp h)

theorem containsFlag_terminated (s : List Char) :
    containsFlag (s ++ [terminator]) = containsFlag s := by
  have hnone : containsFlag [terminator] = false := by decide
  rw [containsFlag_append (by decide), hnone, Bool.or_false]

/-- **A line and its body have the same flags.** -/
theorem containsFlag_body (line : List Char) : containsFlag (body line) = containsFlag line := by
  unfold body
  split
  · next h =>
    obtain ⟨s, rfl⟩ := exists_of_isTerminated h
    rw [List.dropLast_concat, containsFlag_trimEnd, containsFlag_terminated]
  · rfl

theorem trimmed_body {line : List Char} (ht : trim line = line) : trim (body line) = body line := by
  unfold body
  split
  · next h =>
    obtain ⟨s, rfl⟩ := exists_of_isTerminated h
    rw [List.dropLast_concat]
    refine Text.trim_of_ends (fun c hc => ?_) (Text.isBlank_getLast_trimEnd s)
    obtain ⟨r, rfl⟩ := List.head?_eq_some_iff.mp (Text.head_trimEnd s c hc)
    exact Text.isBlank_head_of_trimmed ht c rfl
  · exact ht

section EndedAs

variable {s : List Char} (ht : trim s = s) (hne : s ≠ []) (line : List Char)

include ht hne

theorem trim_endedAs : trim (endedAs line s) = endedAs line s := by
  unfold endedAs
  split
  · refine Text.trimmed_append (Text.isBlank_head_of_trimmed ht) hne (fun c hc => ?_)
      (List.cons_ne_nil _ _)
    cases hc
    decide
  · exact ht

theorem hasNext_endedAs : hasNext (endedAs line s) = containsFlag s := by
  rw [hasNext, trim_endedAs ht hne, endedAs]
  split
  · exact containsFlag_terminated s
  · rfl

/-- Switching the flag of a line switches the text before its end, if that has no end of its own. -/
theorem toggleNext_endedAs (hend : isTerminated s = false) :
    toggleNext (endedAs line s) = endedAs line (switchedText s) := by
  have hlast := Text.isBlank_getLast_of_trimmed ht
  have hsame : isTerminated (endedAs line s) = isTerminated line ∧ body (endedAs line s) = s := by
    unfold endedAs
    cases h : isTerminated line with
    | true => exact ⟨by simp [isTerminated], Script.body_terminated hlast⟩
    | false => exact ⟨hend, by simp [body, hend]⟩
  obtain ⟨hterminated, hbody⟩ := hsame
  rw [toggleNext_eq, trim_endedAs ht hne line, hbody]
  unfold endedAs at hterminated ⊢
  rw [hterminated]

end EndedAs

/-! ## Lines -/

/-- A trimmed line without its terminator. -/
def unterminated (line : List Char) : List Char :=
  if isTerminated line then line.dropLast else line

/-- A trimmed line without the blanks right before its terminator. -/
def closedUp (line : List Char) : List Char :=
  if isTerminated line then trimEnd line.dropLast ++ [terminator] else line

theorem endedAs_body (line : List Char) : endedAs line (body line) = closedUp line := by
  unfold endedAs body closedUp
  split
  · rfl
  · rfl

theorem body_ne_nil {line : List Char} (h : HasContent (unterminated line)) : body line ≠ [] := by
  rw [Text.hasContent_iff] at h
  unfold unterminated at h
  unfold body
  split
  · next hend =>
    rw [if_pos hend] at h
    rw [Ne, Text.trimEnd_eq_nil_iff, h]
    exact Bool.false_ne_true
  · next hend =>
    rw [if_neg hend] at h
    rintro rfl
    cases h

/-- **Switching the flag flips it and can be undone.** In a line with something in it, apart from
    the terminator, the flag is there after switching exactly if it was not before. If it was not,
    switching twice gives the trimmed line back, without the blanks right before its terminator. -/
theorem toggleNext_flips {line : List Char} (h : HasContent (unterminated (trim line))) :
    hasNext (toggleNext line) = !hasNext line ∧
      (hasNext line = false → toggleNext (toggleNext line) = closedUp (trim line)) := by
  have ht := trimmed_body (Text.trim_trim line)
  have hne := body_ne_nil h
  obtain ⟨htrim, hnil⟩ := trimmed_switchedText ht hne
  have hnext : hasNext line = containsFlag (body (trim line)) := (containsFlag_body _).symm
  rw [toggleNext_eq]
  refine ⟨?_, fun hnone => ?_⟩
  · rw [hasNext_endedAs htrim hnil, containsFlag_switchedText, hnext]
  · have hflagless : Flagless (body (trim line)) := hnext.symm.trans hnone
    have hend : isTerminated (switchedText (body (trim line))) = false := by
      rw [switchedText_of_flagless hflagless, isTerminated, List.getLast?_append]
      rfl
    rw [toggleNext_endedAs htrim hnil _ hend, switchedText_switchedText ht hflagless, endedAs_body]

/-- A terminator alone has no flag, before and after. -/
example : hasNext (toggleNext [terminator]) = hasNext [terminator] := by decide

/-- A line with flags that are to go and some that are none, and a line with nothing but those. -/
theorem toggleNext_flips_lookalikes :
    let line := " a.png -next -next -nextone -next;x\t; ".toList
    let other := "  a.png x-next -nextone ;\t ;\n".toList
    (HasContent (unterminated (trim line)) ∧ hasNext line = true ∧
      toggleNext line = "a.png -nextone;x;".toList ∧
      hasNext (toggleNext line) = !hasNext line) ∧
    HasContent (unterminated (trim other)) ∧ hasNext other = false ∧
      closedUp (trim other) = "a.png x-next -nextone ;;".toList ∧
      hasNext (toggleNext other) = !hasNext other ∧
      toggleNext (toggleNext other) = closedUp (trim other) := by
  repeat rewrite [String.toList_ofList]
  intro line other
  have hline : HasContent (unterminated (trim line)) := ⟨'a', by decide, by decide⟩
  have hother : HasContent (unterminated (trim other)) := ⟨'a', by decide, by decide⟩
  have hnone : hasNext other = false := by decide
  obtain ⟨hflip, -⟩ := toggleNext_flips hline
  obtain ⟨hflip', hback⟩ := toggleNext_flips hother
  exact ⟨⟨hline, by decide, by decide, hflip⟩, hother, hnone, by decide,
    hflip', hback hnone⟩

end Line
end SceneScript
