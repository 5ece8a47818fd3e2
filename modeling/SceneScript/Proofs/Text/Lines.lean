import Mathlib.Data.List.TakeWhile
import SceneScript.Script.Line

/-!
# Lines, joined and split again

Exporting writes commands one on a line and joins them with line feeds; reading cuts the text at
**every** line break. What the second does to the first is one fact, `nonBlankLines_join`:

> the lines of a joined text are the lines of its parts, one part after the other.

It holds for whatever the parts are, a part with a line break inside included. That a part comes
back as *itself* needs more, and exactly this much more: it holds no line break and is not blank
(`nonBlankLines_of_unbroken`). Everything about saving turns on that second half.

The two corner cases of the cutting are settled here and nowhere else: a break at the very end
opens no line (`splitLines_append_newline_end`), and a carriage return before the joining line
feed adds none.
-/

set_option autoImplicit false

namespace SceneScript
namespace Text

/-- The lines of a text that hold more than blanks, as they stand in it. -/
def nonBlankLines (s : List Char) : List (List Char) :=
  (splitLines s).filter fun line => !isBlankText line

/-- No line break stands in the text. -/
def Unbroken (s : List Char) : Prop := ∀ c ∈ s, isLineBreak c = false

instance (s : List Char) : Decidable (Unbroken s) :=
  List.decidableBAll (fun c => isLineBreak c = false) s

@[simp] theorem unbroken_nil : Unbroken [] := fun _ h => nomatch h

@[simp] theorem unbroken_cons (c : Char) (s : List Char) :
    Unbroken (c :: s) ↔ isLineBreak c = false ∧ Unbroken s := List.forall_mem_cons

@[simp] theorem unbroken_append (s t : List Char) :
    Unbroken (s ++ t) ↔ Unbroken s ∧ Unbroken t := List.forall_mem_append

/-! ## Blank texts and trimmed ones -/

theorem trimStart_eq_nil_iff (s : List Char) : trimStart s = [] ↔ isBlankText s = true := by
  unfold trimStart isBlankText
  rw [List.dropWhile_eq_nil_iff, List.all_eq_true]

theorem trim_eq_nil_iff (s : List Char) : trim s = [] ↔ isBlankText s = true := by
  constructor
  · intro h
    have hb := (trimEnd_eq_nil_iff (trimStart s)).mp h
    cases hs : trimStart s with
    | nil => exact (trimStart_eq_nil_iff s).mp hs
    | cons c r =>
      -- what is left starts with no blank, so it cannot be all blank
      rw [hs] at hb
      have hc : isBlank c = true := (List.all_eq_true.mp hb) c List.mem_cons_self
      rw [isBlank_head_trimStart s c (by rw [hs]; rfl)] at hc
      exact absurd hc (by simp)
  · intro h
    unfold trim
    rw [(trimStart_eq_nil_iff s).mpr h]
    rfl

/-- A trimmed line is there exactly when the line is not blank. -/
theorem contentLines_eq_map_trim (s : List Char) :
    contentLines s = (nonBlankLines s).map trim := by
  unfold contentLines nonBlankLines
  rw [List.filter_map]
  congr 2
  funext line
  have h := trim_eq_nil_iff line
  cases hb : isBlankText line with
  | true => simp [h.mpr hb]
  | false =>
    have hne : trim line ≠ [] := fun e => by simp [hb] at h; exact h e
    simp [hne]

/-! ## Trimming cuts a piece out -/

/-- What trimming takes off the end is blank. -/
theorem exists_trimEnd_append (s : List Char) :
    ∃ blanks, isBlankText blanks = true ∧ trimEnd s ++ blanks = s := by
  induction s with
  | nil => exact ⟨[], rfl, rfl⟩
  | cons c s ih =>
    obtain ⟨blanks, hb, hs⟩ := ih
    cases ht : trimEnd s with
    | nil =>
      rw [ht, List.nil_append] at hs
      subst hs
      rw [trimEnd_cons_of_nil ht]
      split
      · next hc => exact ⟨c :: blanks, by simpa [isBlankText, hc] using hb, rfl⟩
      · exact ⟨blanks, hb, rfl⟩
    | cons d r =>
      rw [ht] at hs
      rw [trimEnd_cons_of_cons ht]
      exact ⟨blanks, hb, congrArg (c :: ·) hs⟩

theorem trimEnd_isPrefix (s : List Char) : trimEnd s <+: s := by
  obtain ⟨blanks, -, hs⟩ := exists_trimEnd_append s
  exact ⟨blanks, hs⟩

theorem trim_isInfix (s : List Char) : trim s <:+: s :=
  (trimEnd_isPrefix _).isInfix.trans (List.dropWhile_suffix _).isInfix

/-! ## Cutting a joined text -/

theorem splitLines_ne_nil_of_newline (l r : List Char) : splitLines (l ++ '\n' :: r) ≠ [] := by
  induction l with
  | nil => simp [splitLines, isLineBreak, lineBreakRanges, Ranges.has]
  | cons c l ih =>
    rw [List.cons_append, splitLines]
    split
    · exact ih
    · split
      · simp
      · split <;> simp

/-- A text that goes on behind a line feed is cut there. -/
theorem splitLines_append_newline (l r : List Char) :
    splitLines (l ++ '\n' :: r) = splitLines (l ++ ['\n']) ++ splitLines r := by
  induction l with
  | nil => simp [splitLines, isLineBreak, lineBreakRanges, Ranges.has]
  | cons c l ih =>
    have hhead : (l ++ '\n' :: r).head? = (l ++ ['\n']).head? := by cases l <;> rfl
    rw [List.cons_append, List.cons_append, splitLines, splitLines, hhead]
    by_cases hr : c = '\r' ∧ (l ++ ['\n']).head? = some '\n'
    · rw [if_pos hr, if_pos hr, ih]
    · rw [if_neg hr, if_neg hr]
      by_cases hb : isLineBreak c = true
      · rw [if_pos hb, if_pos hb, ih]
        rfl
      · rw [if_neg hb, if_neg hb, ih]
        cases hl : splitLines (l ++ ['\n']) with
        | nil => exact absurd hl (splitLines_ne_nil_of_newline l [])
        | cons line lines => rfl

theorem splitLines_append_newline_end (l : List Char) :
    splitLines (l ++ ['\n']) = splitLines l ∨ splitLines (l ++ ['\n']) = splitLines l ++ [[]] := by
  induction l with
  | nil => exact Or.inr (by simp [splitLines, isLineBreak, lineBreakRanges, Ranges.has])
  | cons c l ih =>
    rw [List.cons_append, splitLines, splitLines]
    by_cases hr : c = '\r' ∧ l.head? = some '\n'
    · have hr' : c = '\r' ∧ (l ++ ['\n']).head? = some '\n' := by
        cases l with
        | nil => exact absurd hr.2 (by simp)
        | cons d l => exact hr
      rw [if_pos hr, if_pos hr']
      exact ih
    · rw [if_neg hr]
      by_cases hb : isLineBreak c = true
      · rw [if_pos hb]
        by_cases hr' : c = '\r' ∧ (l ++ ['\n']).head? = some '\n'
        · -- the return stands at the very end: the two breaks are one
          have hl : l = [] := by
            cases l with
            | nil => rfl
            | cons d l => exact absurd hr' hr
          rw [if_pos hr', hl, hr'.1]
          exact Or.inl (by decide)
        · rw [if_neg hr', if_pos hb]
          rcases ih with h | h
          · exact Or.inl (by rw [h])
          · exact Or.inr (by rw [h]; rfl)
      · rw [if_neg hb]
        have hr' : ¬ (c = '\r' ∧ (l ++ ['\n']).head? = some '\n') := fun h => hb (by
          rw [h.1]
          decide)
        rw [if_neg hr', if_neg hb]
        cases hl : splitLines l with
        | nil =>
          rcases ih with h | h
          · exact absurd (h.trans hl) (splitLines_ne_nil_of_newline l [])
          · rw [h, hl]
            exact Or.inl rfl
        | cons line lines =>
          rcases ih with h | h
          · exact Or.inl (by rw [h, hl])
          · exact Or.inr (by rw [h, hl]; rfl)

theorem nonBlankLines_append_newline (l r : List Char) :
    nonBlankLines (l ++ '\n' :: r) = nonBlankLines l ++ nonBlankLines r := by
  unfold nonBlankLines
  rw [splitLines_append_newline, List.filter_append]
  rcases splitLines_append_newline_end l with h | h
  · rw [h]
  · rw [h, List.filter_append]
    simp [isBlankText]

/-- **The lines of a joined text are the lines of its parts.** -/
theorem nonBlankLines_join (parts : List (List Char)) :
    nonBlankLines (Line.join parts) = parts.flatMap nonBlankLines := by
  induction parts with
  | nil => rfl
  | cons l parts ih =>
    cases parts with
    | nil =>
      have hj : Line.join [l] = l := by simp [Line.join, List.intercalate]
      rw [hj]
      simp
    | cons m parts =>
      have hj : Line.join (l :: m :: parts) = l ++ '\n' :: Line.join (m :: parts) := by
        simp [Line.join, List.intercalate, List.intersperse]
      rw [hj, nonBlankLines_append_newline, ih]
      rfl

theorem contentLines_join (parts : List (List Char)) :
    contentLines (Line.join parts) = parts.flatMap contentLines := by
  rw [contentLines_eq_map_trim, nonBlankLines_join, List.map_flatMap]
  congr 1
  funext part
  exact (contentLines_eq_map_trim part).symm

/-! ## Parts that come back as themselves -/

theorem splitLines_of_unbroken {l : List Char} (hb : Unbroken l)
    (hne : l ≠ []) : splitLines l = [l] := by
  induction l with
  | nil => exact absurd rfl hne
  | cons c l ih =>
    have hc : isLineBreak c = false := hb c List.mem_cons_self
    have hr : ¬ (c = '\r' ∧ l.head? = some '\n') := fun h => by
      rw [h.1] at hc
      exact absurd hc (by decide)
    rw [splitLines, if_neg hr, if_neg (by simp [hc])]
    cases l with
    | nil => rfl
    | cons d l => rw [ih (fun x hx => hb x (List.mem_cons_of_mem _ hx)) (by simp)]

theorem nonBlankLines_of_unbroken {l : List Char} (hb : Unbroken l)
    (hl : isBlankText l = false) : nonBlankLines l = [l] := by
  have hne : l ≠ [] := fun h => by
    rw [h] at hl
    exact absurd hl (by decide)
  unfold nonBlankLines
  rw [splitLines_of_unbroken hb hne]
  simp [hl]

/-- No line that is read holds a line break, and none is blank. -/
theorem of_mem_nonBlankLines {s l : List Char} (h : l ∈ nonBlankLines s) :
    Unbroken l ∧ isBlankText l = false := by
  unfold nonBlankLines at h
  obtain ⟨hm, hb⟩ := List.mem_filter.mp h
  exact ⟨isLineBreak_of_mem_splitLines s l hm, by simpa using hb⟩

/-- Lines taken from a text can be joined and are the lines of what that gives. -/
theorem nonBlankLines_join_of_mem {s : List Char} {lines : List (List Char)}
    (h : ∀ l ∈ lines, l ∈ nonBlankLines s) : nonBlankLines (Line.join lines) = lines := by
  rw [nonBlankLines_join]
  induction lines with
  | nil => rfl
  | cons l lines ih =>
    have hl := of_mem_nonBlankLines (h l List.mem_cons_self)
    rw [List.flatMap_cons, nonBlankLines_of_unbroken hl.1 hl.2,
      ih fun x hx => h x (List.mem_cons_of_mem _ hx)]
    rfl

theorem contentLines_of_unbroken {l : List Char} (hb : Unbroken l) (ht : trim l = l)
    (hne : l ≠ []) : contentLines l = [l] := by
  have hl : isBlankText l = false := by
    rw [← Bool.not_eq_true, ← trim_eq_nil_iff, ht]
    exact hne
  rw [contentLines_eq_map_trim, nonBlankLines_of_unbroken hb hl, List.map_singleton, ht]

theorem of_mem_contentLines {s l : List Char} (h : l ∈ contentLines s) :
    Unbroken l ∧ trim l = l ∧ l ≠ [] := by
  unfold contentLines at h
  obtain ⟨hm, hne⟩ := List.mem_filter.mp h
  obtain ⟨line, hline, rfl⟩ := List.mem_map.mp hm
  refine ⟨fun c hc => isLineBreak_of_mem_splitLines s line hline c ?_, trim_trim line, ?_⟩
  · exact (trim_isInfix line).subset hc
  · rintro h0
    rw [h0] at hne
    cases hne

/-! ## Parts that come back in pieces -/

theorem subset_of_mem_splitLines {s line : List Char} (h : line ∈ splitLines s) : line ⊆ s := by
  induction s generalizing line with
  | nil => cases h
  | cons c s ih =>
    rw [splitLines] at h
    split at h
    · exact List.subset_cons_of_subset c (ih h)
    split at h
    · rcases List.mem_cons.mp h with rfl | h
      · exact List.nil_subset _
      · exact List.subset_cons_of_subset c (ih h)
    split at h
    · rw [List.mem_singleton.mp h]
      exact List.cons_subset_cons c (List.nil_subset s)
    · next l ls hs =>
      rw [hs] at ih
      rcases List.mem_cons.mp h with rfl | h
      · exact List.cons_subset_cons c (ih List.mem_cons_self)
      · exact List.subset_cons_of_subset c (ih (List.mem_cons_of_mem l h))

/-- A blank part does not come back. -/
theorem nonBlankLines_of_blank {l : List Char} (hl : isBlankText l = true) :
    nonBlankLines l = [] := by
  unfold nonBlankLines
  refine List.filter_eq_nil_iff.mpr fun line hline => ?_
  have hblank : isBlankText line = true := List.all_eq_true.mpr fun c hc =>
    List.all_eq_true.mp hl c (subset_of_mem_splitLines hline hc)
  simp [hblank]

/-- Parts that are whole lines, if they are not blank, are the lines of the joined text. -/
theorem nonBlankLines_join_of_unbroken {parts : List (List Char)}
    (h : ∀ part ∈ parts, isBlankText part = false → Unbroken part) :
    nonBlankLines (Line.join parts) = parts.filter fun part => !isBlankText part := by
  rw [nonBlankLines_join]
  induction parts with
  | nil => rfl
  | cons part parts ih =>
    obtain ⟨hpart, hparts⟩ := List.forall_mem_cons.mp h
    rw [List.flatMap_cons, ih hparts]
    cases hb : isBlankText part with
    | true => rw [nonBlankLines_of_blank hb, List.filter_cons_of_neg (by simp [hb])]; rfl
    | false =>
      rw [nonBlankLines_of_unbroken (hpart hb) hb, List.filter_cons_of_pos (by simp [hb])]
      rfl

/-- A text that is broken has a first line break. -/
theorem exists_first_break {s : List Char} (h : ¬ Unbroken s) :
    ∃ a b r, s = a ++ b :: r ∧ Unbroken a ∧ isLineBreak b = true := by
  induction s with
  | nil => exact absurd unbroken_nil h
  | cons c s ih =>
    cases hc : isLineBreak c with
    | true => exact ⟨[], c, s, rfl, unbroken_nil, hc⟩
    | false =>
      obtain ⟨a, b, r, rfl, ha, hb⟩ := ih fun hs => h ((unbroken_cons c s).mpr ⟨hc, hs⟩)
      exact ⟨c :: a, b, r, rfl, (unbroken_cons c a).mpr ⟨hc, ha⟩, hb⟩

/-- A line break closes an empty line. A line feed behind a carriage return belongs to the same
    break. -/
theorem exists_splitLines_break {b : Char} (hb : isLineBreak b = true) (r : List Char) :
    ∃ r', splitLines (b :: r) = [] :: splitLines r' ∧ (r = r' ∨ r = '\n' :: r') := by
  rw [splitLines]
  split
  · next hc =>
    obtain ⟨r', rfl⟩ := List.head?_eq_some_iff.mp hc.2
    exact ⟨r', by rw [splitLines, if_neg (by simp), if_pos (by decide)], .inr rfl⟩
  · exact ⟨r, rfl, .inl rfl⟩

/-- **What stands before the first line break is a line.** -/
theorem mem_splitLines_append_break {a r : List Char} {b : Char} (ha : Unbroken a)
    (hb : isLineBreak b = true) : ∃ lines, splitLines (a ++ b :: r) = a :: lines := by
  induction a with
  | nil =>
    obtain ⟨r', hs, -⟩ := exists_splitLines_break hb r
    exact ⟨splitLines r', hs⟩
  | cons c a ih =>
    obtain ⟨hc, ha⟩ := (unbroken_cons c a).mp ha
    obtain ⟨lines, hs⟩ := ih ha
    have hr : ¬ (c = '\r' ∧ (a ++ b :: r).head? = some '\n') := fun h => by
      rw [h.1] at hc
      exact absurd hc (by decide)
    exact ⟨lines, by rw [List.cons_append, splitLines, if_neg hr, if_neg (by simp [hc]), hs]⟩

theorem isBlank_of_isLineBreak {c : Char} (h : isLineBreak c = true) : isBlank c = true := by
  unfold isLineBreak lineBreakRanges Ranges.has at h
  unfold isBlank blankRanges Ranges.has
  simp only [List.any_cons, List.any_nil, Bool.or_false, Bool.or_eq_true, Bool.and_eq_true,
    decide_eq_true_eq] at h ⊢
  omega

/-- Some character of the text is not blank. -/
def HasContent (s : List Char) : Prop := ∃ c ∈ s, isBlank c = false

theorem hasContent_iff (s : List Char) : HasContent s ↔ isBlankText s = false := by
  unfold HasContent isBlankText
  rw [List.all_eq_false]
  simp

theorem HasContent.tail {c : Char} {s : List Char} (h : HasContent (c :: s))
    (hc : isBlank c = true) : HasContent s := by
  obtain ⟨d, hd, hb⟩ := h
  refine ⟨d, (List.mem_cons.mp hd).resolve_left fun e => ?_, hb⟩
  rw [e, hc] at hb
  cases hb

/-- Content is cut into lines, one of which has content. -/
theorem exists_content_splitLines {s : List Char} (h : HasContent s) :
    ∃ l ∈ splitLines s, HasContent l := by
  induction s with
  | nil =>
    obtain ⟨c, hc, -⟩ := h
    cases hc
  | cons c s ih =>
    rw [splitLines]
    split
    · next hr => exact ih (h.tail (by rw [hr.1]; decide))
    · split
      · next hc =>
        obtain ⟨l, hl, hlb⟩ := ih (h.tail (isBlank_of_isLineBreak hc))
        exact ⟨l, List.mem_cons_of_mem _ hl, hlb⟩
      · split
        · next hs =>
          refine ⟨[c], List.mem_singleton_self _, ?_⟩
          obtain ⟨d, hd, hb⟩ := h
          rcases List.mem_cons.mp hd with rfl | hd
          · exact ⟨d, List.mem_singleton_self _, hb⟩
          · obtain ⟨l, hl, -⟩ := ih ⟨d, hd, hb⟩
            rw [hs] at hl
            cases hl
        · next line lines hs =>
          obtain ⟨d, hd, hb⟩ := h
          rcases List.mem_cons.mp hd with rfl | hd
          · exact ⟨d :: line, List.mem_cons_self, d, List.mem_cons_self, hb⟩
          · obtain ⟨l, hl, e, he, heb⟩ := ih ⟨d, hd, hb⟩
            rw [hs] at hl
            rcases List.mem_cons.mp hl with rfl | hl
            · exact ⟨c :: l, List.mem_cons_self, e, List.mem_cons_of_mem _ he, heb⟩
            · exact ⟨l, List.mem_cons_of_mem _ hl, e, he, heb⟩

/-- What stands behind a line break is not on the first line. -/
theorem exists_content_behind_break {a r : List Char} {b : Char} (hb : isLineBreak b = true)
    (hr : HasContent r) :
    ∃ line lines, splitLines (a ++ b :: r) = line :: lines ∧ ∃ l ∈ lines, HasContent l := by
  induction a with
  | nil =>
    obtain ⟨r', hs, hrest⟩ := exists_splitLines_break hb r
    have hr' : HasContent r' := by
      rcases hrest with rfl | rfl
      · exact hr
      · exact hr.tail (by decide)
    exact ⟨[], splitLines r', hs, exists_content_splitLines hr'⟩
  | cons c a ih =>
    obtain ⟨line, lines, hs, l, hl, hlb⟩ := ih
    rw [List.cons_append, splitLines, hs]
    split
    · exact ⟨line, lines, rfl, l, hl, hlb⟩
    · split
      · exact ⟨[], line :: lines, rfl, l, List.mem_cons_of_mem _ hl, hlb⟩
      · exact ⟨c :: line, lines, rfl, l, hl, hlb⟩

/-- **A part that is broken between content comes back as more than one line.** -/
theorem one_lt_length_contentLines {a r : List Char} {b c : Char} (hb : isLineBreak b = true)
    (hc : isBlank c = false) (hr : HasContent r) :
    1 < (contentLines (c :: (a ++ b :: r))).length := by
  obtain ⟨line, lines, hs, l, hl, hlb⟩ := exists_content_behind_break (a := a) hb hr
  have hbreak : isLineBreak c = false := by
    rw [← Bool.not_eq_true]
    intro h
    rw [isBlank_of_isLineBreak h] at hc
    cases hc
  have hret : ¬ (c = '\r' ∧ (a ++ b :: r).head? = some '\n') := fun h => by
    rw [h.1] at hc
    exact absurd hc (by decide)
  have hfirst : isBlankText (c :: line) = false :=
    (hasContent_iff _).mp ⟨c, List.mem_cons_self, hc⟩
  rw [contentLines_eq_map_trim, List.length_map]
  unfold nonBlankLines
  rw [splitLines, if_neg hret, if_neg (by simp [hbreak]), hs]
  dsimp only
  rw [List.filter_cons_of_pos (by simp [hfirst]), List.length_cons, Nat.lt_succ_iff]
  refine List.length_pos_of_mem (List.mem_filter.mpr ⟨hl, ?_⟩)
  simp [(hasContent_iff l).mp hlb]

end Text
end SceneScript
