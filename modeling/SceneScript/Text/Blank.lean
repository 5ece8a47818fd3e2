import SceneScript.Text.Ranges

/-!
# Blank characters, line breaks and trimming

**Blank** is the Unicode white space together with the four information
separators U+001C to U+001F. A script is cut at every **line break**, which is
more than the newline: the vertical tab, the form feed, three of the
separators, U+0085 and the two separators of U+2028 break a line as well.

Text is worked on as a list of characters, so that every function here is a
structural recursion. The main facts are that a trimmed text **neither starts nor
ends with a blank**, that a text of which this holds is left as it is, and that
cutting into lines leaves no line break inside a line.
-/

set_option autoImplicit false

namespace SceneScript
namespace Text

/-! ## The two classes -/

/-- The blank characters, Unicode 14. -/
def blankRanges : Ranges :=
  [(0x09, 0x0D), (0x1C, 0x20), (0x85, 0x85), (0xA0, 0xA0), (0x1680, 0x1680), (0x2000, 0x200A),
   (0x2028, 0x2029), (0x202F, 0x202F), (0x205F, 0x205F), (0x3000, 0x3000)]

/-- The characters that end a line. -/
def lineBreakRanges : Ranges :=
  [(0x0A, 0x0D), (0x1C, 0x1E), (0x85, 0x85), (0x2028, 0x2029)]

def isBlank (c : Char) : Bool := blankRanges.has c

def isLineBreak (c : Char) : Bool := lineBreakRanges.has c

/-! ## Trimming -/

/-- The text without its leading blanks. -/
def trimStart (s : List Char) : List Char := s.dropWhile isBlank

/-- The text without its trailing blanks. -/
def trimEnd : List Char → List Char
  | [] => []
  | c :: s =>
    match trimEnd s with
    | [] => if isBlank c then [] else [c]
    | d :: r => c :: d :: r

/-- The text without the blanks around it. -/
def trim (s : List Char) : List Char := trimEnd (trimStart s)

/-- Nothing but blanks. -/
def isBlankText (s : List Char) : Bool := s.all isBlank

/-! ### What trimming does -/

theorem trimStart_of_head {s : List Char} (h : ∀ c, s.head? = some c → isBlank c = false) :
    trimStart s = s := by
  cases s with
  | nil => rfl
  | cons c s => simp [trimStart, h c rfl]

theorem isBlank_head_trimStart (s : List Char) (c : Char) (h : (trimStart s).head? = some c) :
    isBlank c = false := by
  induction s with
  | nil => simp [trimStart] at h
  | cons d s ih =>
    unfold trimStart at h ih
    rw [List.dropWhile_cons] at h
    split at h
    · exact ih h
    · next hd =>
      cases h
      simpa using hd

theorem trimEnd_cons_of_nil {s : List Char} (h : trimEnd s = []) (c : Char) :
    trimEnd (c :: s) = if isBlank c then [] else [c] := by
  rw [trimEnd, h]

theorem trimEnd_cons_of_cons {s : List Char} {d : Char} {r : List Char} (h : trimEnd s = d :: r)
    (c : Char) : trimEnd (c :: s) = c :: d :: r := by
  rw [trimEnd, h]

theorem trimEnd_eq_nil_iff (s : List Char) : trimEnd s = [] ↔ isBlankText s = true := by
  induction s with
  | nil => exact iff_of_true rfl rfl
  | cons c s ih =>
    cases hs : trimEnd s with
    | nil =>
      have hb := ih.mp hs
      rw [trimEnd_cons_of_nil hs]
      by_cases hc : isBlank c <;> simp_all [isBlankText]
    | cons d r =>
      have hb : ¬ isBlankText s = true := fun h => by simp [ih.mpr h] at hs
      rw [trimEnd_cons_of_cons hs]
      simp_all [isBlankText]

theorem isBlank_getLast_trimEnd (s : List Char) (c : Char)
    (h : (trimEnd s).getLast? = some c) : isBlank c = false := by
  induction s with
  | nil => cases h
  | cons d s ih =>
    cases hs : trimEnd s with
    | nil =>
      rw [trimEnd_cons_of_nil hs] at h
      by_cases hd : isBlank d <;> simp_all
    | cons e r =>
      rw [trimEnd_cons_of_cons hs] at h
      rw [hs] at ih
      exact ih (by simpa [List.getLast?_cons_cons] using h)

theorem trimEnd_of_getLast {s : List Char}
    (h : ∀ c, s.getLast? = some c → isBlank c = false) : trimEnd s = s := by
  induction s with
  | nil => rfl
  | cons d s ih =>
    cases s with
    | nil => rw [trimEnd_cons_of_nil rfl, h d rfl, if_neg Bool.false_ne_true]
    | cons e r =>
      exact trimEnd_cons_of_cons
        (ih fun c hc => h c (by simpa [List.getLast?_cons_cons] using hc)) d

/-- Cutting off the end keeps the start, if anything is left. -/
theorem head_trimEnd (s : List Char) (c : Char) (h : (trimEnd s).head? = some c) :
    s.head? = some c := by
  cases s with
  | nil => cases h
  | cons d s =>
    cases hs : trimEnd s with
    | nil =>
      rw [trimEnd_cons_of_nil hs] at h
      by_cases hd : isBlank d <;> simp_all
    | cons e r => rwa [trimEnd_cons_of_cons hs] at h

/-- A trimmed text does not start with a blank. -/
theorem isBlank_head_trim (s : List Char) (c : Char) (h : (trim s).head? = some c) :
    isBlank c = false :=
  isBlank_head_trimStart s c (head_trimEnd _ c h)

/-- A trimmed text does not end with a blank. -/
theorem isBlank_getLast_trim (s : List Char) (c : Char) (h : (trim s).getLast? = some c) :
    isBlank c = false :=
  isBlank_getLast_trimEnd _ c h

/-- A text without blanks at its ends is left as it is. -/
theorem trim_of_ends {s : List Char} (hs : ∀ c, s.head? = some c → isBlank c = false)
    (he : ∀ c, s.getLast? = some c → isBlank c = false) : trim s = s := by
  rw [trim, trimStart_of_head hs, trimEnd_of_getLast he]

theorem trim_trim (s : List Char) : trim (trim s) = trim s :=
  trim_of_ends (isBlank_head_trim s) (isBlank_getLast_trim s)

/-! ## Lines -/

/-- The lines of a text, without the breaks that end them. A carriage return
    before a newline adds nothing to the break that the newline is, and a break
    at the very end opens no further line. -/
def splitLines : List Char → List (List Char)
  | [] => []
  | c :: s =>
    if c = '\r' ∧ s.head? = some '\n' then splitLines s
    else if isLineBreak c then [] :: splitLines s
    else
      match splitLines s with
      | [] => [[c]]
      | line :: lines => (c :: line) :: lines

/-- No line holds a line break. -/
theorem isLineBreak_of_mem_splitLines (s line : List Char) (h : line ∈ splitLines s) (c : Char)
    (hc : c ∈ line) : isLineBreak c = false := by
  induction s generalizing line with
  | nil => simp [splitLines] at h
  | cons d s ih =>
    rw [splitLines] at h
    split at h
    · exact ih line h hc
    · split at h
      · rcases List.mem_cons.mp h with rfl | h
        · simp at hc
        · exact ih line h hc
      · next hd =>
        split at h
        · next hs =>
          simp only [List.mem_singleton] at h
          subst h
          simp only [List.mem_singleton] at hc
          subst hc
          simpa using hd
        · next l ls hs =>
          rcases List.mem_cons.mp h with rfl | h
          · rcases List.mem_cons.mp hc with rfl | hc
            · simpa using hd
            · exact ih l (by simp [hs]) hc
          · exact ih line (by simp [hs, h]) hc

/-- The lines of a text that hold more than blanks, trimmed. -/
def contentLines (s : List Char) : List (List Char) :=
  ((splitLines s).map trim).filter fun line => !line.isEmpty

end Text
end SceneScript
