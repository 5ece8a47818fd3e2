import SceneScript.Proofs.Text.Lines

/-!
# Clean texts

Paths, targets and the names and values of parameters stand in a line as they are, without quotes.
What can stand there and be found again is a **clean** text: it has no blank at its ends, no line
break, and no mark, the space and hyphen that open a parameter. A piece cut out of a clean text and
trimmed is clean (`Clean.piece`), so whatever was read from a line can be written to one.
-/

set_option autoImplicit false

namespace SceneScript
namespace Text

/-- What opens a parameter. -/
def mark : List Char := [' ', '-']

/-- No mark stands in the text. -/
def Unmarked (s : List Char) : Prop := ¬ mark <:+: s

/-- The text has no blank at its ends, no line break and no mark. -/
structure Clean (s : List Char) : Prop where
  trimmed : trim s = s
  unbroken : Unbroken s
  unmarked : Unmarked s

instance (s : List Char) : Decidable (Unmarked s) := inferInstanceAs (Decidable (¬ mark <:+: s))

instance (s : List Char) : Decidable (Clean s) :=
  decidable_of_iff (trim s = s ∧ Unbroken s ∧ Unmarked s)
    ⟨fun h => ⟨h.1, h.2.1, h.2.2⟩, fun h => ⟨h.trimmed, h.unbroken, h.unmarked⟩⟩

/-! ## Trimming cuts a piece out -/

theorem Unmarked.piece {s t : List Char} (h : Unmarked s) (ht : t <:+: s) : Unmarked t :=
  fun hm => h (hm.trans ht)

theorem Unbroken.piece {s t : List Char} (h : Unbroken s) (ht : t <:+: s) : Unbroken t :=
  fun c hc => h c (ht.subset hc)

/-- **A piece of a clean text is clean once it is trimmed.** -/
theorem Clean.piece {s t : List Char} (h : Clean s) (ht : t <:+: s) : Clean (trim t) where
  trimmed := trim_trim t
  unbroken := h.unbroken.piece ((trim_isInfix t).trans ht)
  unmarked := h.unmarked.piece ((trim_isInfix t).trans ht)

theorem clean_nil : Clean [] := ⟨rfl, unbroken_nil, by decide⟩

/-- A string by its letters, so that a fixed one is decided as a list. -/
theorem clean_ofList {letters : List Char} (h : Clean letters) :
    Clean (String.ofList letters).toList := by
  rwa [String.toList_ofList]

/-! ## The ends of a trimmed text -/

theorem isBlank_head_of_trimmed {s : List Char} (h : trim s = s) :
    ∀ c, s.head? = some c → isBlank c = false := by
  intro c hc
  rw [← h] at hc
  exact isBlank_head_trim s c hc

theorem isBlank_getLast_of_trimmed {s : List Char} (h : trim s = s) :
    ∀ c, s.getLast? = some c → isBlank c = false := by
  intro c hc
  rw [← h] at hc
  exact isBlank_getLast_trim s c hc

/-- Two texts that are trimmed, one behind the other with something between them that is not
    empty. -/
theorem trimmed_append {s t : List Char} (hs : ∀ c, s.head? = some c → isBlank c = false)
    (hne : s ≠ []) (ht : ∀ c, t.getLast? = some c → isBlank c = false) (hne' : t ≠ []) :
    trim (s ++ t) = s ++ t := by
  refine trim_of_ends (fun c hc => hs c ?_) (fun c hc => ht c ?_)
  · obtain ⟨d, r, rfl⟩ := List.exists_cons_of_ne_nil hne
    exact hc
  · rw [List.getLast?_append] at hc
    cases hl : t.getLast? with
    | none => exact absurd (List.getLast?_eq_none_iff.mp hl) hne'
    | some x => rwa [hl] at hc

/-- What a text without a blank at the ends starts with, it starts with when it is trimmed with
    more behind it. -/
theorem prefix_trim_append {w : List Char} (hs : ∀ c, w.head? = some c → isBlank c = false)
    (he : ∀ c, w.getLast? = some c → isBlank c = false) (hne : w ≠ []) (t : List Char) :
    w <+: trim (w ++ t) := by
  have hstart : trimStart (w ++ t) = w ++ t := by
    refine trimStart_of_head fun c hc => hs c ?_
    obtain ⟨d, r, rfl⟩ := List.exists_cons_of_ne_nil hne
    exact hc
  unfold trim
  rw [hstart]
  clear hstart hs
  induction w with
  | nil => exact absurd rfl hne
  | cons c w ih =>
    rw [List.cons_append]
    cases w with
    | nil =>
      have hc : isBlank c = false := he c rfl
      cases ht : trimEnd ([] ++ t) with
      | nil =>
        rewrite [trimEnd_cons_of_nil ht, hc, if_neg Bool.false_ne_true]
        exact List.prefix_rfl
      | cons d r =>
        rw [trimEnd_cons_of_cons ht]
        exact List.cons_prefix_cons.mpr ⟨rfl, List.nil_prefix⟩
    | cons d w =>
      have hp := ih (fun x hx => he x (by rwa [List.getLast?_cons_cons])) (by simp)
      cases hw : trimEnd (d :: w ++ t) with
      | nil =>
        rw [hw] at hp
        exact absurd (List.prefix_nil.mp hp) (by simp)
      | cons x r =>
        rw [hw] at hp
        rw [trimEnd_cons_of_cons hw]
        exact List.cons_prefix_cons.mpr ⟨rfl, hp⟩

/-! ## Marks -/

theorem unmarked_cons (c : Char) (s : List Char) :
    Unmarked (c :: s) ↔ ¬ (c = ' ' ∧ s.head? = some '-') ∧ Unmarked s := by
  have hp : mark <+: c :: s ↔ c = ' ' ∧ s.head? = some '-' := by
    unfold mark
    rw [List.cons_prefix_cons]
    cases s with
    | nil => simp
    | cons d s => simp [List.cons_prefix_cons, eq_comm]
  unfold Unmarked
  rw [List.infix_cons_iff, hp, not_or]

/-- A character that is no part of a mark keeps two texts apart. -/
theorem unmarked_append_cons {s t : List Char} {c : Char} (hs : Unmarked s) (ht : Unmarked t)
    (h1 : c ≠ ' ') (h2 : c ≠ '-') : Unmarked (s ++ c :: t) := by
  induction s with
  | nil => exact (unmarked_cons c t).mpr ⟨fun h => h1 h.1, ht⟩
  | cons d s ih =>
    obtain ⟨hd, hs'⟩ := (unmarked_cons d s).mp hs
    refine (unmarked_cons d _).mpr ⟨fun h => hd ⟨h.1, ?_⟩, ih hs'⟩
    cases s with
    | nil => exact absurd (Option.some.inj h.2) h2
    | cons e s => exact h.2

end Text
end SceneScript
