import Mathlib.Algebra.Group.Nat.Defs
import SceneScript.Text.Blank
import SceneScript.Text.Numeral

/-!
# Digits that were written

Numbers are written with the ten ASCII digits, and read with the digits of every script. On what
was written the two agree: **the digits of a number are read as that number**
(`ofDigits_toDigits`, `readDigits_toDigits`). A digit is neither blank nor a line break, nor is any
other printable ASCII character.
-/

set_option autoImplicit false

namespace SceneScript
namespace Text

/-! ## Printable ASCII -/

/-- A character of ASCII that is seen. -/
def Visible (c : Char) : Prop := 0x20 < c.toNat ∧ c.toNat < 0x7F

instance (c : Char) : Decidable (Visible c) := inferInstanceAs (Decidable (_ ∧ _))

theorem Visible.isBlank {c : Char} (h : Visible c) : isBlank c = false := by
  obtain ⟨h1, h2⟩ := h
  unfold Text.isBlank blankRanges Ranges.has
  simp only [List.any_cons, List.any_nil, Bool.or_false, Bool.or_eq_false_iff,
    Bool.and_eq_false_iff, decide_eq_false_iff_not]
  omega

theorem Visible.isLineBreak {c : Char} (h : Visible c) : isLineBreak c = false := by
  obtain ⟨h1, h2⟩ := h
  unfold Text.isLineBreak lineBreakRanges Ranges.has
  simp only [List.any_cons, List.any_nil, Bool.or_false, Bool.or_eq_false_iff,
    Bool.and_eq_false_iff, decide_eq_false_iff_not]
  omega

theorem toNat_of_isDigit {c : Char} (h : c.isDigit = true) : 0x30 ≤ c.toNat ∧ c.toNat < 0x3A := by
  unfold Char.isDigit at h
  simp only [ge_iff_le, Bool.and_eq_true, decide_eq_true_eq] at h
  obtain ⟨h1, h2⟩ := h
  have h1' : 48 ≤ c.toNat := UInt32.le_iff_toNat_le.mp h1
  have h2' : c.toNat ≤ 57 := UInt32.le_iff_toNat_le.mp h2
  omega

theorem visible_of_isDigit {c : Char} (h : c.isDigit = true) : Visible c := by
  have := toNat_of_isDigit h
  unfold Visible
  omega

/-! ## Reading digits -/

theorem digitValue?_of_isDigit {c : Char} (h : c.isDigit = true) :
    digitValue? c = some (c.toNat - '0'.toNat) := by
  obtain ⟨h1, h2⟩ := toNat_of_isDigit h
  unfold digitValue? digitZeros
  rw [List.findSome?_cons, if_pos ⟨h1, h2⟩]
  rfl

theorem leadingDigits_of_isDigit {s : List Char} (h : ∀ c ∈ s, c.isDigit = true) :
    leadingDigits s = digitValues s := by
  induction s with
  | nil => rfl
  | cons c s ih =>
    rw [leadingDigits, digitValue?_of_isDigit (h c List.mem_cons_self)]
    dsimp only
    rw [ih fun d hd => h d (List.mem_cons_of_mem _ hd)]
    rfl

theorem ofDigits_digitValues (s : List Char) :
    ofDigits (digitValues s) = Nat.ofDigitChars 10 s 0 :=
  List.foldl_map

theorem isDigit_toDigits {n : Nat} {c : Char} (h : c ∈ Nat.toDigits 10 n) : c.isDigit = true :=
  Nat.isDigit_of_mem_toDigits (by decide) (by decide) h

/-- **The digits of a number are read as that number.** -/
theorem ofDigits_toDigits (n : Nat) : ofDigits (digitValues (Nat.toDigits 10 n)) = n := by
  rw [ofDigits_digitValues, Nat.ofDigitChars_ten_toDigits]

theorem ofDigits_replicate_append (k : Nat) (s : List Char) :
    ofDigits (digitValues (List.replicate k '0' ++ s)) = ofDigits (digitValues s) := by
  rw [ofDigits_digitValues, ofDigits_digitValues, Nat.ofDigitChars_append,
    Nat.ofDigitChars_replicate_zero, Nat.mul_zero]

/-- Zeros behind the digits are powers of ten. -/
theorem ofDigits_append_replicate (s : List Char) (k : Nat) :
    ofDigits (digitValues (s ++ List.replicate k '0')) = ofDigits (digitValues s) * 10 ^ k := by
  rw [ofDigits_digitValues, ofDigits_digitValues, Nat.ofDigitChars_append,
    Nat.ofDigitChars_replicate_zero, Nat.mul_comm]

theorem readDigits_toDigits {n : Nat} (h : (Nat.toDigits 10 n).length ≤ maxDigits) :
    readDigits (digitValues (Nat.toDigits 10 n)) = .ok n := by
  unfold readDigits
  rw [if_pos (by rwa [digitValues, List.length_map]), ofDigits_toDigits]

/-- The digits of a number start with a zero only where they are that zero. -/
theorem head_toDigits_ne_zero {n : Nat} (h : n ≠ 0) : (Nat.toDigits 10 n).head? ≠ some '0' := by
  induction n using Nat.strongRecOn with
  | ind n ih =>
    rw [Nat.toDigits_eq_if (by decide)]
    split
    · intro he
      exact h (Nat.digitChar_eq_zero.mp (Option.some.inj he))
    · next hge =>
      have hfirst := ih (n / 10) (by omega) (by omega)
      obtain ⟨c, s, hs⟩ := List.exists_cons_of_ne_nil (Nat.toDigits_ne_nil (b := 10) (n := n / 10))
      rw [hs] at hfirst ⊢
      exact hfirst

end Text
end SceneScript
