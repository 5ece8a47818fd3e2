import SceneScript.Proofs.Decimal.Nearest

/-!
# Numerals that read back

What is written for a double is read as that double (`ofScientific_shortest`). The search for the
fewest digits tests exactly this, so for whatever it *finds* there is nothing to prove; what is left
is the numeral that stands behind the search, the exact value, and that reading fixes doubles
(`nearest_of_value`).

A numeral can be laid out with zeros that the search did not choose, `100.0` for `1 * 10 ^ 2`. Hence
the second fact: **reading depends on the value of a numeral alone** (`ofScientific_congr`). The two
short cuts for powers far out of range are seen here to be short cuts and no more
(`ofScientific_eq_nearest`).
-/

set_option autoImplicit false

namespace SceneScript
namespace Binary64

/-! ## Powers of ten -/

theorem scientific_quotient (digits : Nat) (e : Int) :
    ((digits * Nat.pow 10 e.toNat : Nat) : ℚ) / ((Nat.pow 10 (-e).toNat : Nat) : ℚ) =
      digits * (10 : ℚ) ^ e := by
  rw [zpow_eq_div]
  push_cast [Nat.pow_eq]
  rw [mul_div_assoc]

theorem ten_pow_ne_zero (k : Nat) : Nat.pow 10 k ≠ 0 := (Nat.pow_pos (by decide)).ne'

/-! ## Reading by the value -/

theorem ofScientific_zero (e : Int) : ofScientific 0 e = 0 := if_pos rfl

theorem nearest_two_pow_1024 : nearest (2 ^ 1024) 1 = infinityBits := by decide +kernel

theorem nearest_two_pow_neg_1080 : nearest 1 (2 ^ 1080) = 0 := by decide +kernel

/-- A number beyond the doubles is read as an infinity. -/
theorem nearest_of_large {n d : Nat} (hd : d ≠ 0) (h : (2 : ℚ) ^ 1024 ≤ (n : ℚ) / d) :
    nearest n d = infinityBits := by
  refine Nat.le_antisymm (nearest_le_infinityBits n d) ?_
  rw [← nearest_two_pow_1024]
  refine nearest_mono one_ne_zero hd ?_
  rw [Nat.cast_one, div_one, Nat.cast_pow, Nat.cast_ofNat]
  exact h

/-- A number far below the least double is read as zero. -/
theorem nearest_of_small {n d : Nat} (hd : d ≠ 0) (h : (n : ℚ) / d ≤ 1 / (2 : ℚ) ^ 1080) :
    nearest n d = 0 := by
  refine Nat.le_zero.mp ?_
  rw [← nearest_two_pow_neg_1080]
  refine nearest_mono hd (by positivity) ?_
  rw [Nat.cast_one, Nat.cast_pow, Nat.cast_ofNat]
  exact h

/-- One digit and 401 zeros are more than any double. -/
theorem two_pow_1024_le_scientific {digits : Nat} (h0 : digits ≠ 0) {e : Int} (he : 401 ≤ e) :
    (2 : ℚ) ^ 1024 ≤ digits * (10 : ℚ) ^ e := by
  have h1 : (1 : ℚ) ≤ digits := by exact_mod_cast Nat.one_le_iff_ne_zero.mpr h0
  calc (2 : ℚ) ^ 1024 ≤ (2 : ℚ) ^ (3 * 401) := pow_le_pow_right₀ (by norm_num) (by norm_num)
    _ = ((2 : ℚ) ^ 3) ^ 401 := pow_mul _ _ _
    _ ≤ (10 : ℚ) ^ 401 := pow_le_pow_left₀ (by norm_num) (by norm_num) 401
    _ = (10 : ℚ) ^ (401 : Int) := (zpow_natCast _ 401).symm
    _ ≤ (10 : ℚ) ^ e := zpow_le_zpow_right₀ (by norm_num) he
    _ = 1 * (10 : ℚ) ^ e := (one_mul _).symm
    _ ≤ digits * (10 : ℚ) ^ e := mul_le_mul_of_nonneg_right h1 (by positivity)

/-- With enough places behind the point, all the digits together cannot make up for them. -/
theorem scientific_le_of_small {digits : Nat} (h0 : digits ≠ 0) {e : Int}
    (he : (digits.log2 : Int) + 1 + 3 * e < -1080) :
    digits * (10 : ℚ) ^ e ≤ 1 / (2 : ℚ) ^ 1080 := by
  obtain ⟨k, rfl⟩ : ∃ k : Nat, e = -(k : Int) := ⟨(-e).toNat, by omega⟩
  have h8 : (2 : ℚ) ^ (3 * k) ≤ (10 : ℚ) ^ k := by
    rw [pow_mul]
    exact pow_le_pow_left₀ (by norm_num) (by norm_num) k
  have hd : (digits : ℚ) ≤ (2 : ℚ) ^ ((3 * k : Nat) - 1080 : Int) :=
    (log2_bounds h0).2.le.trans (zpow_le_zpow_right₀ (by norm_num) (by push_cast; omega))
  rw [zpow_neg, zpow_natCast]
  rw [zpow_sub₀ two_ne_zero, zpow_natCast] at hd
  calc (digits : ℚ) * ((10 : ℚ) ^ k)⁻¹
      ≤ (2 : ℚ) ^ (3 * k) / (2 : ℚ) ^ (1080 : Int) * ((10 : ℚ) ^ k)⁻¹ :=
        mul_le_mul_of_nonneg_right hd (by positivity)
    _ ≤ (10 : ℚ) ^ k / (2 : ℚ) ^ (1080 : Int) * ((10 : ℚ) ^ k)⁻¹ :=
        mul_le_mul_of_nonneg_right (div_le_div_of_nonneg_right h8 (by positivity)) (by positivity)
    _ = 1 / (2 : ℚ) ^ 1080 := by
        rw [div_mul_eq_mul_div, mul_inv_cancel₀ (by positivity)]
        norm_cast

/-- **Reading a numeral is rounding its value**, however far out its power of ten lies. -/
theorem ofScientific_eq_nearest {digits : Nat} (h0 : digits ≠ 0) (e : Int) :
    ofScientific digits e =
      nearest (digits * Nat.pow 10 e.toNat) (Nat.pow 10 (-e).toNat) := by
  unfold ofScientific
  rw [if_neg h0]
  split
  · next hlarge =>
    refine (nearest_of_large (ten_pow_ne_zero _) ?_).symm
    rw [scientific_quotient]
    exact two_pow_1024_le_scientific h0 (by omega)
  split
  · next hsmall =>
    refine (nearest_of_small (ten_pow_ne_zero _) ?_).symm
    rw [scientific_quotient]
    exact scientific_le_of_small h0 hsmall
  · rfl

theorem ofScientific_congr {digits digits' : Nat} {e e' : Int}
    (h : (digits : ℚ) * (10 : ℚ) ^ e = digits' * (10 : ℚ) ^ e') :
    ofScientific digits e = ofScientific digits' e' := by
  have hz : ∀ e : Int, (10 : ℚ) ^ e ≠ 0 := fun e => by positivity
  by_cases h0 : digits = 0
  · have h0' : digits' = 0 := by
      rw [h0, Nat.cast_zero, zero_mul] at h
      rcases mul_eq_zero.mp h.symm with hd | hd
      · exact_mod_cast hd
      · exact absurd hd (hz e')
    rw [h0, h0', ofScientific_zero, ofScientific_zero]
  · have h0' : digits' ≠ 0 := by
      rintro rfl
      rw [Nat.cast_zero, zero_mul] at h
      rcases mul_eq_zero.mp h with hd | hd
      · exact h0 (by exact_mod_cast hd)
      · exact absurd hd (hz e)
    rw [ofScientific_eq_nearest h0, ofScientific_eq_nearest h0']
    refine nearest_congr (ten_pow_ne_zero _) (ten_pow_ne_zero _) ?_
    rw [scientific_quotient, scientific_quotient, h]

theorem ofScientific_mul_pow (digits k : Nat) (e : Int) :
    ofScientific (digits * 10 ^ k) (e - k) = ofScientific digits e := by
  refine ofScientific_congr ?_
  rw [zpow_sub₀ (by norm_num), zpow_natCast]
  push_cast
  field_simp

/-! ## Writing and reading back -/

theorem ofScientific_exact {bits : Nat} (h : bits < infinityBits) (h0 : (decode bits).1 ≠ 0) :
    ofScientific (exact (decode bits).1 (decode bits).2).1
      (exact (decode bits).1 (decode bits).2).2 = bits := by
  unfold exact
  split
  · next he =>
    have hne : (decode bits).1 * Nat.pow 2 (decode bits).2.toNat ≠ 0 :=
      Nat.mul_ne_zero h0 (Nat.pow_pos (by decide)).ne'
    rw [ofScientific_eq_nearest hne]
    refine nearest_of_value h (ten_pow_ne_zero _) ?_
    rw [scientific_quotient, zpow_zero, mul_one]
    unfold value
    obtain ⟨k, hk⟩ := Int.eq_ofNat_of_zero_le he
    rw [hk]
    simp
  -- a fraction of a power of two is one of a power of ten, with as many fives in the digits
  · next he =>
    have hne : (decode bits).1 * Nat.pow 5 (-(decode bits).2).toNat ≠ 0 :=
      Nat.mul_ne_zero h0 (Nat.pow_pos (by decide)).ne'
    rw [ofScientific_eq_nearest hne]
    refine nearest_of_value h (ten_pow_ne_zero _) ?_
    rw [scientific_quotient]
    unfold value
    obtain ⟨k, hk⟩ : ∃ k : Nat, (decode bits).2 = -(k : Int) :=
      ⟨(-(decode bits).2).toNat, by omega⟩
    rw [hk]
    simp only [neg_neg, Int.toNat_natCast, zpow_neg, zpow_natCast, Nat.pow_eq]
    push_cast
    have h10 : (10 : ℚ) ^ k = 5 ^ k * 2 ^ k := by
      rw [← mul_pow]
      norm_num
    rw [h10]
    field_simp

/-- **What is written for a double is read as that double.** -/
theorem ofScientific_shortest {bits : Nat} (h : bits < infinityBits) :
    ofScientific (shortest bits).1 (shortest bits).2 = bits := by
  unfold shortest
  dsimp only
  by_cases h0 : (decode bits).1 = 0
  · rw [if_pos h0]
    rw [ofScientific_zero, eq_zero_of_decode h h0]
  · rw [if_neg h0]
    -- a shorter numeral is only taken if it is read as the double; otherwise the exact one is
    generalize hf : List.findSome? _ (List.range 17) = found
    cases found with
    | none => exact ofScientific_exact h h0
    | some d =>
      obtain ⟨i, -, hi⟩ := List.exists_of_findSome?_eq_some hf
      have hr := List.find?_some hi
      exact beq_iff_eq.mp hr

/-- Zero is the only double that is written with the digit zero alone, and its numeral has no
    power of ten. -/
theorem shortest_of_digits_eq_zero {bits : Nat} (h : bits < infinityBits)
    (h0 : (shortest bits).1 = 0) : shortest bits = (0, 0) := by
  have hb := ofScientific_shortest h
  rw [h0, ofScientific_zero] at hb
  rw [← hb]
  rfl

end Binary64
end SceneScript
