import SceneScript.Proofs.Scalar.Order

/-!
# The whole number below a double

The floor of a finite double is an exact division, so it relates to the double as it does in the
rationals. One fact follows that saving a script rests on: **the floor of a finite double is in
range, and reading it back does not pass the double** (`ofInt?_floor`).
-/

set_option autoImplicit false

namespace SceneScript
namespace Binary64

/-- The numerator of a magnitude written as a fraction. -/
def numerator (bits : Nat) : Nat := (decode bits).1 * Nat.pow 2 (decode bits).2.toNat

/-- The denominator of a magnitude written as a fraction. -/
def denominator (bits : Nat) : Nat := Nat.pow 2 (-(decode bits).2).toNat

theorem denominator_pos (bits : Nat) : 0 < denominator bits := Nat.pow_pos (by decide)

theorem value_eq (bits : Nat) : value bits = (numerator bits : ℚ) / denominator bits := by
  unfold value numerator denominator
  rw [zpow_eq_div, Nat.pow_eq, Nat.pow_eq]
  push_cast
  rw [mul_div_assoc]

theorem nearest_fraction {bits : Nat} (h : bits < infinityBits) :
    nearest (numerator bits) (denominator bits) = bits :=
  nearest_of_value h (denominator_pos bits).ne' (value_eq bits).symm

/-- A floor is only taken of a finite double, and by dividing its fraction. -/
theorem floor_eq_ok {x : Float} {n : Int} (h : Binary64.floor x = .ok n) :
    magnitude x < infinityBits ∧
      n = (if isNegative x then -(numerator (magnitude x) : Int) else numerator (magnitude x)) /
        (denominator (magnitude x) : Int) := by
  unfold Binary64.floor at h
  dsimp only at h
  split at h
  · cases h
  · split at h
    · cases h
    · refine ⟨by omega, ?_⟩
      rw [← Except.ok.inj h]
      unfold numerator denominator
      push_cast
      rfl

/-- The floor without its sign, between the two neighbours of the magnitude. -/
theorem natAbs_floor {x : Float} {n : Int} (h : Binary64.floor x = .ok n) :
    (isNegative x = false ∧ 0 ≤ n ∧
      n.natAbs = numerator (magnitude x) / denominator (magnitude x)) ∨
    (isNegative x = true ∧ n ≤ 0 ∧ n.natAbs ≤ numerator (magnitude x) ∧
      numerator (magnitude x) ≤ n.natAbs * denominator (magnitude x)) := by
  obtain ⟨-, hn⟩ := floor_eq_ok h
  have hd := denominator_pos (magnitude x)
  generalize numerator (magnitude x) = a at *
  generalize denominator (magnitude x) = d at *
  cases hs : isNegative x with
  | false =>
    left
    rw [hs, if_neg Bool.false_ne_true, ← Int.natCast_ediv] at hn
    exact ⟨rfl, hn ▸ Int.natCast_nonneg _, by rw [hn, Int.natAbs_natCast]⟩
  | true =>
    right
    rw [hs, if_pos rfl] at hn
    have hd' : (0 : Int) < d := by exact_mod_cast hd
    have h1 := Int.ediv_mul_le (-(a : Int)) hd'.ne'
    rw [← hn] at h1
    have h2 : n ≤ 0 := by
      by_contra hpos
      nlinarith
    have h3 : -(a : Int) ≤ n := by
      rw [hn]
      refine (Int.le_ediv_iff_mul_le hd').mpr ?_
      nlinarith
    obtain ⟨k, rfl⟩ : ∃ k : Nat, n = -(k : Int) := ⟨n.natAbs, by omega⟩
    rw [Int.natAbs_neg, Int.natAbs_natCast]
    refine ⟨rfl, h2, by omega, ?_⟩
    have h4 : (a : Int) ≤ k * d := by linarith
    exact_mod_cast h4

theorem nearest_div_le {bits : Nat} (h : bits < infinityBits) :
    nearest (numerator bits / denominator bits) 1 ≤ bits := by
  have hd : (0 : ℚ) < denominator bits := by exact_mod_cast denominator_pos bits
  conv_rhs => rw [← nearest_fraction h]
  refine nearest_mono one_ne_zero (denominator_pos bits).ne' ?_
  rw [Nat.cast_one, div_one, le_div_iff₀ hd]
  exact_mod_cast Nat.div_mul_le_self _ _

theorem le_nearest {bits k : Nat} (h : bits < infinityBits)
    (hk : numerator bits ≤ k * denominator bits) : bits ≤ nearest k 1 := by
  have hd : (0 : ℚ) < denominator bits := by exact_mod_cast denominator_pos bits
  conv_lhs => rw [← nearest_fraction h]
  refine nearest_mono (denominator_pos bits).ne' one_ne_zero ?_
  rw [Nat.cast_one, div_one, div_le_iff₀ hd]
  exact_mod_cast hk

/-- A whole number that a finite magnitude has for its numerator, or a lesser one, is in range. -/
theorem nearest_lt_of_le_numerator {bits k : Nat} (h : bits < infinityBits)
    (hk : k ≤ numerator bits) : nearest k 1 < infinityBits := by
  obtain ⟨-, -, hm, -, -⟩ := decode_spec h
  have hk1 : ∀ l : Nat, k ≤ l → nearest k 1 ≤ nearest l 1 := fun l hl =>
    nearest_mono one_ne_zero one_ne_zero (by
      rw [Nat.cast_one, div_one, div_one]
      exact_mod_cast hl)
  rcases Int.le_total 0 (decode bits).2 with he | he
  · -- the magnitude is whole, and it is its numerator
    have hd : denominator bits = 1 := by
      unfold denominator
      rw [show (-(decode bits).2).toNat = 0 by omega]
    have hb := nearest_fraction h
    rw [hd] at hb
    have := hk1 _ hk
    omega
  · -- the numerator is the significand, which has 53 bits
    have hn : numerator bits = (decode bits).1 := by
      unfold numerator
      rw [show (decode bits).2.toNat = 0 by omega]
      exact Nat.mul_one _
    have h53 : nearest (2 * perExponent) 1 < infinityBits := by decide
    exact (hk1 (2 * perExponent) (by omega)).trans_lt h53

theorem nearest_natAbs_floor_lt {x : Float} {n : Int} (h : Binary64.floor x = .ok n) :
    nearest n.natAbs 1 < infinityBits := by
  obtain ⟨hlt, -⟩ := floor_eq_ok h
  rcases natAbs_floor h with ⟨-, -, hn⟩ | ⟨-, -, hn, -⟩
  · rw [hn]
    exact (nearest_div_le hlt).trans_lt hlt
  · exact nearest_lt_of_le_numerator hlt hn

/-- **The floor of a double is in range**, and the double nearest to it does not pass the first. -/
theorem ofInt?_floor {x : Float} {n : Int} (h : Binary64.floor x = .ok n) :
    ∃ y : Float, Binary64.ofInt? n = some y ∧ y ≤ x := by
  obtain ⟨hlt, -⟩ := floor_eq_ok h
  have hbits := nearest_natAbs_floor_lt h
  refine ⟨toFloat (decide (n < 0)) (nearest n.natAbs 1), ?_, ?_⟩
  · unfold Binary64.ofInt?
    dsimp only
    rw [if_pos hbits]
  · rw [le_iff, magnitude_toFloat _ hbits.le]
    refine ⟨hbits.le, hlt.le, ?_⟩
    unfold placeOf place
    rw [isNegative_toFloat _ hbits.le, magnitude_toFloat _ hbits.le]
    rcases natAbs_floor h with ⟨hs, hn0, hn⟩ | ⟨hs, hn0, -, hn⟩
    · have := nearest_div_le hlt
      rw [hs, decide_eq_false (by omega), if_neg Bool.false_ne_true, if_neg Bool.false_ne_true, hn]
      exact_mod_cast this
    · have hge := le_nearest hlt hn
      rw [hs, if_pos rfl]
      by_cases hn1 : n < 0
      · rw [decide_eq_true hn1, if_pos rfl]
        omega
      · have h0 : n.natAbs = 0 := by omega
        rw [h0] at hge ⊢
        rw [decide_eq_false hn1, if_neg Bool.false_ne_true]
        have : nearest 0 1 = 0 := rfl
        omega

theorem isFinite_of_ofInt? {n : Int} {x : Float} (h : Binary64.ofInt? n = some x) :
    Scalar.isFinite x = true := by
  unfold Binary64.ofInt? at h
  dsimp only at h
  split at h
  · next hlt =>
    rw [← Option.some.inj h]
    exact isFinite_toFloat _ hlt
  · cases h

end Binary64
end SceneScript
