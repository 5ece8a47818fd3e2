import SceneScript.Proofs.Scalar.Arithmetic
import SceneScript.Rounding

/-!
# Adding one half

Rounding a double half up adds one half before it takes the floor. **That takes no double out of
range, and brings none back** (`isFinite_add_half`): what lies below the greatest binade stays below
a power of two that is still a double, a value of that binade stays below the next one, and the
greatest double of all absorbs the half.
-/

set_option autoImplicit false

namespace SceneScript
namespace Binary64

open Float.Model Float.Model.UnpackedFloat

theorem add_eq (x y : Float) :
    x + y = packed (UnpackedFloat.add Format.binary64 (unpacked (isNegative x) (magnitude x))
      (unpacked (isNegative y) (magnitude y))) := by
  rw [← unpack_toModel, ← unpack_toModel]
  rfl

/-! ## Rounding what is bounded -/

/-- **What is at most a canonical value is rounded to a finite double.** -/
theorem isFinite_round {m : Nat} {e : Int} (h : Canonical m e) (s : Sign) {m' : Nat} {e' : Int}
    (he : e' ≤ e) (hm : m' ≤ m * 2 ^ (e - e').toNat) :
    Scalar.isFinite (packed (UnpackedFloat.round Format.binary64 s m' e')) = true := by
  unfold UnpackedFloat.round decreaseExponent
  dsimp only
  set k := (e' - Format.binary64.targetExponent (totalExponent m' e')).toNat
  have hk : (e - (e' - k)).toNat = (e - e').toNat + k := by omega
  have hle : m' <<< k ≤ m * 2 ^ (e - (e' - k)).toNat := by
    rw [hk, Nat.shiftLeft_eq, Nat.pow_add, ← Nat.mul_assoc]
    exact Nat.mul_le_mul_right _ hm
  rcases round_le h s (by omega) hle with hz | ⟨m'', e'', h'', he'', hf⟩
  · rw [hz]
    exact isFinite_packed_zero s
  · rw [hf]
    exact isFinite_packed_finite h'' (he''.trans h.greatest)

theorem isFinite_normalize {m : Nat} {e : Int} (h : Canonical m e) {v : Int} {e' : Int}
    (he : e' ≤ e) (hv : v.natAbs ≤ m * 2 ^ (e - e').toNat) :
    Scalar.isFinite (packed (UnpackedFloat.normalize Format.binary64 v e' .positive)) =
      true := by
  unfold UnpackedFloat.normalize
  split
  · exact isFinite_round h _ he (by omega)
  · exact isFinite_packed_zero _
  · exact isFinite_round h _ he (by omega)

/-! ## One half -/

/-- The bits of one half. -/
def halfBits : Nat := 1022 * perExponent

theorem half_eq : (Rounding.half : Float) = toFloat false halfBits := by decide

theorem unpacked_half :
    unpacked false halfBits = .finite .positive perExponent (-53) (by decide) :=
  unpacked_of_decode (by decide) (by decide) (by decide)

theorem canonical_perExponent {e : Int} (hlo : -1074 ≤ e) (hhi : e ≤ 971) :
    Canonical perExponent e :=
  ⟨by decide, by decide, hlo, hhi, .inr le_rfl⟩

/-- The exact sum of a value and one half, in units of the smaller of the two exponents. -/
theorem natAbs_add_half_le (s : Sign) (m : Nat) (e : Int) :
    (s.apply (m <<< (e - min e (-53)).toNat) +
        Sign.positive.apply (perExponent <<< (-53 - min e (-53)).toNat)).natAbs ≤
      m * 2 ^ (e - min e (-53)).toNat + perExponent * 2 ^ (-53 - min e (-53)).toNat := by
  rw [Nat.shiftLeft_eq, Nat.shiftLeft_eq]
  cases s <;> simp only [Sign.apply] <;> omega

/-- **A value other than the greatest one is, with one half added, at most a canonical value.** -/
theorem exists_bound {m : Nat} {e : Int} (h : Canonical m e)
    (hne : ¬ (m = 2 * perExponent - 1 ∧ e = 971)) :
    ∃ (m' : Nat) (e' : Int), Canonical m' e' ∧ min e (-53) ≤ e' ∧
      m * 2 ^ (e - min e (-53)).toNat + perExponent * 2 ^ (-53 - min e (-53)).toNat ≤
        m' * 2 ^ (e' - min e (-53)).toNat := by
  have hp : perExponent = 2 ^ 52 := rfl
  have hlo := h.least
  have hhi := h.greatest
  have hlt := h.below
  by_cases he : e ≤ 970
  · refine ⟨perExponent, 971, canonical_perExponent (by omega) le_rfl, by omega, ?_⟩
    set low := min e (-53)
    set unit := 2 ^ (970 - low).toNat with hunit
    have hvalue : 2 ^ (e - low).toNat ≤ unit := Nat.pow_le_pow_right (by decide) (by omega)
    have hhalf : perExponent * 2 ^ (-53 - low).toNat ≤ unit := by
      rw [hp, ← Nat.pow_add]
      exact Nat.pow_le_pow_right (by decide) (by omega)
    have hbound : 2 ^ (971 - low).toNat = 2 * unit := by
      rw [hunit, ← Nat.pow_succ']
      congr 1
      omega
    calc m * 2 ^ (e - low).toNat + perExponent * 2 ^ (-53 - low).toNat
        ≤ (2 * perExponent - 1) * unit + unit :=
          Nat.add_le_add (Nat.mul_le_mul (by omega) hvalue) hhalf
      _ = perExponent * 2 ^ (971 - low).toNat := by
          rw [hbound, ← Nat.succ_mul]
          have : (2 * perExponent - 1).succ = perExponent * 2 := rfl
          rw [this, Nat.mul_assoc]
  · obtain rfl : e = 971 := by omega
    have hfull : perExponent ≤ m := h.full.resolve_left (by decide)
    refine ⟨m + 1, 971, ⟨by omega, by omega, by decide, le_rfl, .inr (by omega)⟩, by decide, ?_⟩
    rw [Nat.succ_mul]
    refine Nat.add_le_add_left ?_ _
    rw [hp, ← Nat.pow_add]
    exact Nat.pow_le_pow_right (by decide) (by decide)

set_option maxRecDepth 10000 in
/-- The greatest double, of either sign, absorbs the half. -/
theorem isFinite_greatest_add_half (negative : Bool) :
    Scalar.isFinite (toFloat negative (infinityBits - 1) + Rounding.half) = true := by
  cases negative <;> decide

theorem isFinite_add_half_of_isFinite {x : Float} (hx : Scalar.isFinite x = true) :
    Scalar.isFinite (x + Rounding.half) = true := by
  have hlt := (isFinite_iff x).mp hx
  by_cases hmax : magnitude x = infinityBits - 1
  · rw [← toFloat_magnitude hlt.le, hmax]
    exact isFinite_greatest_add_half _
  rw [half_eq, add_eq, isNegative_toFloat _ (by decide), magnitude_toFloat _ (by decide),
    unpacked_half]
  obtain ⟨-, h⟩ | ⟨m, e, hc, hd, h⟩ := unpacked_finite (isNegative x) hlt
  · rw [h]
    exact isFinite_packed_finite (by decide) (by decide)
  · rw [h]
    have hne : ¬ (m = 2 * perExponent - 1 ∧ e = 971) := by
      rintro ⟨rfl, rfl⟩
      have hb := (decode_spec hlt).2.2.2.2
      rw [hd] at hb
      exact hmax hb
    obtain ⟨m', e', hc', he', hle⟩ := exists_bound hc hne
    exact isFinite_normalize hc' he' ((natAbs_add_half_le _ m e).trans hle)

/-- **Adding one half neither leaves the range of doubles nor comes back into it.** -/
theorem isFinite_add_half (x : Float) :
    Scalar.isFinite (x + Rounding.half) = Scalar.isFinite x := by
  cases hx : Scalar.isFinite x with
  | true => exact isFinite_add_half_of_isFinite hx
  | false =>
    have hge : infinityBits ≤ magnitude x := by
      by_contra hlt
      rw [(isFinite_iff x).mpr (by omega)] at hx
      cases hx
    rw [half_eq, add_eq, isNegative_toFloat _ (by decide), magnitude_toFloat _ (by decide),
      unpacked_half]
    rcases Nat.lt_or_eq_of_le hge with hgt | heq
    · rw [unpacked_of_gt _ hgt]
      decide
    · rw [← heq, unpacked_infinity]
      cases isNegative x <;> decide

end Binary64
end SceneScript
