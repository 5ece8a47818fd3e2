import Mathlib.Algebra.Order.Floor.Ring
import Mathlib.Data.Rat.Floor
import Mathlib.Tactic.FieldSimp
import Mathlib.Tactic.Linarith
import Mathlib.Tactic.NormNum
import Mathlib.Tactic.Ring
import SceneScript.Proofs.Scalar.Lawful

/-!
# The operations in exact rationals

What a computation means is said in exact rationals, and there every operation on scalars is the one
of the field or of the order: nothing overflows, nothing is rounded, and no value is without a
number. The lemmas say so once, one for each operation, and **the rationals satisfy the laws that
scripts rely on** as doubles do.
-/

set_option autoImplicit false

namespace SceneScript
namespace Rational

variable (x y : ℚ)

@[simp] theorem ofNat_eq (n : ℕ) : (Scalar.ofNat n : ℚ) = n := rfl

@[simp] theorem floor_eq : Scalar.floor x = .ok ⌊x⌋ := rfl

@[simp] theorem isFinite_eq : Scalar.isFinite x = true := rfl

theorem ofDecimal_eq (d : Decimal) :
    (Scalar.ofDecimal d : ℚ) = (if d.negative then -1 else 1) * d.digits * 10 ^ d.exponent := by
  show Decimal.toRat d = _
  unfold Decimal.toRat
  dsimp only
  split
  · ring
  · ring

/-! ## The order -/

@[simp] theorem least_eq : Scalar.least x y = min x y := by
  unfold Scalar.least
  split
  · next h => exact (min_eq_right h.le).symm
  · next h => exact (min_eq_left (not_lt.mp h)).symm

@[simp] theorem greatest_eq : Scalar.greatest x y = max x y := by
  unfold Scalar.greatest
  split
  · next h => exact (max_eq_right h.le).symm
  · next h => exact (max_eq_left (not_lt.mp h)).symm

theorem isZero_iff : Scalar.isZero x = true ↔ x = 0 := by
  unfold Scalar.isZero
  rw [Bool.and_eq_true, decide_eq_true_eq, decide_eq_true_eq]
  exact le_antisymm_iff.symm

theorem divide?_of_ne_zero {x y : ℚ} (h : y ≠ 0) : Scalar.divide? x y = some (x / y) :=
  if_neg fun hz => h ((isZero_iff y).mp hz)

theorem whole?_eq_some_iff (n : ℤ) : Scalar.whole? x = some n ↔ x = n := by
  have hwhole : Scalar.whole? x = if x ≤ ⌊x⌋ then some ⌊x⌋ else none := rfl
  rw [hwhole]
  constructor
  · intro h
    split at h
    · next hx =>
      cases h
      exact le_antisymm hx (Int.floor_le x)
    · cases h
  · intro h
    rw [h, Int.floor_intCast, if_pos le_rfl]

end Rational

instance : Scalar.Lawful ℚ where
  mul_one x := by
    show x * ((1 : ℕ) : ℚ) = x
    rw [Nat.cast_one, mul_one]
  isFinite_zero := rfl
  isFinite_one := rfl
  isFinite_of_ofInt? _ := rfl
  ofInt?_floor {x n} h := by
    cases h
    exact ⟨_, rfl, Int.floor_le x⟩
  isFinite_hundredths _ := rfl
  ofDecimal_mul_pow negative digits k e := by
    rw [Rational.ofDecimal_eq, Rational.ofDecimal_eq, zpow_sub₀ (by norm_num : (10 : ℚ) ≠ 0),
      zpow_natCast]
    push_cast
    field_simp

end SceneScript
