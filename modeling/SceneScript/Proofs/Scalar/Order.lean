import SceneScript.Proofs.Scalar.Bits

/-!
# The order of doubles

Doubles that are numbers or infinities are ordered as their magnitudes are, with the sign in front
(`le_iff`, `lt_iff`). What is no number stands in no relation, not even to itself. So a comparison
of doubles is a comparison of whole numbers, and **two doubles that are each at most the other have
the same place**: they are the same, or they are the two zeros.
-/

set_option autoImplicit false

namespace SceneScript
namespace Binary64

open Float.Model Float.Model.UnpackedFloat

/-- The place of a double in the order: its magnitude with the sign in front. -/
def place (negative : Bool) (bits : Nat) : Int := if negative then -bits else bits

theorem compare_canonical {m m' : Nat} {e e' : Int} (h : Canonical m e) (h' : Canonical m' e') :
    compare ((e + 1074).toNat * perExponent + m) ((e' + 1074).toNat * perExponent + m') =
      (compare e e').then (compare m m') := by
  have hb := h.below
  have hb' := h'.below
  have hl := h.least
  have hl' := h'.least
  have hf := h.full
  have hf' := h'.full
  unfold perExponent at *
  rcases Int.lt_trichotomy e e' with he | rfl | he
  · rw [Int.compare_eq_lt.mpr he]
    refine Nat.compare_eq_lt.mpr ?_
    omega
  · rw [Int.compare_eq_eq.mpr rfl]
    show _ = compare m m'
    rcases Nat.lt_trichotomy m m' with hm | rfl | hm
    · rw [Nat.compare_eq_lt.mpr hm]
      exact Nat.compare_eq_lt.mpr (by omega)
    · rw [Nat.compare_eq_eq.mpr rfl, Nat.compare_eq_eq.mpr rfl]
    · rw [Nat.compare_eq_gt.mpr hm]
      exact Nat.compare_eq_gt.mpr (by omega)
  · rw [Int.compare_eq_gt.mpr he]
    refine Nat.compare_eq_gt.mpr ?_
    omega

theorem compare_natCast (a b : Nat) : compare (a : Int) (b : Int) = compare a b := by
  rcases Nat.lt_trichotomy a b with h | rfl | h
  · rw [Nat.compare_eq_lt.mpr h, Int.compare_eq_lt.mpr (by omega)]
  · rw [Nat.compare_eq_eq.mpr rfl, Int.compare_eq_eq.mpr rfl]
  · rw [Nat.compare_eq_gt.mpr h, Int.compare_eq_gt.mpr (by omega)]

theorem compare_neg_natCast (a b : Nat) :
    compare (-(a : Int)) (-(b : Int)) = (compare a b).swap := by
  rcases Nat.lt_trichotomy a b with h | rfl | h
  · rw [Nat.compare_eq_lt.mpr h, Int.compare_eq_gt.mpr (by omega)]
    rfl
  · rw [Nat.compare_eq_eq.mpr rfl, Int.compare_eq_eq.mpr rfl]
    rfl
  · rw [Nat.compare_eq_gt.mpr h, Int.compare_eq_lt.mpr (by omega)]
    rfl

/-- What stands on either side of a comparison: an infinity, a zero or a canonical value, with
    what its bits are. -/
theorem unpacked_number (s : Bool) {b : Nat} (h : b ≤ infinityBits) :
    (b = infinityBits ∧ unpacked s b = .infinity (sign s)) ∨
    (b = 0 ∧ unpacked s b = .zero (sign s)) ∨
    ∃ (m : Nat) (e : Int) (hc : Canonical m e), 0 < b ∧ b < infinityBits ∧
      b = (e + 1074).toNat * perExponent + m ∧ unpacked s b = .finite (sign s) m e hc.pos := by
  rcases Nat.lt_or_eq_of_le h with hlt | rfl
  · obtain hz | ⟨m, e, hc, hd, hu⟩ := unpacked_finite s hlt
    · exact .inr (.inl hz)
    · have hb := (decode_spec hlt).2.2.2.2
      rw [hd] at hb
      dsimp only at hb
      have := hc.pos
      exact .inr (.inr ⟨m, e, hc, by omega, hlt, hb, hu⟩)
  · exact .inl ⟨rfl, unpacked_infinity s⟩

/-- **Doubles are compared by their places.** -/
theorem compare_unpacked (s s' : Bool) {b b' : Nat} (h : b ≤ infinityBits)
    (h' : b' ≤ infinityBits) :
    UnpackedFloat.compare (unpacked s b) (unpacked s' b') =
      some (compare (place s b) (place s' b')) := by
  have hinf : 0 < infinityBits := by decide
  obtain ⟨hb, hu⟩ | ⟨hb, hu⟩ | ⟨m, e, hc, hpos, hlt, hb, hu⟩ := unpacked_number s h <;>
    obtain ⟨hb', hu'⟩ | ⟨hb', hu'⟩ | ⟨m', e', hc', hpos', hlt', hb', hu'⟩ :=
      unpacked_number s' h' <;>
    rw [hu, hu'] <;> cases s <;> cases s'
  -- all but the comparison of two canonical values of one sign is settled by kind and sign
  all_goals first
    | exact congrArg some (Int.compare_eq_lt.mpr
        (by simp only [place, if_true, Bool.false_eq_true, if_false]; omega)).symm
    | exact congrArg some (Int.compare_eq_gt.mpr
        (by simp only [place, if_true, Bool.false_eq_true, if_false]; omega)).symm
    | exact congrArg some (Int.compare_eq_eq.mpr
        (by simp only [place, if_true, Bool.false_eq_true, if_false]; omega)).symm
    | skip
  · show some ((compare e e').then (compare m m')) = some (compare (b : Int) (b' : Int))
    rw [compare_natCast, hb, hb', compare_canonical hc hc']
  · show some ((compare e e').then (compare m m')).swap = some (compare (-(b : Int)) (-(b' : Int)))
    rw [compare_neg_natCast, hb, hb', compare_canonical hc hc']

theorem compare_notANumber_left (s : Bool) {b : Nat} (h : infinityBits < b) (v : UnpackedFloat) :
    UnpackedFloat.compare (unpacked s b) v = none := by
  unfold unpacked
  rw [if_pos h]
  rfl

theorem compare_notANumber_right (s : Bool) {b : Nat} (h : infinityBits < b) (v : UnpackedFloat) :
    UnpackedFloat.compare v (unpacked s b) = none := by
  unfold unpacked
  rw [if_pos h]
  cases v <;> rfl

/-- The place of a double. -/
def placeOf (x : Float) : Int := place (isNegative x) (magnitude x)

theorem le_iff (x y : Float) :
    x ≤ y ↔ magnitude x ≤ infinityBits ∧ magnitude y ≤ infinityBits ∧ placeOf x ≤ placeOf y := by
  have hle : x ≤ y ↔ UnpackedFloat.le x.toModel.unpack y.toModel.unpack = true :=
    decide_eq_true_iff
  rw [hle, unpack_toModel, unpack_toModel]
  unfold UnpackedFloat.le
  by_cases hx : magnitude x ≤ infinityBits
  · by_cases hy : magnitude y ≤ infinityBits
    · rw [compare_unpacked _ _ hx hy]
      simp [hx, hy, placeOf, Std.isLE_compare]
    · rw [compare_notANumber_right _ (Nat.lt_of_not_le hy)]
      simp [hy]
  · rw [compare_notANumber_left _ (Nat.lt_of_not_le hx)]
    simp [hx]

theorem lt_iff (x y : Float) :
    x < y ↔ magnitude x ≤ infinityBits ∧ magnitude y ≤ infinityBits ∧ placeOf x < placeOf y := by
  have hlt : x < y ↔ UnpackedFloat.lt x.toModel.unpack y.toModel.unpack = true :=
    decide_eq_true_iff
  rw [hlt, unpack_toModel, unpack_toModel]
  unfold UnpackedFloat.lt
  by_cases hx : magnitude x ≤ infinityBits
  · by_cases hy : magnitude y ≤ infinityBits
    · rw [compare_unpacked _ _ hx hy]
      simp [hx, hy, placeOf, Int.compare_eq_lt]
    · rw [compare_notANumber_right _ (Nat.lt_of_not_le hy)]
      simp [hy]
  · rw [compare_notANumber_left _ (Nat.lt_of_not_le hx)]
    simp [hx]

end Binary64
end SceneScript
