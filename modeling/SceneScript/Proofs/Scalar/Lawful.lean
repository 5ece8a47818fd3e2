import SceneScript.Proofs.Decimal.ReadBack
import SceneScript.Proofs.Scalar.Arithmetic
import SceneScript.Proofs.Scalar.Floor
import SceneScript.Text.DecimalDigit

/-!
# What scripts rely on in their numbers

Reading, reconciling and writing a script use few facts about numbers, and they are listed here as
laws. **Doubles satisfy them all**; nothing about doubles is assumed. The modules on scripts cite
the laws and look at no bits.

Equality of numbers is not equality of doubles, since the two zeros differ and a whole number may
come back for a real. Two numbers are the **same** when each is at most the other.
-/

set_option autoImplicit false

namespace SceneScript

namespace Scalar

variable {α : Type} [Scalar α]

/-- The numbers have the same place in the order. -/
def Same (x y : α) : Prop := x ≤ y ∧ y ≤ x

/-- The factor makes no finite number infinite. -/
def Keeps (factor : α) : Prop := ∀ x : α, isFinite x = true → isFinite (x * factor) = true

/-- The factor makes no finite number one that equals nothing, and it leaves zero where it is. -/
structure Scales (factor : α) : Prop where
  same_mul : ∀ x : α, isFinite x = true → Same (x * factor) (x * factor)
  same_zero_mul : Same (ofNat 0) (ofNat 0 * factor)

/-- What reading and reconciling rely on. -/
class Lawful (α : Type) [Scalar α] : Prop where
  mul_one : ∀ x : α, x * ofNat 1 = x
  isFinite_zero : isFinite (ofNat 0 : α) = true
  isFinite_one : isFinite (ofNat 1 : α) = true
  isFinite_of_ofInt? : ∀ {n : Int} {x : α}, ofInt? n = some x → isFinite x = true
  /-- The floor is in range, and it does not pass the number. -/
  ofInt?_floor : ∀ {x : α} {n : Int}, floor x = .ok n → ∃ y : α, ofInt? n = some y ∧ y ≤ x
  /-- So are the hundredths of the floor. -/
  isFinite_hundredths : ∀ {x : α} {n : Int}, floor x = .ok n →
    isFinite (ofDecimal ⟨decide (n < 0), n.natAbs, -2⟩ : α) = true
  /-- Zeros behind the digits of a numeral change nothing. -/
  ofDecimal_mul_pow : ∀ (negative : Bool) (digits k : Nat) (e : Int),
    (ofDecimal ⟨negative, digits * 10 ^ k, e - k⟩ : α) = ofDecimal ⟨negative, digits, e⟩

theorem whole?_eq_some [Lawful α] {x : α} {n : Int} (h : whole? x = some n) :
    ∃ y : α, ofInt? n = some y ∧ Same y x := by
  unfold whole? at h
  split at h
  · next k hk =>
    obtain ⟨y, hy, hle⟩ := Lawful.ofInt?_floor hk
    rw [hy] at h
    dsimp only at h
    split at h
    · next hxy =>
      obtain rfl := Option.some.inj h
      exact ⟨y, hy, hle, hxy⟩
    · cases h
  · cases h

/-- What writing relies on besides. -/
class Readable (α : Type) [WrittenScalar α] : Prop extends Lawful α where
  ofDecimal_toDecimal : ∀ {x : α}, isFinite x = true → ofDecimal (WrittenScalar.toDecimal x) = x
  /-- A whole number in range is short enough to be written. -/
  length_toDigits : ∀ {n : Int} {x : α}, ofInt? n = some x →
    (Nat.toDigits 10 n.natAbs).length ≤ Text.maxDigits
  /-- A zero is written without a power of ten. -/
  exponent_of_digits_eq_zero : ∀ {x : α}, isFinite x = true →
    (WrittenScalar.toDecimal x).digits = 0 → (WrittenScalar.toDecimal x).exponent = 0

end Scalar

/-! ## Doubles -/

namespace Binary64

theorem placeOf_zero : placeOf (0 : Float) = 0 := by decide

theorem placeOf_ofNat_zero : placeOf (Scalar.ofNat 0 : Float) = 0 := by decide

theorem placeOf_one : placeOf (1 : Float) = oneBits := by decide

theorem placeOf_neg_one : placeOf (-1 : Float) = -oneBits := by decide

/-- **A factor between minus one and one makes no finite double infinite.** -/
theorem keeps_of_le_one {factor : Float} (hlo : -1 ≤ factor) (hhi : factor ≤ 1) :
    Scalar.Keeps factor := by
  have h1 := ((le_iff _ _).mp hlo).2.2
  have h2 := ((le_iff _ _).mp hhi).2.2
  rw [placeOf_neg_one] at h1
  rw [placeOf_one] at h2
  unfold placeOf place at h1 h2
  intro x hx
  refine isFinite_mul hx ?_
  cases hs : isNegative factor <;> rw [hs] at h1 h2 <;>
    simp only [if_true, Bool.false_eq_true, if_false] at h1 h2 <;> omega

theorem placeOf_pos {x : Float} (h : 0 < x) : 0 < placeOf x := by
  have hp := ((lt_iff _ _).mp h).2.2
  rwa [placeOf_zero] at hp

/-- **A factor above zero and not above one makes no finite double infinite.** -/
theorem keeps_of_pos_le_one {factor : Float} (hpos : 0 < factor) (hhi : factor ≤ 1) :
    Scalar.Keeps factor := by
  have hp := placeOf_pos hpos
  have hlo : placeOf (-1 : Float) ≤ placeOf factor := by
    rw [placeOf_neg_one]
    omega
  exact keeps_of_le_one ((le_iff _ _).mpr ⟨by decide, ((le_iff _ _).mp hhi).1, hlo⟩) hhi

theorem magnitude_ne_zero_of_pos {x : Float} (h : 0 < x) : magnitude x ≠ 0 := by
  intro h0
  have hp := placeOf_pos h
  unfold placeOf place at hp
  rw [h0] at hp
  split at hp <;> omega

theorem not_le_zero_of_pos {x : Float} (h : 0 < x) : ¬ x ≤ Scalar.ofNat 0 := by
  intro hle
  have hp := ((le_iff _ _).mp hle).2.2
  rw [placeOf_ofNat_zero] at hp
  exact absurd (placeOf_pos h) (by omega)

theorem same_self {x : Float} (h : magnitude x ≤ infinityBits) : Scalar.Same x x :=
  ⟨(le_iff x x).mpr ⟨h, h, le_rfl⟩, (le_iff x x).mpr ⟨h, h, le_rfl⟩⟩

/-- Zeros of either sign are the same. -/
theorem same_zero {x : Float} (h : magnitude x = 0) : Scalar.Same (Scalar.ofNat 0) x := by
  have hp : placeOf x = 0 := by
    unfold placeOf place
    rw [h]
    split <;> rfl
  have hx : magnitude x ≤ infinityBits := h.trans_le (Nat.zero_le _)
  have h0 : magnitude (Scalar.ofNat 0 : Float) ≤ infinityBits :=
    magnitude_ofNat_zero.trans_le (Nat.zero_le _)
  exact ⟨(le_iff _ _).mpr ⟨h0, hx, (placeOf_ofNat_zero.trans hp.symm).le⟩,
    (le_iff _ _).mpr ⟨hx, h0, (hp.trans placeOf_ofNat_zero.symm).le⟩⟩

/-- **A finite double scales.** -/
theorem scales_of_isFinite {factor : Float} (h : Scalar.isFinite factor = true) :
    Scalar.Scales factor where
  same_mul _ hx := same_self (magnitude_mul_le hx h)
  same_zero_mul := same_zero (magnitude_zero_mul h)

theorem pos_of_ofInt? {n : Int} {x : Float} (h : Binary64.ofInt? n = some x) (hx : 0 < x) :
    0 < n := by
  by_contra hn
  unfold Binary64.ofInt? at h
  dsimp only at h
  split at h
  · next hlt =>
    obtain rfl := Option.some.inj h
    have hp := placeOf_pos hx
    unfold placeOf place at hp
    rw [isNegative_toFloat _ hlt.le, magnitude_toFloat _ hlt.le] at hp
    by_cases h0 : n = 0
    · rw [h0, Int.natAbs_zero, show nearest 0 1 = 0 from rfl] at hp
      exact absurd hp (by decide)
    · rw [decide_eq_true (show n < 0 by omega), if_pos rfl] at hp
      omega
  · cases h

theorem isFinite_hundredths {x : Float} {n : Int} (h : Binary64.floor x = .ok n) :
    Scalar.isFinite (Scalar.ofDecimal ⟨decide (n < 0), n.natAbs, -2⟩ : Float) = true := by
  refine isFinite_toFloat _ ?_
  by_cases h0 : n.natAbs = 0
  · rw [h0, ofScientific_zero]
    decide
  · have hle : nearest (n.natAbs * 1) 100 ≤ nearest n.natAbs 1 := by
      refine nearest_mono (by decide) one_ne_zero ?_
      rw [Nat.mul_one, Nat.cast_one, div_one]
      exact div_le_self (Nat.cast_nonneg _) (by norm_num)
    rw [ofScientific_eq_nearest h0]
    exact hle.trans_lt (nearest_natAbs_floor_lt h)

theorem two_pow_le_ten_pow {k l : Nat} (h : k ≤ l) : 2 ^ k ≤ 10 ^ l :=
  (Nat.pow_le_pow_left (by decide) k).trans (Nat.pow_le_pow_right (by decide) h)

theorem length_toDigits {n : Int} {x : Float} (h : Binary64.ofInt? n = some x) :
    (Nat.toDigits 10 n.natAbs).length ≤ Text.maxDigits := by
  refine (Nat.length_toDigits_le_iff (by decide) (by decide)).mpr ?_
  by_contra hlarge
  have h1 : 2 ^ 1024 ≤ n.natAbs :=
    (two_pow_le_ten_pow (by decide)).trans (Nat.le_of_not_lt hlarge)
  have h2 : nearest n.natAbs 1 = infinityBits := by
    refine nearest_of_large one_ne_zero ?_
    rw [Nat.cast_one, div_one]
    exact_mod_cast h1
  unfold Binary64.ofInt? at h
  dsimp only at h
  rw [h2, if_neg (Nat.lt_irrefl _)] at h
  cases h

end Binary64

instance : Scalar.Readable Float where
  mul_one := Binary64.mul_one
  isFinite_zero := by decide
  isFinite_one := by decide
  isFinite_of_ofInt? := Binary64.isFinite_of_ofInt?
  ofInt?_floor := Binary64.ofInt?_floor
  isFinite_hundredths := Binary64.isFinite_hundredths
  length_toDigits := Binary64.length_toDigits
  ofDecimal_mul_pow negative digits k e := by
    show Binary64.toFloat _ _ = Binary64.toFloat _ _
    rw [Binary64.ofScientific_mul_pow]
  ofDecimal_toDecimal {x} h := by
    rw [Binary64.isFinite_iff] at h
    show Binary64.toFloat (Binary64.isNegative x)
      (Binary64.ofScientific (Binary64.shortest (Binary64.magnitude x)).1
        (Binary64.shortest (Binary64.magnitude x)).2) = x
    rw [Binary64.ofScientific_shortest h, Binary64.toFloat_magnitude h.le]
  exponent_of_digits_eq_zero {x} h h0 := by
    rw [Binary64.isFinite_iff] at h
    exact congrArg Prod.snd (Binary64.shortest_of_digits_eq_zero h h0)

end SceneScript
