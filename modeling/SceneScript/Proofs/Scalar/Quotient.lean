import Mathlib.Data.Nat.Log
import SceneScript.Proofs.Scalar.Lawful
import SceneScript.Proofs.Scalar.Sum

/-!
# Quotients from one on

How far a tween is over is a quotient of doubles, and whether it is over is a comparison of the two.
The two agree at the end: **of two doubles the greater one, divided by the other one, is at least
one** (`one_le_div`), although the quotient is rounded.

The reason is that rounding keeps the leading bit where it is or moves it up (`round_of_full`), so
that it does not pass a power of two from above.
-/

set_option autoImplicit false

namespace SceneScript
namespace Binary64

open Float.Model Float.Model.UnpackedFloat

/-! ## Rounding keeps the leading bit -/

theorem log2_div_two_pow (m k : Nat) : (m / 2 ^ k).log2 = m.log2 - k := by
  rw [Nat.log2_eq_log_two, Nat.log2_eq_log_two, Nat.log_div_base_pow]

theorem mantissa_le_roundedMantissa (em : ExtendedMantissa) :
    em.mantissa ≤ em.roundedMantissa := by
  obtain ⟨m, r, s⟩ := em
  cases r <;> cases s <;>
    simp [ExtendedMantissa.roundedMantissa, ExtendedMantissa.accuracy,
      Accuracy.roundToNearestEven]

theorem mantissa_ofMantissaAndAccuracy (m : Nat) (a : Accuracy) :
    (ExtendedMantissa.ofMantissaAndAccuracy m a).mantissa = m := by
  cases a with
  | exact => rfl
  | inexact o => cases o <;> rfl

/-- Shifting a significand of 53 bits or more to where it belongs leaves 53 bits of it, and their
    weight is that of the first bit. -/
theorem shiftToTargetExponent_of_full {m : Nat} {e : Int} (a : Accuracy) (hm : 52 ≤ m.log2)
    (he : 0 ≤ m.log2 + e) :
    (shiftToTargetExponent Format.binary64 m e a).1.mantissa.log2 = 52 ∧
      (shiftToTargetExponent Format.binary64 m e a).2 = m.log2 + e - 52 := by
  have ht : Format.binary64.targetExponent (totalExponent m e) = m.log2 + e - 52 := by
    rw [targetExponent_eq, totalExponent_eq]
    omega
  have hk : (m.log2 + e - 52 - e).toNat = m.log2 - 52 := by omega
  unfold shiftToTargetExponent shiftToExponent
  dsimp only
  rw [ht, hk, shift_mantissa, mantissa_ofMantissaAndAccuracy, log2_div_two_pow]
  omega

/-- **What is at least one is rounded to a value with 53 bits, the first of which weighs at least
    one.** -/
theorem round_of_full (s : Sign) {m : Nat} {e : Int} (a : Accuracy) (hm : 52 ≤ m.log2)
    (he : 0 ≤ m.log2 + e) :
    ∃ (m' : Nat) (e' : Int) (h : 0 < m'),
      roundWithAccuracy Format.binary64 s m e a = .finite s m' e' h ∧ m'.log2 = 52 ∧ -52 ≤ e' := by
  obtain ⟨hlog, hexp⟩ := shiftToTargetExponent_of_full a hm he
  unfold roundWithAccuracy
  dsimp only
  set first := shiftToTargetExponent Format.binary64 m e a
  -- rounding may carry into a new leading bit, and never takes one away
  have hcarry : 52 ≤ first.1.roundedMantissa.log2 := by
    rw [← hlog, Nat.log2_eq_log_two, Nat.log2_eq_log_two]
    exact Nat.log_mono_right (mantissa_le_roundedMantissa first.1)
  obtain ⟨hlog', hexp'⟩ := shiftToTargetExponent_of_full (e := first.2) .exact hcarry (by omega)
  have hne : (shiftToTargetExponent Format.binary64 first.1.roundedMantissa first.2
      .exact).1.mantissa ≠ 0 := by
    intro h0
    rw [h0] at hlog'
    exact absurd hlog' (by decide)
  exact ⟨_, _, Nat.pos_of_ne_zero hne, dif_neg hne, hlog', by omega⟩

theorem packed_finite {m : Nat} {e : Int} (h : Canonical m e) (negative : Bool) :
    packed (.finite (sign negative) m e h.pos) =
      toFloat negative ((e + 1074).toNat * perExponent + m) := by
  have hbits : (e + 1074).toNat * perExponent + m ≤ infinityBits := by
    have hm := h.below
    have he := h.greatest
    have hk : (e + 1074).toNat ≤ 2045 := by omega
    unfold infinityBits
    have := Nat.mul_le_mul_right perExponent hk
    omega
  refine eq_of_toBits ?_
  rw [toNat_toBits_packed, toNat_pack_finite h, toBits_eq, isNegative_toFloat _ hbits,
    magnitude_toFloat _ hbits]

theorem packed_large (negative : Bool) {m : Nat} {e : Int} (h : 0 < m) (he : 971 < e) :
    packed (.finite (sign negative) m e h) = toFloat negative infinityBits := by
  refine eq_of_toBits ?_
  rw [toNat_toBits_packed, pack_large _ h he, toNat_pack_infinity, toBits_eq,
    isNegative_toFloat _ le_rfl, magnitude_toFloat _ le_rfl]

/-- Among doubles that are not negative the bits decide. -/
theorem le_toFloat_iff {bits bits' : Nat} (h : bits ≤ infinityBits) (h' : bits' ≤ infinityBits) :
    toFloat false bits ≤ toFloat false bits' ↔ bits ≤ bits' := by
  have hplace : ∀ b, b ≤ infinityBits → placeOf (toFloat false b) = b := by
    intro b hb
    unfold placeOf place
    rw [isNegative_toFloat _ hb, magnitude_toFloat _ hb, if_neg Bool.false_ne_true]
  rw [le_iff, magnitude_toFloat _ h, magnitude_toFloat _ h', hplace _ h, hplace _ h',
    and_iff_right h, and_iff_right h', Nat.cast_le]

/-- **A value of at least one packs to a double of at least one**, or to the infinity. -/
theorem one_le_packed {m : Nat} {e : Int} (h : 0 < m) (hm : m.log2 = 52) (he : -52 ≤ e) :
    Scalar.ofNat 1 ≤ packed (.finite .positive m e h) := by
  obtain ⟨bits, hone, hinf, hp⟩ : ∃ bits, oneBits ≤ bits ∧ bits ≤ infinityBits ∧
      packed (.finite (sign false) m e h) = toFloat false bits := by
    by_cases hlarge : 971 < e
    · exact ⟨infinityBits, by decide, le_rfl, packed_large false h hlarge⟩
    · have hfull : perExponent ≤ m := (Nat.le_log2 h.ne').mp hm.ge
      have hbelow : m < 2 * perExponent := (Nat.log2_lt h.ne').mp (by omega : m.log2 < 53)
      refine ⟨_, ?_, ?_, packed_finite ⟨h, hbelow, by omega, by omega, .inr hfull⟩ false⟩
      · unfold oneBits perExponent at *
        omega
      · unfold infinityBits perExponent at *
        omega
  rw [show Sign.positive = sign false from rfl, hp, ofNat_one]
  exact (le_toFloat_iff (by decide) hinf).mpr hone

/-! ## Division -/

/-- The leading bit of the greater value weighs no less, and if it weighs the same, then the
    significands can be compared. -/
theorem leadingBit_le {m m' : Nat} {e e' : Int} (h : Canonical m e) (h' : Canonical m' e')
    (hle : e' < e ∨ e' = e ∧ m' ≤ m) :
    m'.log2 + e' ≤ m.log2 + e ∧ (m.log2 + e = m'.log2 + e' → e' = e ∧ m' ≤ m) := by
  have hl' := h'.log2_le
  have hleast := h'.least
  rcases hle with hlt | ⟨rfl, hm⟩
  · have hfull := h.log2_of_full (h.full.resolve_left (by omega))
    exact ⟨by omega, fun _ => by omega⟩
  · have hlog : m'.log2 ≤ m.log2 := by
      rw [Nat.log2_eq_log_two, Nat.log2_eq_log_two]
      exact Nat.log_mono_right hm
    exact ⟨by omega, fun _ => ⟨rfl, hm⟩⟩

/-- A significand is shifted far enough for 53 bits of the quotient. -/
theorem two_pow_le_quotient {m m' : Nat} (hm : m ≠ 0) (hm' : 0 < m') (hl : m.log2 ≤ 52) :
    2 ^ 52 ≤ m * 2 ^ (m'.log2 + 53 - m.log2) / m' := by
  have hbit := Nat.log2_self_le hm
  have hbit' : m' ≤ 2 ^ (m'.log2 + 1) := Nat.lt_log2_self.le
  refine (Nat.le_div_iff_mul_le hm').mpr ?_
  calc 2 ^ 52 * m' ≤ 2 ^ 52 * 2 ^ (m'.log2 + 1) := Nat.mul_le_mul_left _ hbit'
    _ = 2 ^ m.log2 * 2 ^ (m'.log2 + 53 - m.log2) := by
      rw [← Nat.pow_add, ← Nat.pow_add]
      congr 1
      omega
    _ ≤ m * 2 ^ (m'.log2 + 53 - m.log2) := Nat.mul_le_mul_right _ hbit

/-- The exact quotient of a value by one that is not greater has 53 bits or more, and its first bit
    weighs at least one. -/
theorem divCore_of_le {m m' : Nat} {e e' : Int} (h : Canonical m e) (h' : Canonical m' e')
    (hle : e' < e ∨ e' = e ∧ m' ≤ m) :
    52 ≤ (divCore Format.binary64 m e m' e').1.log2 ∧
      0 ≤ (divCore Format.binary64 m e m' e').1.log2 +
        (divCore Format.binary64 m e m' e').2.1 := by
  have hl := h.log2_le
  obtain ⟨hlead, hsame⟩ := leadingBit_le h h' hle
  have ht : min (e - e') (Format.binary64.targetExponent (totalExponent m e - totalExponent m' e')) =
      m.log2 + e - (m'.log2 + e') - 53 := by
    rw [targetExponent_eq, totalExponent_eq, totalExponent_eq]
    omega
  have hk : (e - e' - (m.log2 + e - (m'.log2 + e') - 53)).toNat = m'.log2 + 53 - m.log2 := by
    omega
  unfold divCore
  dsimp only
  rw [ht, hk, Nat.shiftLeft_eq]
  have hq := two_pow_le_quotient h.pos.ne' h'.pos hl
  have hq0 : m * 2 ^ (m'.log2 + 53 - m.log2) / m' ≠ 0 := (Nat.two_pow_pos 52).trans_le hq |>.ne'
  have hlog := (Nat.le_log2 hq0).mpr hq
  refine ⟨hlog, ?_⟩
  by_cases heq : m.log2 + e = m'.log2 + e'
  · -- the leading bits weigh the same, so one bit more is left of it
    obtain ⟨rfl, hm⟩ := hsame heq
    have h53 : 2 ^ 53 ≤ m * 2 ^ (m'.log2 + 53 - m.log2) / m' := by
      rw [show m'.log2 + 53 - m.log2 = 53 by omega]
      refine (Nat.le_div_iff_mul_le h'.pos).mpr ?_
      rw [Nat.mul_comm m]
      exact Nat.mul_le_mul_left _ hm
    have := (Nat.le_log2 hq0).mpr h53
    omega
  · omega

theorem isNegative_of_pos {x : Float} (h : 0 < x) : isNegative x = false := by
  by_contra hs
  rw [Bool.not_eq_false] at hs
  have hp := placeOf_pos h
  unfold placeOf place at hp
  rw [hs, if_pos rfl] at hp
  omega

theorem pos_of_le {x y : Float} (h : 0 < x) (hle : x ≤ y) : 0 < y := by
  obtain ⟨h0, -, hx⟩ := (lt_iff _ _).mp h
  obtain ⟨-, hy, hxy⟩ := (le_iff _ _).mp hle
  exact (lt_iff _ _).mpr ⟨h0, hy, hx.trans_le hxy⟩

/-- Of two positive doubles the greater one has the greater magnitude. -/
theorem magnitude_le_of_le {x y : Float} (h : 0 < x) (hle : x ≤ y) :
    magnitude x ≤ magnitude y := by
  have hplace := ((le_iff _ _).mp hle).2.2
  unfold placeOf place at hplace
  rw [isNegative_of_pos h, isNegative_of_pos (pos_of_le h hle), if_neg Bool.false_ne_true,
    if_neg Bool.false_ne_true] at hplace
  exact_mod_cast hplace

/-- The order of magnitudes is that of their exponents, and that of their significands where the
    exponents are the same. -/
theorem order_of_canonical {m m' : Nat} {e e' : Int} (h : Canonical m e) (h' : Canonical m' e')
    (hle : (e' + 1074).toNat * perExponent + m' ≤ (e + 1074).toNat * perExponent + m) :
    e' < e ∨ e' = e ∧ m' ≤ m := by
  have h1 := h.below
  have h2 := h'.full
  have h3 := h.least
  have h4 := h'.least
  unfold perExponent at *
  omega

/-- **Of two positive doubles the greater one divided by the other one is at least one.** -/
theorem one_le_div {x y : Float} (hx : Scalar.isFinite x = true) (hy : 0 < y) (h : y ≤ x) :
    Scalar.ofNat 1 ≤ x / y := by
  rw [isFinite_iff] at hx
  have hle := magnitude_le_of_le hy h
  have hy' : magnitude y < infinityBits := hle.trans_lt hx
  have hy0 := magnitude_ne_zero_of_pos hy
  rw [div_eq, isNegative_of_pos (pos_of_le hy h), isNegative_of_pos hy]
  obtain ⟨hz, -⟩ | ⟨m, e, hc, hd, hu⟩ := unpacked_finite false hx
  · omega
  obtain ⟨hz, -⟩ | ⟨m', e', hc', hd', hu'⟩ := unpacked_finite false hy'
  · omega
  have hb := (decode_spec hx).2.2.2.2
  have hb' := (decode_spec hy').2.2.2.2
  rw [hd] at hb
  rw [hd'] at hb'
  have horder := order_of_canonical hc hc' (hb'.symm.trans_le (hle.trans_eq hb))
  obtain ⟨hq, he⟩ := divCore_of_le hc hc' horder
  obtain ⟨m'', e'', h'', hr, hlog, hexp⟩ :=
    round_of_full .positive (divCore Format.binary64 m e m' e').2.2 hq he
  have hdiv : UnpackedFloat.div Format.binary64 (unpacked false (magnitude x))
      (unpacked false (magnitude y)) = .finite .positive m'' e'' h'' := by
    rw [hu, hu', div_finite]
    exact hr
  rw [hdiv]
  exact one_le_packed h'' hlog hexp

/-! ## Differences and whole numbers -/

theorem sub_eq (x y : Float) :
    x - y = packed (UnpackedFloat.sub Format.binary64 (unpacked (isNegative x) (magnitude x))
      (unpacked (isNegative y) (magnitude y))) := by
  rw [← unpack_toModel, ← unpack_toModel]
  rfl

/-- **Zero is neutral on the right of a difference**, for infinities and what is no number as
    well. -/
theorem sub_zero (x : Float) : x - Scalar.ofNat 0 = x := by
  rw [sub_eq, magnitude_ofNat_zero, show isNegative (Scalar.ofNat 0 : Float) = false by decide,
    unpacked_of_zero]
  conv_rhs => rw [← packed_unpack x]
  congr 1
  obtain ⟨-, h⟩ | ⟨-, h⟩ | ⟨-, h⟩ | ⟨m, e, hc, -, h⟩ :=
    unpacked_cases (isNegative x) (magnitude x)
  · rw [h]
    rfl
  · rw [h]
    rfl
  · rw [h]
    cases isNegative x <;> rfl
  · rw [h]
    rfl

/-- **The doubles of whole numbers are in their order**, as far as they are in range. -/
theorem ofInt?_mono {n k : Int} (hn : 0 ≤ n) (hk : n ≤ k) {x y : Float}
    (hx : Binary64.ofInt? n = some x) (hy : Binary64.ofInt? k = some y) : x ≤ y := by
  have hle : nearest n.natAbs 1 ≤ nearest k.natAbs 1 := by
    refine nearest_mono one_ne_zero one_ne_zero ?_
    rw [Nat.cast_one, div_one, div_one]
    exact_mod_cast (by omega : n.natAbs ≤ k.natAbs)
  unfold Binary64.ofInt? at hx hy
  dsimp only at hx hy
  split at hx
  · next hltx =>
    split at hy
    · next hlty =>
      obtain rfl := Option.some.inj hx
      obtain rfl := Option.some.inj hy
      rw [decide_eq_false (by omega), decide_eq_false (by omega)]
      exact (le_toFloat_iff hltx.le hlty.le).mpr hle
    · cases hy
  · cases hx

theorem le_trans {x y z : Float} (h : x ≤ y) (h' : y ≤ z) : x ≤ z := by
  rw [le_iff] at *
  exact ⟨h.1, h'.2.1, h.2.2.trans h'.2.2⟩

/-- **A finite double that is not below a whole number is not below the double nearest to it.** -/
theorem le_of_atLeast {x y : Float} {n : Int} (hx : Scalar.isFinite x = true) (hn : 0 ≤ n)
    (h : Scalar.atLeast x n = true) (hy : Binary64.ofInt? n = some y) : y ≤ x := by
  have hfloor : Scalar.floor x = Binary64.floor x := rfl
  unfold Scalar.isFinite at hx
  unfold Scalar.atLeast at h
  rw [hfloor] at h hx
  cases hf : Binary64.floor x with
  | error e =>
    rw [hf] at hx
    cases hx
  | ok k =>
    rw [hf] at h
    obtain ⟨z, hz, hle⟩ := ofInt?_floor hf
    exact le_trans (ofInt?_mono hn (of_decide_eq_true h) hy hz) hle

theorem pos_of_ofInt?_of_pos {n : Int} {x : Float} (hn : 0 < n) (h : Binary64.ofInt? n = some x) :
    0 < x := by
  have hone : Binary64.ofInt? 1 = some 1 := by decide
  exact pos_of_le (by decide) (ofInt?_mono (by decide) (by omega : 1 ≤ n) hone h)

end Binary64
end SceneScript
