import SceneScript.Proofs.Scalar.Bits

/-!
# What doubles compute

Facts about the arithmetic of doubles, each proved from the model of the logic:

* one is neutral, for every double, the one that is no number included (`mul_one`);
* a finite double times a factor of magnitude at most one is finite (`isFinite_mul`), and times any
  finite factor it is at least no NaN (`magnitude_mul_le`);
* a positive finite double divided by itself is one (`div_self`).

The first and the last rest on `round_shifted`, that a canonical value in a finer disguise is
rounded to itself. The second needs the one inequality about rounding that is not about exact
values: **what is at most a representable value is rounded to at most that value**
(`roundedMantissa_le`).
-/

set_option autoImplicit false

namespace SceneScript
namespace Binary64

open Float.Model Float.Model.UnpackedFloat

/-! ## Shifting -/

theorem shift_eq_repeat (em : ExtendedMantissa) (k : Nat) :
    em >>> k = Nat.repeat ExtendedMantissa.shiftRightOne k em := rfl

theorem shift_mantissa (em : ExtendedMantissa) (k : Nat) :
    (em >>> k).mantissa = em.mantissa / 2 ^ k := by
  rw [shift_eq_repeat]
  induction k with
  | zero => simp [Nat.repeat]
  | succ k ih =>
    show (Nat.repeat ExtendedMantissa.shiftRightOne k em).mantissa / 2 = _
    rw [ih, Nat.div_div_eq_div_mul, Nat.pow_succ]

/-- Nothing is lost where all bits that go are zeros. -/
theorem shift_exact (m k : Nat) :
    (ExtendedMantissa.mk (m * 2 ^ k) false false) >>> k = ExtendedMantissa.mk m false false := by
  rw [shift_eq_repeat]
  induction k generalizing m with
  | zero => simp [Nat.repeat]
  | succ k ih =>
    have hk : m * 2 ^ (k + 1) = (m * 2) * 2 ^ k := by ring
    rw [hk]
    show ExtendedMantissa.shiftRightOne (Nat.repeat ExtendedMantissa.shiftRightOne k _) = _
    rw [ih]
    simp [ExtendedMantissa.shiftRightOne]

theorem roundedMantissa_le_succ (em : ExtendedMantissa) :
    em.roundedMantissa ≤ em.mantissa + 1 := by
  obtain ⟨m, r, s⟩ := em
  cases r <;> cases s <;>
    simp [ExtendedMantissa.roundedMantissa, ExtendedMantissa.accuracy,
      Accuracy.roundToNearestEven]
  omega

theorem roundedMantissa_exact (m : Nat) :
    (ExtendedMantissa.mk m false false).roundedMantissa = m := rfl

/-- **Rounding does not pass a representable value.** -/
theorem roundedMantissa_le {m k bound : Nat} (h : m ≤ bound * 2 ^ k) :
    ((ExtendedMantissa.mk m false false) >>> k).roundedMantissa ≤ bound := by
  have hk : 0 < 2 ^ k := Nat.two_pow_pos k
  have hq : m / 2 ^ k ≤ bound := by
    rw [← Nat.mul_div_left bound hk]
    exact Nat.div_le_div_right h
  rcases Nat.lt_or_eq_of_le hq with hlt | heq
  · have h1 := roundedMantissa_le_succ ((ExtendedMantissa.mk m false false) >>> k)
    rw [shift_mantissa] at h1
    exact h1.trans hlt
  · -- the quotient is the bound itself, so nothing was cut off
    have hm : m = bound * 2 ^ k :=
      Nat.le_antisymm h (heq ▸ Nat.div_mul_le_self m (2 ^ k))
    rw [hm, shift_exact, roundedMantissa_exact]

/-! ## Rounding -/

theorem targetExponent_eq (t : Int) :
    Format.binary64.targetExponent t = max (t - 53) (-1074) := rfl

theorem totalExponent_eq (m : Nat) (e : Int) : totalExponent m e = m.log2 + 1 + e := rfl

theorem Canonical.targetExponent {m : Nat} {e : Int} (h : Canonical m e) :
    Format.binary64.targetExponent (totalExponent m e) = e := by
  rw [targetExponent_eq, totalExponent_eq]
  have hl := h.log2_le
  have hlo := h.least
  rcases h.full with he | hf
  · omega
  · have := h.log2_of_full hf
    omega

theorem log2_mul_two_pow {m : Nat} (hm : m ≠ 0) (k : Nat) :
    (m * 2 ^ k).log2 = m.log2 + k := by
  have h2 : m * 2 ^ k ≠ 0 := Nat.mul_ne_zero hm (Nat.two_pow_pos k).ne'
  refine Nat.le_antisymm ?_ ?_
  · refine Nat.lt_succ_iff.mp ((Nat.log2_lt h2).mpr ?_)
    rw [Nat.succ_eq_add_one, Nat.add_right_comm, Nat.pow_add]
    exact Nat.mul_lt_mul_of_pos_right Nat.lt_log2_self (Nat.two_pow_pos k)
  · refine (Nat.le_log2 h2).mpr ?_
    rw [Nat.pow_add]
    exact Nat.mul_le_mul_right _ (Nat.log2_self_le hm)

theorem totalExponent_shifted {m : Nat} (hm : m ≠ 0) (e : Int) (k : Nat) :
    totalExponent (m * 2 ^ k) (e - k) = totalExponent m e := by
  rw [totalExponent_eq, totalExponent_eq, log2_mul_two_pow hm]
  push_cast
  ring

theorem shiftToExponent_exact (m : Nat) (e : Int) (k : Nat) :
    shiftToExponent (m * 2 ^ k) (e - k) .exact e = (ExtendedMantissa.mk m false false, e) := by
  have hk : (e - (e - k)).toNat = k := by omega
  unfold shiftToExponent
  dsimp only
  rw [hk]
  exact Prod.ext (shift_exact m k) (by show e - k + k = e; omega)

/-- **A canonical value in a finer disguise is rounded to itself.** -/
theorem round_shifted {m : Nat} {e : Int} (h : Canonical m e) (s : Sign) (k : Nat) :
    roundWithAccuracy Format.binary64 s (m * 2 ^ k) (e - k) .exact = .finite s m e h.pos := by
  have h1 : shiftToTargetExponent Format.binary64 (m * 2 ^ k) (e - k) .exact =
      (ExtendedMantissa.mk m false false, e) := by
    unfold shiftToTargetExponent
    dsimp only
    rw [totalExponent_shifted h.pos.ne', h.targetExponent, shiftToExponent_exact]
  have h2 : shiftToTargetExponent Format.binary64 m e .exact =
      (ExtendedMantissa.mk m false false, e) := by
    unfold shiftToTargetExponent
    dsimp only
    rw [h.targetExponent]
    have h0 := shiftToExponent_exact m e 0
    simpa using h0
  unfold roundWithAccuracy
  rw [h1]
  dsimp only
  rw [roundedMantissa_exact, h2]
  dsimp only
  rw [dif_neg h.pos.ne']

theorem targetExponent_le {m m' : Nat} {e e' : Int} (h : Canonical m e) (hm' : m' ≠ 0)
    (he : e' ≤ e) (hm : m' ≤ m * 2 ^ (e - e').toNat) :
    Format.binary64.targetExponent (totalExponent m' e') ≤ e := by
  have hlog : m'.log2 ≤ m.log2 + (e - e').toNat := by
    rw [← log2_mul_two_pow h.pos.ne']
    have h0 : m * 2 ^ (e - e').toNat ≠ 0 := Nat.mul_ne_zero h.pos.ne' (Nat.two_pow_pos _).ne'
    exact (Nat.le_log2 h0).mpr ((Nat.log2_self_le hm').trans hm)
  have ht := h.targetExponent
  rw [targetExponent_eq, totalExponent_eq] at ht ⊢
  omega

/-- **What is at most a canonical value is rounded to zero or to a value with no greater
    exponent.** -/
theorem round_le {m : Nat} {e : Int} (h : Canonical m e) (s : Sign) {m' : Nat} {e' : Int}
    (he : e' ≤ e) (hm : m' ≤ m * 2 ^ (e - e').toNat) :
    roundWithAccuracy Format.binary64 s m' e' .exact = .zero s ∨
      ∃ (m'' : Nat) (e'' : Int) (h'' : 0 < m''), e'' ≤ e ∧
        roundWithAccuracy Format.binary64 s m' e' .exact = .finite s m'' e'' h'' := by
  unfold roundWithAccuracy shiftToTargetExponent shiftToExponent
  dsimp only [ExtendedMantissa.ofMantissaAndAccuracy]
  -- the significand is shifted twice, since rounding may carry; `targetExponent_le` bounds both
  set k := (Format.binary64.targetExponent (totalExponent m' e') - e').toNat with hk
  set r := ((ExtendedMantissa.mk m' false false) >>> k).roundedMantissa with hr
  set k' := (Format.binary64.targetExponent (totalExponent r (e' + k)) - (e' + k)).toNat with hk'
  rw [shift_mantissa]
  by_cases h0 : r / 2 ^ k' = 0
  · left
    rw [dif_pos h0]
  · right
    rw [dif_neg h0]
    have hr0 : r ≠ 0 := fun h1 => h0 (by rw [h1, Nat.zero_div])
    have hm0 : m' ≠ 0 := by
      intro h1
      have : r ≤ 0 := roundedMantissa_le (by rw [h1, Nat.zero_mul])
      omega
    have hk1 : e' + k ≤ e := by
      have := targetExponent_le h hm0 he hm
      omega
    have hr1 : r ≤ m * 2 ^ (e - (e' + k)).toNat := by
      refine roundedMantissa_le (hm.trans_eq ?_)
      rw [Nat.mul_assoc, ← Nat.pow_add]
      congr 2
      omega
    refine ⟨_, _, Nat.pos_of_ne_zero h0, ?_, rfl⟩
    have := targetExponent_le h hr0 hk1 hr1
    omega

/-! ## Products -/

theorem mul_eq (x y : Float) :
    x * y = packed (UnpackedFloat.mul Format.binary64 (unpacked (isNegative x) (magnitude x))
      (unpacked (isNegative y) (magnitude y))) := by
  rw [← unpack_toModel, ← unpack_toModel]
  rfl

theorem div_eq (x y : Float) :
    x / y = packed (UnpackedFloat.div Format.binary64 (unpacked (isNegative x) (magnitude x))
      (unpacked (isNegative y) (magnitude y))) := by
  rw [← unpack_toModel, ← unpack_toModel]
  rfl

theorem magnitude_ofNat_zero : magnitude (Scalar.ofNat 0 : Float) = 0 := by decide

/-- The bits of one. -/
def oneBits : Nat := 1023 * perExponent

theorem ofNat_one : (Scalar.ofNat 1 : Float) = toFloat false oneBits := by
  have hone : nearest 1 1 = oneBits := by decide
  exact congrArg (toFloat false) hone

theorem decode_oneBits : decode oneBits = (perExponent, -52) := by decide

theorem unpacked_one :
    unpacked false oneBits = .finite .positive perExponent (-52) (by decide) :=
  unpacked_of_decode (by decide) decode_oneBits (by decide)

theorem mul_finite {s s' : Sign} {m m' : Nat} {e e' : Int} {h : 0 < m} {h' : 0 < m'} :
    UnpackedFloat.mul Format.binary64 (.finite s m e h) (.finite s' m' e' h') =
      roundWithAccuracy Format.binary64 (s * s') (m * m') (e + e') .exact := rfl

theorem sign_mul_positive (negative : Bool) : sign negative * .positive = sign negative := by
  cases negative <;> rfl

/-- **One is neutral**, for infinities and what is no number as well. -/
theorem mul_one (x : Float) : x * Scalar.ofNat 1 = x := by
  rw [ofNat_one, mul_eq, isNegative_toFloat _ (by decide), magnitude_toFloat _ (by decide),
    unpacked_one]
  conv_rhs => rw [← packed_unpack x]
  congr 1
  obtain ⟨-, h⟩ | ⟨-, h⟩ | ⟨-, h⟩ | ⟨m, e, hc, -, h⟩ :=
    unpacked_cases (isNegative x) (magnitude x)
  · rw [h]
    rfl
  · rw [h]
    show UnpackedFloat.infinity _ = _
    rw [sign_mul_positive]
  · rw [h]
    show UnpackedFloat.zero _ = _
    rw [sign_mul_positive]
  · rw [h, mul_finite, sign_mul_positive]
    exact round_shifted hc (sign (isNegative x)) 52

/-- The significand of a magnitude of at most one is at most the power of two that it counts in
    parts of. -/
theorem significand_of_le_one {bits m : Nat} {e : Int} (hb : bits ≤ oneBits)
    (hd : decode bits = (m, e)) (h0 : 0 < m) : e ≤ 0 ∧ m ≤ 2 ^ (-e).toNat := by
  have hlt : bits < infinityBits := hb.trans_lt (by decide)
  obtain ⟨hlo, -, hm, -, hbits⟩ := decode_spec hlt
  rw [hd] at hlo hm hbits
  dsimp only at hlo hm hbits
  unfold oneBits at hb
  have hp : perExponent = 2 ^ 52 := rfl
  have he : e ≤ -52 := by
    by_contra hgt
    have : 1023 ≤ (e + 1074).toNat := by omega
    have := Nat.mul_le_mul_right perExponent this
    omega
  refine ⟨by omega, ?_⟩
  rcases Int.lt_or_eq_of_le he with hlt | rfl
  · calc m ≤ 2 ^ 53 := by omega
      _ ≤ 2 ^ (-e).toNat := Nat.pow_le_pow_right (by decide) (by omega)
  · have : ((-52 : Int) + 1074).toNat = 1022 := rfl
    rw [this] at hbits
    show m ≤ 2 ^ 52
    omega

theorem magnitude_packed_zero (s : Sign) : magnitude (packed (.zero s)) = 0 := by
  cases s <;> decide

theorem isFinite_packed_zero (s : Sign) : Scalar.isFinite (packed (.zero s)) = true := by
  rw [isFinite_iff, magnitude_packed_zero]
  decide

/-- **A finite double times a factor of magnitude at most one is finite.** -/
theorem isFinite_mul {x y : Float} (hx : Scalar.isFinite x = true)
    (hy : magnitude y ≤ oneBits) : Scalar.isFinite (x * y) = true := by
  rw [isFinite_iff] at hx
  have hy' : magnitude y < infinityBits := hy.trans_lt (by decide)
  rw [mul_eq]
  rcases unpacked_finite (isNegative x) hx with ⟨-, h⟩ | ⟨m, e, hc, -, h⟩ <;>
    rcases unpacked_finite (isNegative y) hy' with ⟨-, h'⟩ | ⟨m', e', hc', hd', h'⟩ <;>
    rw [h, h']
  · exact isFinite_packed_zero _
  · exact isFinite_packed_zero _
  · exact isFinite_packed_zero _
  · obtain ⟨he', hm'⟩ := significand_of_le_one hy hd' hc'.pos
    have hshift : (e - (e + e')).toNat = (-e').toNat := by omega
    have hle : m * m' ≤ m * 2 ^ (e - (e + e')).toNat := by
      rw [hshift]
      exact Nat.mul_le_mul_left m hm'
    rw [mul_finite]
    rcases round_le hc _ (by omega) hle with hz | ⟨m'', e'', h'', he'', hf⟩
    · rw [hz]
      exact isFinite_packed_zero _
    · rw [hf]
      exact isFinite_packed_finite h'' (he''.trans hc.greatest)

theorem round_cases (s : Sign) (m : Nat) (e : Int) :
    roundWithAccuracy Format.binary64 s m e .exact = .zero s ∨
      ∃ (m' : Nat) (e' : Int) (h : 0 < m'),
        roundWithAccuracy Format.binary64 s m e .exact = .finite s m' e' h := by
  unfold roundWithAccuracy
  dsimp only
  set shifted := shiftToTargetExponent Format.binary64 m e .exact
  set r := shiftToTargetExponent Format.binary64 shifted.1.roundedMantissa shifted.2 .exact
  by_cases h0 : r.1.mantissa = 0
  · left
    rw [dif_pos h0]
  · right
    exact ⟨_, _, Nat.pos_of_ne_zero h0, dif_neg h0⟩

/-- A value that is too large packs to an infinity. -/
theorem pack_large (s : Sign) {m : Nat} {e : Int} (hm : 0 < m) (he : 971 < e) :
    UnpackedFloat.pack Format.binary64 (.finite s m e hm) =
      UnpackedFloat.pack Format.binary64 (.infinity s) := by
  have hlarge : 2 ^ Format.binary64.exponentBits ≤ (e + (Format.binary64.exponentBias : Int) +
      (Format.binary64.mantissaBitsWithoutImplicit : Int)).toNat + 1 := by
    show 2 ^ 11 ≤ (e + 1023 + 52).toNat + 1
    omega
  exact if_pos hlarge

/-- What is packed from a finite value is finite or, where the value is too large, an infinity. -/
theorem magnitude_packed_finite_le (s : Sign) {m : Nat} (e : Int) (hm : 0 < m) :
    magnitude (packed (.finite s m e hm)) ≤ infinityBits := by
  by_cases he : e ≤ 971
  · exact ((isFinite_iff _).mp (isFinite_packed_finite hm he)).le
  · unfold magnitude
    rw [toNat_toBits_packed, pack_large s hm (not_le.mp he)]
    cases s <;> decide

/-- **The product of finite doubles is a number or an infinity.** -/
theorem magnitude_mul_le {x y : Float} (hx : Scalar.isFinite x = true)
    (hy : Scalar.isFinite y = true) : magnitude (x * y) ≤ infinityBits := by
  have hzero : ∀ s : Sign, magnitude (packed (.zero s)) ≤ infinityBits := fun s =>
    (magnitude_packed_zero s).trans_le (Nat.zero_le _)
  rw [isFinite_iff] at hx hy
  rw [mul_eq]
  rcases unpacked_finite (isNegative x) hx with ⟨-, h⟩ | ⟨m, e, hc, -, h⟩ <;>
    rcases unpacked_finite (isNegative y) hy with ⟨-, h'⟩ | ⟨m', e', hc', -, h'⟩ <;>
    rw [h, h']
  · exact hzero _
  · exact hzero _
  · exact hzero _
  · rw [mul_finite]
    rcases round_cases _ (m * m') (e + e') with hz | ⟨m'', e'', h'', hf⟩
    · rw [hz]
      exact hzero _
    · rw [hf]
      exact magnitude_packed_finite_le _ e'' h''

/-- Zero times a finite double is a zero, of either sign. -/
theorem magnitude_zero_mul {x : Float} (hx : Scalar.isFinite x = true) :
    magnitude (Scalar.ofNat 0 * x) = 0 := by
  rw [isFinite_iff] at hx
  rw [mul_eq, magnitude_ofNat_zero, unpacked_of_zero]
  rcases unpacked_finite (isNegative x) hx with ⟨-, h⟩ | ⟨m, e, hc, -, h⟩
  · rw [h]
    exact magnitude_packed_zero _
  · rw [h]
    exact magnitude_packed_zero _

/-! ## Quotients -/

theorem div_finite {s s' : Sign} {m m' : Nat} {e e' : Int} {h : 0 < m} {h' : 0 < m'} :
    UnpackedFloat.div Format.binary64 (.finite s m e h) (.finite s' m' e' h') =
      roundWithAccuracy Format.binary64 (s / s') (divCore Format.binary64 m e m' e').1
        (divCore Format.binary64 m e m' e').2.1 (divCore Format.binary64 m e m' e').2.2 := rfl

/-- The exact quotient of a value by itself, with one bit to spare. -/
theorem divCore_self {m : Nat} (h : 0 < m) (e : Int) :
    divCore Format.binary64 m e m e = (2 ^ 53, -53, .exact) := by
  have ht : Format.binary64.targetExponent (totalExponent m e - totalExponent m e) = -53 := by
    rw [targetExponent_eq]
    omega
  unfold divCore
  dsimp only
  rw [ht, Int.sub_self]
  show (m <<< 53 / m, (-53 : Int), accuracyOfFraction (m <<< 53 % m) m) = _
  rw [Nat.shiftLeft_eq, Nat.mul_div_cancel_left _ h, Nat.mul_mod_right]
  rfl

/-- **A finite double that is not zero divided by itself is one.** -/
theorem div_self {x : Float} (hx : Scalar.isFinite x = true) (h0 : magnitude x ≠ 0) :
    x / x = Scalar.ofNat 1 := by
  rw [isFinite_iff] at hx
  rw [ofNat_one, ← packed_unpacked false (by decide), unpacked_one, div_eq]
  congr 1
  obtain ⟨hz, -⟩ | ⟨m, e, hc, -, h⟩ := unpacked_finite (isNegative x) hx
  · exact absurd hz h0
  · have hone : Canonical perExponent (-52) :=
      ⟨by decide, by decide, by decide, by decide, .inr le_rfl⟩
    have hs : ∀ s : Sign, s / s = .positive := fun s => by cases s <;> rfl
    rw [h, div_finite, divCore_self hc.pos, hs]
    exact round_shifted hone .positive 1

end Binary64
end SceneScript
