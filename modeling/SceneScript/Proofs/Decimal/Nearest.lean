import Mathlib.Algebra.Order.Field.Power
import Mathlib.Data.Rat.Cast.Order
import Mathlib.Tactic.FieldSimp
import Mathlib.Tactic.Linarith
import Mathlib.Tactic.NormNum
import Mathlib.Tactic.Positivity
import Mathlib.Tactic.Ring
import SceneScript.Decimal.Shortest

/-!
# Rounding to the nearest double, as a function of the value

`nearest n d` is computed from a numerator and a denominator, by logarithms and shifts. Two facts
say all that the rest of the development needs to know about it:

* **it is monotone in the quotient** (`nearest_mono`), so it depends on nothing else
  (`nearest_congr`);
* **it fixes the doubles**: the magnitude that some bits stand for is rounded to those bits
  (`nearest_of_value`).

Both go through one characterisation of the exponent that is chosen (`lastPlace_spec`,
`lastPlace_unique`): it is the one at which the quotient has 53 bits before the point, or the least
exponent there is. Everything is stated with powers of two in the rationals, where the two halves
of an exponent, the positive one and the negative one, are one power again (`scaled_eq`).
-/

set_option autoImplicit false

namespace SceneScript
namespace Binary64

/-! ## Scaling by a power -/

theorem zpow_eq_div (base : ℚ) (e : Int) :
    base ^ e = base ^ e.toNat / base ^ (-e).toNat := by
  rcases Int.le_total 0 e with h | h
  · obtain ⟨k, rfl⟩ := Int.eq_ofNat_of_zero_le h
    simp
  · obtain ⟨k, hk⟩ := Int.eq_ofNat_of_zero_le (Int.neg_nonneg.mpr h)
    obtain rfl : e = -(k : Int) := by omega
    simp

/-- A quotient scaled to an exponent is the quotient over that power of two. -/
theorem scaled_eq (n d : Nat) (e : Int) :
    ((n * Nat.pow 2 (-e).toNat : Nat) : ℚ) / ((d * Nat.pow 2 e.toNat : Nat) : ℚ) =
      (n : ℚ) / d / (2 : ℚ) ^ e := by
  rw [zpow_eq_div]
  push_cast [Nat.pow_eq]
  rw [div_div_eq_mul_div, div_mul_eq_mul_div, div_div]

theorem two_zpow_53_add (e : Int) :
    (2 : ℚ) ^ (53 + e) = ((2 * perExponent : Nat) : ℚ) * (2 : ℚ) ^ e := by
  rw [zpow_add₀ two_ne_zero]
  norm_num [perExponent]

theorem two_zpow_52_add (e : Int) :
    (2 : ℚ) ^ (52 + e) = ((perExponent : Nat) : ℚ) * (2 : ℚ) ^ e := by
  rw [zpow_add₀ two_ne_zero]
  norm_num [perExponent]

theorem lt_of_zpow_le_lt {a b : Int} {v : ℚ} (ha : (2 : ℚ) ^ a ≤ v) (hb : v < (2 : ℚ) ^ b) :
    a < b :=
  (zpow_lt_zpow_iff_right₀ (by norm_num)).mp (ha.trans_lt hb)

/-! ## The exponent that is chosen -/

/-- The exponent fits the value: it leaves 53 bits before the point, or fewer where doubles have
    no finer one. -/
structure Fits (v : ℚ) (e : Int) : Prop where
  least : -1074 ≤ e
  below : v < (2 : ℚ) ^ (53 + e)
  full : e = -1074 ∨ (2 : ℚ) ^ (52 + e) ≤ v

/-- **One exponent fits.** -/
theorem Fits.unique {v : ℚ} {e e' : Int} (h : Fits v e) (h' : Fits v e') : e = e' := by
  rcases Int.lt_trichotomy e e' with hlt | heq | hlt
  · rcases h'.full with hm | hf
    · have := h.least
      omega
    · have := lt_of_zpow_le_lt hf h.below
      omega
  · exact heq
  · rcases h.full with hm | hf
    · have := h'.least
      omega
    · have := lt_of_zpow_le_lt hf h'.below
      omega

theorem Fits.mono {v v' : ℚ} {e e' : Int} (h : Fits v e) (h' : Fits v' e') (hv : v ≤ v') :
    e ≤ e' := by
  rcases h.full with hm | hf
  · have := h'.least
    omega
  · have := lt_of_zpow_le_lt (hf.trans hv) h'.below
    omega

theorem log2_bounds {n : Nat} (hn : n ≠ 0) :
    (2 : ℚ) ^ (n.log2 : Int) ≤ n ∧ (n : ℚ) < (2 : ℚ) ^ ((n.log2 : Int) + 1) := by
  constructor
  · rw [zpow_natCast]
    exact_mod_cast Nat.log2_self_le hn
  · rw [show ((n.log2 : Int) + 1) = ((n.log2 + 1 : Nat) : Int) from rfl, zpow_natCast]
    exact_mod_cast Nat.lt_log2_self (n := n)

/-- The two logarithms leave two candidates. -/
theorem quotient_bounds {n d : Nat} (hn : n ≠ 0) (hd : d ≠ 0) :
    (2 : ℚ) ^ (52 + ((n.log2 : Int) - d.log2 - 53)) < (n : ℚ) / d ∧
      (n : ℚ) / d < (2 : ℚ) ^ (54 + ((n.log2 : Int) - d.log2 - 53)) := by
  obtain ⟨hn1, hn2⟩ := log2_bounds hn
  obtain ⟨hd1, hd2⟩ := log2_bounds hd
  have hd0 : (0 : ℚ) < d := by exact_mod_cast Nat.pos_of_ne_zero hd
  have h2 : (2 : ℚ) ≠ 0 := two_ne_zero
  constructor
  · rw [lt_div_iff₀ hd0]
    calc (2 : ℚ) ^ (52 + ((n.log2 : Int) - d.log2 - 53)) * d
        < (2 : ℚ) ^ (52 + ((n.log2 : Int) - d.log2 - 53)) * (2 : ℚ) ^ ((d.log2 : Int) + 1) :=
          mul_lt_mul_of_pos_left hd2 (by positivity)
      _ = (2 : ℚ) ^ (n.log2 : Int) := by
          rw [← zpow_add₀ h2]
          congr 1
          ring
      _ ≤ n := hn1
  · rw [div_lt_iff₀ hd0]
    calc (n : ℚ) < (2 : ℚ) ^ ((n.log2 : Int) + 1) := hn2
      _ = (2 : ℚ) ^ (54 + ((n.log2 : Int) - d.log2 - 53)) * (2 : ℚ) ^ (d.log2 : Int) := by
          rw [← zpow_add₀ h2]
          congr 1
          ring
      _ ≤ (2 : ℚ) ^ (54 + ((n.log2 : Int) - d.log2 - 53)) * d :=
          mul_le_mul_of_nonneg_left hd1 (by positivity)

/-- **The exponent that is chosen fits.** -/
theorem lastPlace_spec {n d : Nat} (hn : n ≠ 0) (hd : d ≠ 0) :
    Fits ((n : ℚ) / d) (lastPlace n d) := by
  obtain ⟨hlo, hhi⟩ := quotient_bounds hn hd
  unfold lastPlace
  set e : Int := (n.log2 : Int) - d.log2 - 53 with he
  have hcond : n * Nat.pow 2 (-e).toNat < d * Nat.pow 2 e.toNat * (2 * perExponent) ↔
      (n : ℚ) / d < (2 : ℚ) ^ (53 + e) := by
    have hpos : (0 : ℚ) < ((d * Nat.pow 2 e.toNat : Nat) : ℚ) := by
      have := Nat.pos_of_ne_zero hd
      exact_mod_cast Nat.mul_pos this (Nat.pow_pos (by decide))
    have hz : (0 : ℚ) < (2 : ℚ) ^ e := by positivity
    rw [two_zpow_53_add, ← div_lt_iff₀ hz, ← scaled_eq, div_lt_iff₀ hpos, Nat.mul_comm (d * _)]
    exact (Nat.cast_lt (α := ℚ)).symm.trans (by rw [Nat.cast_mul (2 * perExponent)])
  dsimp only
  -- below the middle of the two candidates the lower one fits, from there on the upper one
  by_cases h : n * Nat.pow 2 (-e).toNat < d * Nat.pow 2 e.toNat * (2 * perExponent)
  · rw [if_pos h]
    have hb := hcond.mp h
    rcases Int.le_total e (-1074) with hle | hle
    · rw [max_eq_right hle]
      exact ⟨le_refl _, hb.trans_le (zpow_le_zpow_right₀ (by norm_num) (by omega)), Or.inl rfl⟩
    · rw [max_eq_left hle]
      exact ⟨hle, hb, Or.inr hlo.le⟩
  · rw [if_neg h]
    have hb := le_of_not_gt fun hlt => h (hcond.mpr hlt)
    rcases Int.le_total (e + 1) (-1074) with hle | hle
    · rw [max_eq_right hle]
      exact ⟨le_refl _, hhi.trans_le (zpow_le_zpow_right₀ (by norm_num) (by omega)), Or.inl rfl⟩
    · rw [max_eq_left hle]
      refine ⟨hle, ?_, Or.inr ?_⟩
      · rw [show 53 + (e + 1) = 54 + e by ring]
        exact hhi
      · rw [show 52 + (e + 1) = 53 + e by ring]
        exact hb

theorem lastPlace_unique {n d : Nat} (hn : n ≠ 0) (hd : d ≠ 0) {e : Int}
    (h : Fits ((n : ℚ) / d) e) : lastPlace n d = e :=
  (lastPlace_spec hn hd).unique h

/-! ## Rounding to whole numbers -/

theorem le_roundHalfEven (n d : Nat) : n / d ≤ roundHalfEven n d := by
  unfold roundHalfEven
  dsimp only
  split
  · exact le_refl _
  · split
    · exact Nat.le_succ _
    · split
      · exact le_refl _
      · exact Nat.le_succ _

theorem roundHalfEven_le (n d : Nat) : roundHalfEven n d ≤ n / d + 1 := by
  unfold roundHalfEven
  dsimp only
  split
  · exact Nat.le_succ _
  · split
    · exact le_refl _
    · split
      · exact Nat.le_succ _
      · exact le_refl _

theorem roundHalfEven_mul (k : Nat) {d : Nat} (hd : 0 < d) : roundHalfEven (k * d) d = k := by
  unfold roundHalfEven
  rw [Nat.mul_mod_left, Nat.mul_div_left k hd]
  simp [hd]

theorem roundHalfEven_mono {n d n' d' : Nat} (hd : 0 < d) (hd' : 0 < d')
    (h : n * d' ≤ n' * d) : roundHalfEven n d ≤ roundHalfEven n' d' := by
  have hn := Nat.div_add_mod n d
  have hn' := Nat.div_add_mod n' d'
  have hr := Nat.mod_lt n hd
  have hr' := Nat.mod_lt n' hd'
  have hq : n / d ≤ n' / d' := by
    rw [Nat.le_div_iff_mul_le hd']
    refine Nat.le_of_mul_le_mul_right ?_ hd
    calc n / d * d' * d = n / d * d * d' := by ring
      _ ≤ n * d' := Nat.mul_le_mul_right _ (Nat.div_mul_le_self n d)
      _ ≤ n' * d := h
  rcases Nat.lt_or_eq_of_le hq with hlt | heq
  · exact (roundHalfEven_le n d).trans (Nat.le_trans hlt (le_roundHalfEven n' d'))
  · -- the whole parts are the same, so the parts behind the point decide
    have hrem : n % d * d' ≤ n' % d' * d := by
      rw [heq] at hn
      nlinarith
    unfold roundHalfEven
    rw [heq]
    dsimp only
    generalize n' / d' = q at *
    generalize n % d = r at *
    generalize n' % d' = r' at *
    by_cases h1 : 2 * r < d
    · rw [if_pos h1]
      split
      · exact le_refl _
      · split
        · exact Nat.le_succ _
        · split <;> omega
    · have h2 : d' ≤ 2 * r' := by
        by_contra hc
        nlinarith
      rw [if_neg h1, if_neg (by omega : ¬ 2 * r' < d')]
      by_cases h3 : d' < 2 * r'
      · rw [if_pos h3]
        split
        · exact le_refl _
        · split <;> omega
      · have h4 : ¬ d < 2 * r := by
          intro hc
          nlinarith
        rw [if_neg h3, if_neg h4]

/-! ## The nearest double -/

/-- The whole number that a quotient is rounded to at its exponent. -/
def significand (n d : Nat) : Nat :=
  roundHalfEven (n * Nat.pow 2 (-lastPlace n d).toNat) (d * Nat.pow 2 (lastPlace n d).toNat)

theorem nearest_eq {n : Nat} (d : Nat) (hn : n ≠ 0) :
    nearest n d =
      min infinityBits ((lastPlace n d + 1074).toNat * perExponent + significand n d) := by
  unfold nearest
  rw [if_neg hn]
  rfl

theorem scaled_den_pos {d : Nat} (hd : d ≠ 0) (e : Int) : 0 < d * Nat.pow 2 e.toNat :=
  Nat.mul_pos (Nat.pos_of_ne_zero hd) (Nat.pow_pos (by decide))

theorem scaled_le_scaled {n d n' d' : Nat} (hd : d ≠ 0) (hd' : d' ≠ 0) (e : Int)
    (h : (n : ℚ) / d ≤ (n' : ℚ) / d') :
    n * Nat.pow 2 (-e).toNat * (d' * Nat.pow 2 e.toNat) ≤
      n' * Nat.pow 2 (-e).toNat * (d * Nat.pow 2 e.toNat) := by
  have hp : (0 : ℚ) < ((d * Nat.pow 2 e.toNat : Nat) : ℚ) := by
    exact_mod_cast scaled_den_pos hd e
  have hp' : (0 : ℚ) < ((d' * Nat.pow 2 e.toNat : Nat) : ℚ) := by
    exact_mod_cast scaled_den_pos hd' e
  have hz : (0 : ℚ) < (2 : ℚ) ^ e := by positivity
  have hs := div_le_div_of_nonneg_right h hz.le
  rw [← scaled_eq, ← scaled_eq, div_le_div_iff₀ hp hp'] at hs
  exact_mod_cast hs

/-- A significand has at most 53 bits, or is the first number that has more. -/
theorem significand_le {n d : Nat} (hn : n ≠ 0) (hd : d ≠ 0) :
    significand n d ≤ 2 * perExponent := by
  have hf := lastPlace_spec hn hd
  have hpos := scaled_den_pos hd (lastPlace n d)
  have hz : (0 : ℚ) < (2 : ℚ) ^ lastPlace n d := by positivity
  have hq : ((n * Nat.pow 2 (-lastPlace n d).toNat : Nat) : ℚ) <
      ((2 * perExponent * (d * Nat.pow 2 (lastPlace n d).toNat) : Nat) : ℚ) := by
    have hb := hf.below
    rw [two_zpow_53_add, ← div_lt_iff₀ hz, ← scaled_eq,
      div_lt_iff₀ (by exact_mod_cast hpos)] at hb
    rw [Nat.cast_mul (2 * perExponent)]
    exact hb
  have hle := roundHalfEven_mono hpos hpos (Nat.mul_le_mul_right _ (Nat.cast_lt.mp hq).le)
  rwa [roundHalfEven_mul _ hpos] at hle

/-- Above the least exponent a significand has 53 bits. -/
theorem le_significand {n d : Nat} (hd : d ≠ 0)
    (hfull : (2 : ℚ) ^ (52 + lastPlace n d) ≤ (n : ℚ) / d) : perExponent ≤ significand n d := by
  have hpos := scaled_den_pos hd (lastPlace n d)
  have hz : (0 : ℚ) < (2 : ℚ) ^ lastPlace n d := by positivity
  have hq : ((perExponent * (d * Nat.pow 2 (lastPlace n d).toNat) : Nat) : ℚ) ≤
      ((n * Nat.pow 2 (-lastPlace n d).toNat : Nat) : ℚ) := by
    rw [two_zpow_52_add, ← le_div_iff₀ hz, ← scaled_eq,
      le_div_iff₀ (by exact_mod_cast hpos)] at hfull
    rw [Nat.cast_mul perExponent]
    exact hfull
  have hle := roundHalfEven_mono hpos hpos (Nat.mul_le_mul_right _ (Nat.cast_le.mp hq))
  rwa [roundHalfEven_mul _ hpos] at hle

/-- **The nearest double is monotone in the value.** -/
theorem nearest_mono {n d n' d' : Nat} (hd : d ≠ 0) (hd' : d' ≠ 0)
    (h : (n : ℚ) / d ≤ (n' : ℚ) / d') : nearest n d ≤ nearest n' d' := by
  have hd0 : (0 : ℚ) < d := by exact_mod_cast Nat.pos_of_ne_zero hd
  by_cases hn : n = 0
  · rw [nearest, if_pos hn]
    exact Nat.zero_le _
  have hn' : n' ≠ 0 := by
    rintro rfl
    have hpos : (0 : ℚ) < (n : ℚ) / d :=
      div_pos (by exact_mod_cast Nat.pos_of_ne_zero hn) hd0
    rw [Nat.cast_zero, zero_div] at h
    exact absurd h (not_le.mpr hpos)
  rw [nearest_eq d hn, nearest_eq d' hn']
  refine min_le_min_left _ ?_
  have hf := lastPlace_spec hn hd
  have hf' := lastPlace_spec hn' hd'
  have hleast := hf.least
  rcases Int.lt_or_eq_of_le (hf.mono hf' h) with hlt | heq
  · -- a smaller exponent: even a full significand stays below
    have h1 := significand_le hn hd
    have h2 : perExponent ≤ significand n' d' := by
      rcases hf'.full with hm | hfull
      · omega
      · exact le_significand hd' hfull
    have h3 : (lastPlace n d + 1074).toNat + 1 ≤ (lastPlace n' d' + 1074).toNat := by omega
    calc (lastPlace n d + 1074).toNat * perExponent + significand n d
        ≤ ((lastPlace n d + 1074).toNat + 1) * perExponent + perExponent := by
          rw [Nat.add_mul]
          omega
      _ ≤ (lastPlace n' d' + 1074).toNat * perExponent + significand n' d' :=
          Nat.add_le_add (Nat.mul_le_mul_right _ h3) h2
  · -- the same exponent: the significands compare
    have hs : significand n d ≤ significand n' d' := by
      unfold significand
      rw [heq]
      exact roundHalfEven_mono (scaled_den_pos hd _) (scaled_den_pos hd' _)
        (scaled_le_scaled hd hd' _ h)
    rw [heq]
    exact Nat.add_le_add_left hs _

theorem nearest_congr {n d n' d' : Nat} (hd : d ≠ 0) (hd' : d' ≠ 0)
    (h : (n : ℚ) / d = (n' : ℚ) / d') : nearest n d = nearest n' d' :=
  Nat.le_antisymm (nearest_mono hd hd' h.le) (nearest_mono hd' hd h.ge)

theorem nearest_le_infinityBits (n d : Nat) : nearest n d ≤ infinityBits := by
  by_cases hn : n = 0
  · rw [nearest, if_pos hn]
    exact Nat.zero_le _
  · rw [nearest_eq d hn]
    exact Nat.min_le_left _ _

/-! ## Doubles are nearest to themselves -/

/-- The magnitude that bits stand for. -/
def value (bits : Nat) : ℚ := (decode bits).1 * (2 : ℚ) ^ (decode bits).2

/-- What decoding gives: an exponent that doubles have, a significand of 53 bits or of fewer at
    the least exponent, and the bits as the two together. -/
theorem decode_spec {bits : Nat} (h : bits < infinityBits) :
    -1074 ≤ (decode bits).2 ∧ (decode bits).2 ≤ 971 ∧ (decode bits).1 < 2 * perExponent ∧
      ((decode bits).2 = -1074 ∨ perExponent ≤ (decode bits).1) ∧
      bits = ((decode bits).2 + 1074).toNat * perExponent + (decode bits).1 := by
  have hp : 0 < perExponent := by decide
  have hdm := Nat.div_add_mod bits perExponent
  have hm := Nat.mod_lt bits hp
  have he : bits / perExponent < 2047 := (Nat.div_lt_iff_lt_mul hp).mpr h
  unfold decode
  dsimp only
  generalize bits / perExponent = q at *
  generalize bits % perExponent = r at *
  by_cases h0 : q = 0
  · rw [if_pos h0]
    rw [h0] at hdm
    refine ⟨le_refl _, by norm_num, by omega, Or.inl rfl, ?_⟩
    simp only [Int.reduceNeg, Int.reduceAdd, Int.toNat_zero, Nat.zero_mul]
    omega
  · rw [if_neg h0]
    refine ⟨by omega, by omega, by omega, Or.inr (by omega), ?_⟩
    obtain ⟨k, rfl⟩ := Nat.exists_eq_succ_of_ne_zero h0
    have ht : ((k.succ : Int) - 1075 + 1074).toNat = k := by omega
    rw [Nat.mul_succ] at hdm
    rw [ht, Nat.mul_comm k]
    omega

theorem eq_zero_of_decode {bits : Nat} (h : bits < infinityBits) (h0 : (decode bits).1 = 0) :
    bits = 0 := by
  obtain ⟨-, -, -, hfull, hbits⟩ := decode_spec h
  have he : (decode bits).2 = -1074 := by
    rcases hfull with he | he
    · exact he
    · rw [h0] at he
      exact absurd he (by decide)
  rw [h0, he] at hbits
  simpa using hbits

/-- The exponent that a double has fits its value. -/
theorem fits_value {bits : Nat} (h : bits < infinityBits) :
    Fits (value bits) (decode bits).2 := by
  obtain ⟨hlo, -, hm, hfull, -⟩ := decode_spec h
  have hz : (0 : ℚ) < (2 : ℚ) ^ (decode bits).2 := by positivity
  refine ⟨hlo, ?_, hfull.imp_right fun he => ?_⟩
  · rw [two_zpow_53_add]
    exact mul_lt_mul_of_pos_right (by exact_mod_cast hm) hz
  · rw [two_zpow_52_add]
    exact mul_le_mul_of_nonneg_right (by exact_mod_cast he) hz.le

/-- At the exponent of a double its value is the whole number that the significand is. -/
theorem roundHalfEven_value {n d bits : Nat} (hd : d ≠ 0) (hv : (n : ℚ) / d = value bits) :
    roundHalfEven (n * Nat.pow 2 (-(decode bits).2).toNat)
      (d * Nat.pow 2 (decode bits).2.toNat) = (decode bits).1 := by
  have hz : (2 : ℚ) ^ (decode bits).2 ≠ 0 := by positivity
  have hpos := scaled_den_pos hd (decode bits).2
  have hs := scaled_eq n d (decode bits).2
  rw [hv, value, mul_div_assoc, div_self hz, mul_one,
    div_eq_iff (by exact_mod_cast hpos.ne'), ← Nat.cast_mul] at hs
  rw [Nat.cast_inj.mp hs, roundHalfEven_mul _ hpos]

/-- **The value of a double is rounded to that double.** -/
theorem nearest_of_value {n d bits : Nat} (h : bits < infinityBits) (hd : d ≠ 0)
    (hv : (n : ℚ) / d = value bits) : nearest n d = bits := by
  by_cases hn : n = 0
  · -- the value zero has the bits zero
    have h0 : (decode bits).1 = 0 := by
      rw [hn, Nat.cast_zero, zero_div] at hv
      rcases mul_eq_zero.mp hv.symm with h0 | h0
      · exact_mod_cast h0
      · exact absurd h0 (by positivity)
    rw [nearest, if_pos hn, eq_zero_of_decode h h0]
  · have hlast : lastPlace n d = (decode bits).2 :=
      lastPlace_unique hn hd (hv ▸ fits_value h)
    have hsig : significand n d = (decode bits).1 := by
      unfold significand
      rw [hlast]
      exact roundHalfEven_value hd hv
    obtain ⟨-, -, -, -, hbits⟩ := decode_spec h
    rw [nearest_eq d hn, hlast, hsig, ← hbits]
    exact Nat.min_eq_right h.le

end Binary64
end SceneScript
