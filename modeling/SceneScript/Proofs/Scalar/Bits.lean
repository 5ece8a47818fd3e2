import Mathlib.Tactic.Set
import SceneScript.Scalar
import SceneScript.Proofs.Decimal.Nearest

/-!
# Doubles as a sign and a magnitude

The logic has a model of doubles: a double is a word of 64 bits, and an operation unpacks its
arguments, computes and packs the result. This module puts the two halves of a word between the
library and that model. **A double that is a number, or an infinity, is its sign and its magnitude**
(`toFloat_magnitude`), the magnitude a natural number up to `infinityBits`, and unpacking it is
`decode` (`unpack_toModel`).

With that, each operation is one equation on natural numbers, and no later module looks at a bit
vector.
-/

set_option autoImplicit false

namespace SceneScript
namespace Binary64

open Float.Model Float.Model.UnpackedFloat

/-! ## The fields of a word -/

theorem toNat_unpackMantissa (b : BitVec 64) :
    (@unpackMantissa Format.binary64 b).toNat = b.toNat % 2 ^ 52 := by
  simp [unpackMantissa, BitVec.extractLsb]

theorem toNat_unpackExponent (b : BitVec 64) :
    (@unpackExponent Format.binary64 b).toNat = b.toNat / 2 ^ 52 % 2 ^ 11 := by
  simp [unpackExponent, BitVec.extractLsb, Nat.shiftRight_eq_div_pow]

theorem toNat_unpackSign (b : BitVec 64) :
    (@unpackSign Format.binary64 b).toNat = b.toNat / 2 ^ 63 % 2 := by
  have hbit : @unpackSign Format.binary64 b = b.extractLsb 63 63 := rfl
  rw [hbit]
  simp [BitVec.extractLsb, Nat.shiftRight_eq_div_pow]

theorem toNat_packComponents (s : Sign) (e : BitVec 11) (m : BitVec 52) :
    (packComponents Format.binary64 s e m).toNat =
      s.toBitVec.toNat * 2 ^ 63 + e.toNat * 2 ^ 52 + m.toNat := by
  simp only [packComponents, BitVec.toNat_append]
  rw [← Nat.shiftLeft_add_eq_or_of_lt e.isLt, ← Nat.shiftLeft_add_eq_or_of_lt m.isLt]
  simp only [Nat.shiftLeft_eq]
  ring

/-- The sign of a double as the model names it. -/
def sign (negative : Bool) : Sign := if negative then .negative else .positive

theorem toNat_toBitVec_sign (negative : Bool) :
    (sign negative).toBitVec.toNat = negative.toNat := by
  cases negative <;> rfl

/-! ## Unpacking -/

/-- What a sign and a magnitude stand for in the model. -/
def unpacked (negative : Bool) (bits : Nat) : UnpackedFloat :=
  if infinityBits < bits then .notANumber
  else if bits = infinityBits then .infinity (sign negative)
  else if h : 0 < (decode bits).1 then .finite (sign negative) (decode bits).1 (decode bits).2 h
  else .zero (sign negative)

theorem unpacked_of_pos {negative : Bool} {bits : Nat} (hb : bits < infinityBits)
    (h0 : 0 < (decode bits).1) :
    unpacked negative bits = .finite (sign negative) (decode bits).1 (decode bits).2 h0 := by
  unfold unpacked
  rw [if_neg (by omega), if_neg (by omega), dif_pos h0]

theorem unpacked_of_decode {negative : Bool} {bits m : Nat} {e : Int} (hb : bits < infinityBits)
    (hd : decode bits = (m, e)) (hm : 0 < m) :
    unpacked negative bits = .finite (sign negative) m e hm := by
  obtain ⟨rfl, rfl⟩ : (decode bits).1 = m ∧ (decode bits).2 = e := by
    rw [hd]
    exact ⟨rfl, rfl⟩
  exact unpacked_of_pos hb hm

theorem unpacked_of_zero (negative : Bool) : unpacked negative 0 = .zero (sign negative) := rfl

theorem unpacked_of_gt (negative : Bool) {bits : Nat} (h : infinityBits < bits) :
    unpacked negative bits = .notANumber := if_pos h

theorem unpacked_infinity (negative : Bool) :
    unpacked negative infinityBits = .infinity (sign negative) := rfl

theorem decode_of_lt {bits : Nat} (h : bits < perExponent) : decode bits = (bits, -1074) := by
  unfold decode
  dsimp only
  rw [Nat.div_eq_of_lt h, if_pos rfl, Nat.mod_eq_of_lt h]

theorem decode_of_ge {bits : Nat} (h : perExponent ≤ bits) :
    decode bits =
      (perExponent + bits % perExponent, ((bits / perExponent : Nat) : Int) - 1075) := by
  unfold decode
  dsimp only
  rw [if_neg (Nat.div_pos h (by decide)).ne']

theorem ofBitVec_unpackSign (b : BitVec 64) :
    Sign.ofBitVec (@unpackSign Format.binary64 b) = sign (decide (signBit ≤ b.toNat)) := by
  have hs := toNat_unpackSign b
  have hb := b.isLt
  by_cases h : signBit ≤ b.toNat
  · have h1 : @unpackSign Format.binary64 b = 1#1 := by
      refine BitVec.eq_of_toNat_eq ?_
      rw [hs]
      unfold signBit at h
      show b.toNat / 2 ^ 63 % 2 = 1
      omega
    rw [h1, decide_eq_true h]
    rfl
  · have h1 : @unpackSign Format.binary64 b = 0#1 := by
      refine BitVec.eq_of_toNat_eq ?_
      rw [hs]
      unfold signBit at h
      show b.toNat / 2 ^ 63 % 2 = 0
      omega
    rw [h1, decide_eq_false h]
    rfl

theorem unpacked_subnormal (negative : Bool) {m : Nat} (h0 : 0 < m) (hm : m < perExponent) :
    unpacked negative m = .finite (sign negative) m (-1074) h0 := by
  refine unpacked_of_decode (hm.trans_le ?_) (decode_of_lt hm) h0
  unfold infinityBits
  omega

theorem unpacked_normal (negative : Bool) {e m : Nat} (h0 : 0 < e) (he : e < 2047)
    (hm : m < perExponent) :
    unpacked negative (perExponent * e + m) =
      .finite (sign negative) (perExponent + m) ((e : Int) - 1075) (by omega) := by
  have hp : 0 < perExponent := by decide
  have hge : perExponent ≤ perExponent * e + m :=
    (Nat.le_mul_of_pos_right _ h0).trans (Nat.le_add_right _ _)
  have hlt : perExponent * e + m < infinityBits := by
    unfold infinityBits perExponent at *
    omega
  refine unpacked_of_decode hlt ?_ _
  rw [decode_of_ge hge, Nat.mul_add_mod, Nat.mod_eq_of_lt hm, Nat.mul_add_div hp,
    Nat.div_eq_of_lt hm, Nat.add_zero]

/-- **Unpacking a word is decoding its magnitude.** -/
theorem unpack_eq_unpacked (b : BitVec 64) :
    UnpackedFloat.unpack Format.binary64 b =
      unpacked (decide (signBit ≤ b.toNat)) (b.toNat % signBit) := by
  have hfields : b.toNat % signBit =
      perExponent * (@unpackExponent Format.binary64 b).toNat +
        (@unpackMantissa Format.binary64 b).toNat := by
    rw [toNat_unpackMantissa, toNat_unpackExponent]
    unfold signBit perExponent
    omega
  unfold UnpackedFloat.unpack
  dsimp only
  rw [ofBitVec_unpackSign, hfields]
  set M := @unpackMantissa Format.binary64 b
  set E := @unpackExponent Format.binary64 b
  have hM : M.toNat < perExponent := M.isLt
  have hE : E.toNat < 2048 := E.isLt
  have hEones : E = -1#11 ↔ E.toNat = 2047 := by
    rw [← BitVec.toNat_inj]
    rfl
  have hEzero : E = 0#11 ↔ E.toNat = 0 := by
    rw [← BitVec.toNat_inj]
    rfl
  have hMzero : M = 0#52 ↔ M.toNat = 0 := by
    rw [← BitVec.toNat_inj]
    rfl
  -- the cases of the model are on the two fields, those of `unpacked` on the number they make
  by_cases h1 : E.toNat = 2047
  · rw [if_pos (hEones.mpr h1), h1]
    by_cases h2 : M.toNat = 0
    · rw [if_pos (hMzero.mpr h2), h2]
      rfl
    · rw [if_neg fun h => h2 (hMzero.mp h)]
      have hgt : infinityBits < perExponent * 2047 + M.toNat := by
        unfold infinityBits
        omega
      exact (unpacked_of_gt _ hgt).symm
  · rw [if_neg fun h => h1 (hEones.mp h)]
    by_cases h2 : E.toNat = 0
    · rw [if_pos (hEzero.mpr h2), h2, Nat.mul_zero, Nat.zero_add]
      by_cases h3 : M.toNat = 0
      · rw [dif_pos (hMzero.mpr h3), h3]
        rfl
      · rw [dif_neg fun h => h3 (hMzero.mp h), unpacked_subnormal _ (by omega) hM]
        rfl
    · rw [if_neg fun h => h2 (hEzero.mp h), unpacked_normal _ (by omega) (by omega) hM]
      have hmant : (1#1 ++ M).toNat = perExponent + M.toNat := by
        rw [BitVec.toNat_append, ← Nat.shiftLeft_add_eq_or_of_lt M.isLt]
        rfl
      congr 1

/-! ## Packing -/

theorem toNat_pack_infinity (negative : Bool) :
    (UnpackedFloat.pack Format.binary64 (.infinity (sign negative))).toNat =
      negative.toNat * signBit + infinityBits := by
  cases negative <;> rfl

theorem toNat_pack_zero (negative : Bool) :
    (UnpackedFloat.pack Format.binary64 (.zero (sign negative))).toNat =
      negative.toNat * signBit := by
  cases negative <;> rfl

/-- A significand and its exponent as doubles have them: 53 bits, or fewer at the least
    exponent. -/
structure Canonical (m : Nat) (e : Int) : Prop where
  pos : 0 < m
  below : m < 2 * perExponent
  least : -1074 ≤ e
  greatest : e ≤ 971
  full : e = -1074 ∨ perExponent ≤ m

theorem canonical_decode {bits : Nat} (h : bits < infinityBits) (h0 : 0 < (decode bits).1) :
    Canonical (decode bits).1 (decode bits).2 :=
  have ⟨hlo, hhi, hm, hf, _⟩ := decode_spec h
  ⟨h0, hm, hlo, hhi, hf⟩

/-- A finite double unpacks to a zero or to a canonical value. -/
theorem unpacked_finite (negative : Bool) {bits : Nat} (h : bits < infinityBits) :
    (bits = 0 ∧ unpacked negative bits = .zero (sign negative)) ∨
    ∃ (m : Nat) (e : Int) (hc : Canonical m e), decode bits = (m, e) ∧
      unpacked negative bits = .finite (sign negative) m e hc.pos := by
  by_cases h0 : 0 < (decode bits).1
  · exact .inr ⟨_, _, canonical_decode h h0, rfl, unpacked_of_pos h h0⟩
  · obtain rfl := eq_zero_of_decode h (by omega)
    exact .inl ⟨rfl, unpacked_of_zero negative⟩

/-- What a double unpacks to: no number, an infinity, a zero or a canonical value. -/
theorem unpacked_cases (negative : Bool) (bits : Nat) :
    (infinityBits < bits ∧ unpacked negative bits = .notANumber) ∨
    (bits = infinityBits ∧ unpacked negative bits = .infinity (sign negative)) ∨
    (bits = 0 ∧ unpacked negative bits = .zero (sign negative)) ∨
    ∃ (m : Nat) (e : Int) (h : Canonical m e), decode bits = (m, e) ∧
      unpacked negative bits = .finite (sign negative) m e h.pos := by
  rcases Nat.lt_trichotomy infinityBits bits with h | rfl | h
  · exact .inl ⟨h, unpacked_of_gt negative h⟩
  · exact .inr (.inl ⟨rfl, unpacked_infinity negative⟩)
  · exact .inr (.inr (unpacked_finite negative h))

theorem Canonical.log2_of_full {m : Nat} {e : Int} (h : Canonical m e) (hf : perExponent ≤ m) :
    m.log2 = 52 := by
  have h1 : 52 ≤ m.log2 := (Nat.le_log2 h.pos.ne').mpr hf
  have h2 : m.log2 < 53 := (Nat.log2_lt h.pos.ne').mpr h.below
  omega

theorem Canonical.log2_le {m : Nat} {e : Int} (h : Canonical m e) : m.log2 ≤ 52 := by
  have h2 : m.log2 < 53 := (Nat.log2_lt h.pos.ne').mpr h.below
  omega

/-- **Packing puts the two parts of a double together.** -/
theorem toNat_pack_finite {m : Nat} {e : Int} (h : Canonical m e) (negative : Bool) :
    (UnpackedFloat.pack Format.binary64 (.finite (sign negative) m e h.pos)).toNat =
      negative.toNat * signBit + ((e + 1074).toNat * perExponent + m) := by
  have hpos := h.pos
  have hlo := h.least
  have hhi := h.greatest
  have hlt := h.below
  have hp : perExponent = 2 ^ 52 := rfl
  have hs : signBit = 2 ^ 63 := rfl
  have hbias : (e + (Format.binary64.exponentBias : Int) +
      (Format.binary64.mantissaBitsWithoutImplicit : Int)).toNat = (e + 1074).toNat + 1 := by
    show (e + 1023 + 52).toNat = _
    omega
  have hk : (e + 1074).toNat ≤ 2045 := by omega
  unfold UnpackedFloat.pack
  dsimp only
  rw [hbias, if_neg (by show ¬ 2 ^ 11 ≤ _; omega)]
  -- a significand of 53 bits loses its leading one, a smaller one is stored as it is
  by_cases hf : perExponent ≤ m
  · rw [if_pos (by rw [h.log2_of_full hf]; rfl), toNat_packComponents, toNat_toBitVec_sign]
    simp only [BitVec.toNat_ofNat]
    rw [Nat.mod_eq_of_lt (by omega : (e + 1074).toNat + 1 < 2 ^ 11), hs, hp]
    rw [hp] at hf hlt
    have hm : m % 2 ^ 52 = m - 2 ^ 52 := by omega
    rw [hm]
    omega
  · have he : e = -1074 := h.full.resolve_right hf
    have hl : ¬ m.log2 + 1 = Format.binary64.mantissaBits := by
      intro hl
      have h52 : m.log2 = 52 := by
        have : Format.binary64.mantissaBits = 53 := rfl
        omega
      exact hf ((Nat.le_log2 hpos.ne').mp h52.ge)
    rw [if_neg hl, toNat_packComponents, toNat_toBitVec_sign, he]
    simp only [BitVec.toNat_ofNat]
    rw [hp] at hf
    rw [Nat.mod_eq_of_lt (by omega : m < 2 ^ 52)]
    simp [hs]

theorem toNat_pack_unpacked (negative : Bool) {bits : Nat} (h : bits ≤ infinityBits) :
    (UnpackedFloat.pack Format.binary64 (unpacked negative bits)).toNat =
      negative.toNat * signBit + bits := by
  rcases Nat.lt_or_eq_of_le h with hlt | heq
  · by_cases h0 : 0 < (decode bits).1
    · have hc := canonical_decode hlt h0
      rw [unpacked_of_pos hlt h0, toNat_pack_finite hc, ← (decode_spec hlt).2.2.2.2]
    · have hb : bits = 0 := eq_zero_of_decode hlt (by omega)
      rw [hb, unpacked_of_zero, toNat_pack_zero, Nat.add_zero]
  · rw [heq, unpacked_infinity, toNat_pack_infinity]

/-! ## Doubles -/

/-- The double that a value of the model packs to. -/
def packed (u : UnpackedFloat) : Float := .ofModel (.pack u)

theorem toNat_toBits_packed (u : UnpackedFloat) :
    (packed u).toBits.toNat = (UnpackedFloat.pack Format.binary64 u).toNat := rfl

theorem eq_of_toBits {x y : Float} (h : x.toBits.toNat = y.toBits.toNat) : x = y := by
  obtain ⟨⟨bx, vx⟩⟩ := x
  obtain ⟨⟨by', vy⟩⟩ := y
  obtain rfl : bx = by' := UInt64.toNat_inj.mp h
  rfl

theorem toBits_eq (x : Float) :
    x.toBits.toNat = (isNegative x).toNat * signBit + magnitude x := by
  have hlt := x.toBits.toNat_lt
  unfold isNegative magnitude
  by_cases h : signBit ≤ x.toBits.toNat
  · rw [decide_eq_true h]
    unfold signBit at *
    simp only [Bool.toNat_true]
    omega
  · rw [decide_eq_false h]
    unfold signBit at *
    simp only [Bool.toNat_false]
    omega

theorem signed_lt (negative : Bool) {bits : Nat} (h : bits ≤ infinityBits) :
    negative.toNat * signBit + bits < 2 ^ 64 := by
  unfold infinityBits perExponent at h
  unfold signBit
  cases negative <;> simp only [Bool.toNat_true, Bool.toNat_false] <;> omega

theorem unpack_toModel (x : Float) :
    x.toModel.unpack = unpacked (isNegative x) (magnitude x) :=
  unpack_eq_unpacked x.toBits.toBitVec

/-- Taking a double apart and packing it again. -/
theorem packed_unpacked (negative : Bool) {bits : Nat} (h : bits ≤ infinityBits) :
    packed (unpacked negative bits) = toFloat negative bits := by
  refine eq_of_toBits ?_
  have hlt := signed_lt negative h
  have hv : (if negative then signBit + bits else bits) = negative.toNat * signBit + bits := by
    cases negative <;> simp [Bool.toNat]
  have hword : (UInt64.ofNat (negative.toNat * signBit + bits)).toBitVec.toNat =
      negative.toNat * signBit + bits := by
    show (UInt64.ofNat _).toNat = _
    rw [UInt64.toNat_ofNat', Nat.mod_eq_of_lt hlt]
  have hsplit : decide (signBit ≤ negative.toNat * signBit + bits) = negative ∧
      (negative.toNat * signBit + bits) % signBit = bits := by
    unfold infinityBits perExponent at h
    unfold signBit
    cases negative
    · simp only [Bool.toNat_false]
      exact ⟨decide_eq_false (by omega), by omega⟩
    · simp only [Bool.toNat_true]
      exact ⟨decide_eq_true (by omega), by omega⟩
  unfold toFloat
  rw [hv]
  show _ = (packed (UnpackedFloat.unpack Format.binary64
    (UInt64.ofNat (negative.toNat * signBit + bits)).toBitVec)).toBits.toNat
  rw [unpack_eq_unpacked, hword, hsplit.1, hsplit.2]

theorem magnitude_toFloat (negative : Bool) {bits : Nat} (h : bits ≤ infinityBits) :
    magnitude (toFloat negative bits) = bits := by
  unfold magnitude
  rw [← packed_unpacked negative h, toNat_toBits_packed, toNat_pack_unpacked negative h]
  unfold infinityBits perExponent at h
  unfold signBit
  omega

theorem isNegative_toFloat (negative : Bool) {bits : Nat} (h : bits ≤ infinityBits) :
    isNegative (toFloat negative bits) = negative := by
  unfold isNegative
  rw [← packed_unpacked negative h, toNat_toBits_packed, toNat_pack_unpacked negative h]
  unfold infinityBits perExponent at h
  unfold signBit
  cases negative
  · simp only [Bool.toNat_false, decide_eq_false_iff_not]
    omega
  · simp only [Bool.toNat_true, decide_eq_true_eq]
    omega

/-- **A double is its sign and its magnitude**, unless it is the one that is no number. -/
theorem toFloat_magnitude {x : Float} (h : magnitude x ≤ infinityBits) :
    toFloat (isNegative x) (magnitude x) = x := by
  refine eq_of_toBits ?_
  rw [toBits_eq, isNegative_toFloat _ h, magnitude_toFloat _ h, ← toBits_eq]

theorem packed_notANumber {x : Float} (h : infinityBits < magnitude x) :
    packed .notANumber = x := by
  have hlt := x.toBits.toNat_lt
  have hE := toNat_unpackExponent x.toBits.toBitVec
  have hM := toNat_unpackMantissa x.toBits.toBitVec
  have hword : x.toBits.toBitVec.toNat = x.toBits.toNat := rfl
  rw [hword] at hE hM
  unfold magnitude infinityBits perExponent signBit at h
  have h1 : @unpackExponent Format.binary64 x.toBits.toBitVec = -1#11 := by
    refine BitVec.eq_of_toNat_eq ?_
    show _ = 2047
    omega
  have h2 : @unpackMantissa Format.binary64 x.toBits.toBitVec ≠ 0#52 := by
    intro h0
    have h0' := congrArg BitVec.toNat h0
    rw [hM] at h0'
    have : (0#52).toNat = 0 := rfl
    omega
  have hv := x.toModel.valid.eq_packedNaN h1 h2
  exact eq_of_toBits (congrArg BitVec.toNat hv).symm

theorem packed_unpack (x : Float) : packed (unpacked (isNegative x) (magnitude x)) = x := by
  by_cases h : magnitude x ≤ infinityBits
  · rw [packed_unpacked _ h, toFloat_magnitude h]
  · rw [unpacked_of_gt _ (Nat.lt_of_not_le h)]
    exact packed_notANumber (Nat.lt_of_not_le h)

/-! ## Finite doubles -/

theorem isFinite_iff (x : Float) : Scalar.isFinite x = true ↔ magnitude x < infinityBits := by
  have hfloor : Scalar.floor x = Binary64.floor x := rfl
  unfold Scalar.isFinite
  rw [hfloor]
  unfold Binary64.floor
  dsimp only
  by_cases h1 : infinityBits < magnitude x
  · rw [if_pos h1]
    simp only [Bool.false_eq_true, false_iff]
    omega
  · rw [if_neg h1]
    by_cases h2 : magnitude x = infinityBits
    · rw [if_pos h2, h2]
      simp
    · rw [if_neg h2]
      simp only [true_iff]
      omega

theorem isFinite_toFloat (negative : Bool) {bits : Nat} (h : bits < infinityBits) :
    Scalar.isFinite (toFloat negative bits) = true := by
  rw [isFinite_iff, magnitude_toFloat negative h.le]
  exact h

theorem isFinite_packed_finite {s : Sign} {m : Nat} {e : Int} (hm : 0 < m) (he : e ≤ 971) :
    Scalar.isFinite (packed (.finite s m e hm)) = true := by
  have hbias : (e + (Format.binary64.exponentBias : Int) +
      (Format.binary64.mantissaBitsWithoutImplicit : Int)).toNat = (e + 1075).toNat := by
    show (e + 1023 + 52).toNat = _
    omega
  have hs : s.toBitVec.toNat ≤ 1 := by cases s <;> decide
  rw [isFinite_iff]
  unfold magnitude
  rw [toNat_toBits_packed]
  unfold UnpackedFloat.pack
  dsimp only
  rw [hbias, if_neg (by show ¬ 2 ^ 11 ≤ _; omega)]
  split
  · rw [toNat_packComponents]
    have hm' := (BitVec.ofNat 52 m).isLt
    have he' : (BitVec.ofNat 11 (e + 1075).toNat).toNat = (e + 1075).toNat := by
      rw [BitVec.toNat_ofNat]
      exact Nat.mod_eq_of_lt (by omega)
    rw [he']
    unfold signBit infinityBits perExponent
    omega
  · rw [toNat_packComponents]
    have hm' := (BitVec.ofNat 52 m).isLt
    have he' : (0#11).toNat = 0 := rfl
    rw [he']
    unfold signBit infinityBits perExponent
    omega

end Binary64
end SceneScript
