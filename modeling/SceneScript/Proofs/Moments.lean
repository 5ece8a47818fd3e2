import Mathlib.Order.Interval.Set.UnorderedInterval
import SceneScript.Proofs.EndOfSegment
import SceneScript.Proofs.Scalar.Rational

/-!
# The moments of a segment

A moment computes each number of the transform for itself, from its value at the start, its value at
the end and one height that all of them share. So what a segment does in the course of time is first
said of **the height**: it is in the unit interval for any curve (`height_mem`), it is zero until the
start and one from the end on, and it never falls (`height_monotone`) if the curve rises.

The four curves all rise (`Curve.rises`). They do so on the unit interval only, but there is nothing
else of the time that reaches them: it is cut off before the curve, and once more behind it.

What a number then does is a matter of one line through two points (`lerp_mem`, `lerp_mono`,
`lerp_anti`), which of the points is the upper one decides about the sign. Everything is in exact
rationals; in doubles a moment may be off by a rounding, also beyond the end.
-/

set_option autoImplicit false

namespace SceneScript

/-! ## The unit interval -/

namespace Rational

theorem clamp_eq (x : ℚ) : Scalar.clamp x = max 0 (min 1 x) := by
  simp [Scalar.clamp]

theorem clamp_mem (x : ℚ) : Scalar.clamp x ∈ Set.Icc (0 : ℚ) 1 := by
  rw [clamp_eq]
  exact ⟨le_max_left _ _, max_le zero_le_one (min_le_left _ _)⟩

theorem clamp_of_nonpos {x : ℚ} (h : x ≤ 0) : Scalar.clamp x = 0 := by
  rw [clamp_eq, min_eq_right (h.trans zero_le_one), max_eq_left h]

theorem clamp_of_one_le {x : ℚ} (h : 1 ≤ x) : Scalar.clamp x = 1 := by
  rw [clamp_eq, min_eq_left h, max_eq_right zero_le_one]

theorem clamp_mono : Monotone (Scalar.clamp : ℚ → ℚ) := by
  intro x y h
  rw [clamp_eq, clamp_eq]
  exact max_le_max le_rfl (min_le_min le_rfl h)

end Rational

namespace Curve

/-- A curve that goes from zero up to one. -/
structure Rises (f : ℚ → ℚ) : Prop where
  zero : f 0 = 0
  one : f 1 = 1
  mono : MonotoneOn f (Set.Icc 0 1)

/-- The difference of two values of the cubic, which has no sign in it that one sees. -/
theorem cubic_sub (u v : ℚ) :
    v * v * (3 - 2 * v) - u * u * (3 - 2 * u) =
      (v - u) * (2 * (u * (1 - u) + v * (1 - v)) + (u * (1 - v) + v * (1 - u))) := by
  ring

/-- **Each of the four curves rises.** -/
theorem rises (c : Curve) : Rises c.value where
  zero := by cases c <;> simp [value]
  one := by cases c <;> norm_num [value]
  mono := by
    rintro u ⟨hu0, hu1⟩ v ⟨hv0, hv1⟩ huv
    have hu : 0 ≤ 1 - u := sub_nonneg.mpr hu1
    have hv : 0 ≤ 1 - v := sub_nonneg.mpr hv1
    cases c with
    | linear => exact huv
    | easeIn => exact mul_self_le_mul_self hu0 huv
    | easeOut =>
      have h : (1 - v) * (1 - v) ≤ (1 - u) * (1 - u) :=
        mul_self_le_mul_self hv (sub_le_sub_left huv 1)
      simp only [value, Rational.ofNat_eq, Nat.cast_one]
      exact sub_le_sub_left h 1
    | easeInOut =>
      simp only [value, Rational.ofNat_eq, Nat.cast_ofNat]
      rw [← sub_nonneg, cubic_sub]
      refine mul_nonneg (sub_nonneg.mpr huv) ?_
      positivity

end Curve

namespace Timeline

/-! ## The height -/

/-- The height of a segment at a time, along a curve. -/
def height (s : Segment ℚ) (curve : ℚ → ℚ) (t : ℚ) : ℚ :=
  Scalar.clamp (curve (Scalar.clamp ((t - s.startTime) / s.duration)))

section Height

variable {s : Segment ℚ} {curve : ℚ → ℚ}

/-- **No curve leads out of the unit interval.** -/
theorem height_mem (s : Segment ℚ) (curve : ℚ → ℚ) (t : ℚ) :
    height s curve t ∈ Set.Icc (0 : ℚ) 1 :=
  Rational.clamp_mem _

theorem height_of_le_start (hc : Curve.Rises curve) (hd : 0 < s.duration) {t : ℚ}
    (ht : t ≤ s.startTime) : height s curve t = 0 := by
  have hdur : (0 : ℚ) < s.duration := Int.cast_pos.mpr hd
  have hpart : (t - s.startTime) / s.duration ≤ 0 :=
    div_nonpos_of_nonpos_of_nonneg (sub_nonpos.mpr ht) hdur.le
  unfold height
  rw [Rational.clamp_of_nonpos hpart, hc.zero, Rational.clamp_of_nonpos le_rfl]

theorem height_of_end_le (hc : Curve.Rises curve) (hd : 0 < s.duration) {t : ℚ}
    (ht : s.endTime ≤ t) : height s curve t = 1 := by
  have hdur : (0 : ℚ) < s.duration := Int.cast_pos.mpr hd
  have hpart : 1 ≤ (t - s.startTime) / s.duration := by
    rw [one_le_div hdur, le_sub_iff_add_le']
    exact_mod_cast ht
  unfold height
  rw [Rational.clamp_of_one_le hpart, hc.one, Rational.clamp_of_one_le le_rfl]

/-- **The height never falls.** -/
theorem height_monotone (hc : Curve.Rises curve) (hd : 0 < s.duration) :
    Monotone (height s curve) := by
  have hdur : (0 : ℚ) < s.duration := Int.cast_pos.mpr hd
  intro t u htu
  have hpart : (t - s.startTime) / s.duration ≤ (u - s.startTime) / s.duration :=
    div_le_div_of_nonneg_right (sub_le_sub_right htu _) hdur.le
  exact Rational.clamp_mono
    (hc.mono (Rational.clamp_mem _) (Rational.clamp_mem _) (Rational.clamp_mono hpart))

end Height

/-! ## Between two numbers -/

section Lerp

variable {a b u v : ℚ}

theorem lerp_zero (a b : ℚ) : lerp a b 0 = a := by
  unfold lerp
  ring

theorem lerp_one (a b : ℚ) : lerp a b 1 = b := by
  unfold lerp
  ring

theorem lerp_mono (hab : a ≤ b) (huv : u ≤ v) : lerp a b u ≤ lerp a b v :=
  add_le_add le_rfl (mul_le_mul_of_nonneg_left huv (sub_nonneg.mpr hab))

theorem lerp_anti (hba : b ≤ a) (huv : u ≤ v) : lerp a b v ≤ lerp a b u :=
  add_le_add le_rfl (mul_le_mul_of_nonpos_left huv (sub_nonpos.mpr hba))

/-- **At a height of the unit interval a number is between its two values.** -/
theorem lerp_mem (a b : ℚ) (hu : u ∈ Set.Icc (0 : ℚ) 1) : lerp a b u ∈ Set.uIcc a b := by
  obtain ⟨h0, h1⟩ := hu
  rcases le_total a b with hab | hba
  · rw [Set.uIcc_of_le hab]
    have hlow := lerp_mono hab h0
    have hhigh := lerp_mono hab h1
    rw [lerp_zero] at hlow
    rw [lerp_one] at hhigh
    exact ⟨hlow, hhigh⟩
  · rw [Set.uIcc_of_ge hba]
    have hlow := lerp_anti hba h1
    have hhigh := lerp_anti hba h0
    rw [lerp_one] at hlow
    rw [lerp_zero] at hhigh
    exact ⟨hlow, hhigh⟩

end Lerp

/-! ## The numbers of a transform -/

/-- A place in a transform where a number may stand. -/
inductive Channel where
  | x
  | y
  | scaleX
  | scaleY
  | rotation
  | filter (name : String)

/-- The number at a place; a filter that is no number has none. -/
def Channel.of? (t : Transform ℚ) : Channel → Option ℚ
  | .x => some t.position.x
  | .y => some t.position.y
  | .scaleX => some t.scale.x
  | .scaleY => some t.scale.y
  | .rotation => some t.rotation
  | .filter name => (t.filters.get? name).bind Json.number?

/-- In the rationals nothing is out of range. -/
theorem number?_rational (v : Json ℚ) : number? v = some v.number? := by
  cases v <;> rfl

theorem distance_rational {v w : Json ℚ} {x y : ℚ} (hv : v.number? = some x)
    (hw : w.number? = some y) : distance v w x y = some (y - x) := by
  unfold distance
  split
  · next m n =>
    cases hv
    cases hw
    exact congrArg some (Int.cast_sub n m)
  · rfl

/-- Two numbers are blended along the line between them. -/
theorem blend_numbers {v w : Json ℚ} {x y : ℚ} (hv : v.number? = some x) (hw : w.number? = some y)
    (u : ℚ) : blend (some v) w u = some (.real (lerp x y u)) := by
  simp only [blend, number?_rational, hv, hw, distance_rational hv hw, Option.bind_eq_bind,
    Option.bind_some]
  rfl

theorem exists_blend (start : Option (Json ℚ)) (stop : Json ℚ) (u : ℚ) :
    ∃ v, blend start stop u = some v := by
  cases start with
  | none => exact ⟨_, rfl⟩
  | some v =>
    cases hv : v.number? with
    | none =>
      refine ⟨if u < Scalar.ofNat 1 then v else stop, ?_⟩
      simp only [blend, number?_rational, hv, Option.bind_eq_bind, Option.bind_some]
      rfl
    | some x =>
      cases hw : stop.number? with
      | none =>
        refine ⟨if u < Scalar.ofNat 1 then v else stop, ?_⟩
        simp only [blend, number?_rational, hv, hw, Option.bind_eq_bind, Option.bind_some]
        rfl
      | some y => exact ⟨_, blend_numbers hv hw u⟩

/-- **Every height has a transform.** By induction on the filters of the end, with those that are
    done already. -/
theorem exists_between (a b : Transform ℚ) (u : ℚ) : ∃ r, between a b u = some r := by
  have hfilters : ∀ stop done : Fields (Json ℚ), ∃ r, stop.foldlM (fun filters (name, w) =>
      (blend (a.filters.get? name) w u).map (filters.set name)) done = some r := by
    intro stop
    induction stop with
    | nil => exact fun done => ⟨done, rfl⟩
    | cons f stop ih =>
      intro done
      obtain ⟨v, hv⟩ := exists_blend (a.filters.get? f.1) f.2 u
      obtain ⟨r, hr⟩ := ih (done.set f.1 v)
      refine ⟨r, ?_⟩
      rw [List.foldlM_cons]
      dsimp only
      rw [hv]
      exact hr
  obtain ⟨r, hr⟩ := hfilters b.filters a.filters
  unfold between blendFilters
  rw [hr]
  exact ⟨_, rfl⟩

/-- **Each number is on the line between its two values**, at the height that all of them share. -/
theorem of?_between {a b r : Transform ℚ} {u : ℚ} (hn : b.filters.keys.Nodup)
    (h : between a b u = some r) {c : Channel} {x y : ℚ} (hx : c.of? a = some x)
    (hy : c.of? b = some y) : c.of? r = some (lerp x y u) := by
  obtain ⟨filters, hf, rfl⟩ := Option.map_eq_some_iff.mp h
  cases c with
  | x =>
    cases hx
    cases hy
    rfl
  | y =>
    cases hx
    cases hy
    rfl
  | scaleX =>
    cases hx
    cases hy
    rfl
  | scaleY =>
    cases hx
    cases hy
    rfl
  | rotation =>
    cases hx
    cases hy
    rfl
  | filter name =>
    obtain ⟨v, hv, hvx⟩ := Option.bind_eq_some_iff.mp hx
    obtain ⟨w, hw, hwy⟩ := Option.bind_eq_some_iff.mp hy
    obtain ⟨blended, hb, rfl⟩ := exists_blended hf
    obtain ⟨z, hz, hblend⟩ := hb.get? hw
    rw [hv, blend_numbers hvx hwy] at hblend
    have hkeys : blended.keys.Nodup := hb.keys_eq ▸ hn
    show (Fields.get? (a.filters.update blended) name).bind Json.number? = _
    rw [Fields.get?_update hkeys, hz, ← Option.some.inj hblend]
    rfl

/-! ## The course of a segment -/

theorem at?_eq_between {s : Segment ℚ} (hd : 0 < s.duration) (curve : ℚ → ℚ) (t : ℚ) :
    at? s curve t = between s.startState s.endState (height s curve t) := by
  unfold at?
  rw [if_neg (not_le.mpr hd)]
  rfl

/-- What a number does in the course of a segment that takes it from one value to another. -/
structure Goes (s : Segment ℚ) (a b : ℚ) (value : ℚ → ℚ) : Prop where
  before : ∀ t : ℚ, t ≤ s.startTime → value t = a
  behind : ∀ t : ℚ, s.endTime ≤ t → value t = b
  between : ∀ t, value t ∈ Set.uIcc a b
  up : a ≤ b → Monotone value
  down : b ≤ a → Antitone value

theorem goes_lerp {s : Segment ℚ} {curve : ℚ → ℚ} (hc : Curve.Rises curve) (hd : 0 < s.duration)
    (a b : ℚ) : Goes s a b fun t => lerp a b (height s curve t) where
  before t ht := by
    rw [height_of_le_start hc hd ht, lerp_zero]
  behind t ht := by
    rw [height_of_end_le hc hd ht, lerp_one]
  between t := lerp_mem a b (height_mem s curve t)
  up hab _ _ htu := lerp_mono hab (height_monotone hc hd htu)
  down hba _ _ htu := lerp_anti hba (height_monotone hc hd htu)

/-- **A segment takes every number from its start to its end and never back.** Along each of the four
    curves there is a moment at every time, and a number that has a value in both states stays at
    the first one until the segment starts, is at the second one once the segment is over, and goes
    from the one to the other between them without leaving their interval or turning. Along any
    other curve it still stays in the interval. Filters are fields, so those of the end state have
    different names. -/
theorem at?_goes {s : Segment ℚ} (hd : 0 < s.duration) (hn : s.endState.filters.keys.Nodup) :
    (∀ curve : Curve, ∃ path : ℚ → Transform ℚ,
      (∀ t, at? s curve.value t = some (path t)) ∧
      ∀ (c : Channel) (a b : ℚ), c.of? s.startState = some a → c.of? s.endState = some b →
        ∃ value : ℚ → ℚ, (∀ t, c.of? (path t) = some (value t)) ∧ Goes s a b value) ∧
    ∀ (curve : ℚ → ℚ) (t : ℚ), ∃ r, at? s curve t = some r ∧
      ∀ (c : Channel) (a b : ℚ), c.of? s.startState = some a → c.of? s.endState = some b →
        ∃ v ∈ Set.uIcc a b, c.of? r = some v := by
  constructor
  · intro curve
    choose path hpath using fun t =>
      exists_between s.startState s.endState (height s curve.value t)
    refine ⟨path, ?_, ?_⟩
    · intro t
      rw [at?_eq_between hd, hpath]
    · intro c a b ha hb
      refine ⟨fun t => lerp a b (height s curve.value t), ?_, goes_lerp curve.rises hd a b⟩
      intro t
      exact of?_between hn (hpath t) ha hb
  · intro curve t
    obtain ⟨r, hr⟩ := exists_between s.startState s.endState (height s curve t)
    refine ⟨r, ?_, ?_⟩
    · rw [at?_eq_between hd, hr]
    · intro c a b ha hb
      exact ⟨_, lerp_mem a b (height_mem s curve t), of?_between hn hr ha hb⟩

/-- A figure goes down and to the left in a third of a second while it becomes brighter; its tint is
    no number and does not count. -/
theorem at?_goes_brighter :
    let start : Transform ℚ :=
      ⟨⟨200, 0⟩, ⟨1, 1⟩, 0, [("brightness", .int 1), ("tint", .str "red")]⟩
    let stop : Transform ℚ :=
      ⟨⟨-100, 50⟩, ⟨1, 1⟩, 0, [("brightness", .real 2.5), ("tint", .null)]⟩
    let s : Segment ℚ := ⟨"a", start, stop, 300, .unspecified, 0⟩
    0 < s.duration ∧ s.endState.filters.keys.Nodup ∧
      Channel.of? s.startState (.filter "brightness") = some 1 ∧
      Channel.of? s.endState (.filter "brightness") = some 2.5 ∧
      (∀ curve : Curve, ∃ path : ℚ → Transform ℚ,
        (∀ t, at? s curve.value t = some (path t)) ∧
        ∀ (c : Channel) (a b : ℚ), c.of? s.startState = some a → c.of? s.endState = some b →
          ∃ value : ℚ → ℚ, (∀ t, c.of? (path t) = some (value t)) ∧ Goes s a b value) ∧
      ∀ (curve : ℚ → ℚ) (t : ℚ), ∃ r, at? s curve t = some r ∧
        ∀ (c : Channel) (a b : ℚ), c.of? s.startState = some a → c.of? s.endState = some b →
          ∃ v ∈ Set.uIcc a b, c.of? r = some v := by
  intro start stop s
  have hd : 0 < s.duration := by decide
  have hn : s.endState.filters.keys.Nodup := by decide
  exact ⟨hd, hn, rfl, rfl, at?_goes hd hn⟩

end Timeline
end SceneScript
