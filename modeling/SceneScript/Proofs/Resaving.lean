import SceneScript.Proofs.Idempotence
import SceneScript.Proofs.Overflow
import SceneScript.Proofs.Rounding
import SceneScript.Proofs.Scalar.Rational

/-!
# Saving again

A transform that is saved is rounded, and its position is converted to the units of the script; one
that is read back has it converted again. **From the first time on nothing is lost**: what is saved
of the transform that was read back is what it was read from (`savedPayload_again`). Everything is
in exact rationals, where a conversion and its inverse cancel. In doubles they need not, and a
hundredth more or less would be saved.

Two facts about rounding carry this. **Rounding twice is rounding once** (`roundValue_roundValue`),
at every depth, where a real that has become a whole number is not touched any more. And the five
numbers, which are reals again when they are read back, are rounded to the same values again
(`rounded_rounded`).

That nothing but reals is replaced, and each by a number, is said of any kind of scalars
(`sameShape_roundValue`).
-/

set_option autoImplicit false

namespace SceneScript

open Outcome (map_eq_ok)

variable {α : Type}

/-! ## The shape of a value -/

namespace Json

mutual

/-- The second value is the first one with a number, real or whole, in the place of each real. -/
def SameShape : Json α → Json α → Prop
  | .null, .null => True
  | .bool a, .bool b => a = b
  | .int m, .int n => m = n
  | .real _, .int _ => True
  | .real _, .real _ => True
  | .str s, .str t => s = t
  | .arr vs, .arr ws => SameItems vs ws
  | .obj ms, .obj ns => SameMembers ms ns
  | _, _ => False

/-- The items have the same shapes one by one. -/
def SameItems : List (Json α) → List (Json α) → Prop
  | [], [] => True
  | v :: vs, w :: ws => SameShape v w ∧ SameItems vs ws
  | _, _ => False

/-- The names are the same, in the same order, and the values under them have the same shapes. -/
def SameMembers : List (String × Json α) → List (String × Json α) → Prop
  | [], [] => True
  | (name, v) :: ms, (name', w) :: ns => name = name' ∧ SameShape v w ∧ SameMembers ms ns
  | _, _ => False

end

end Json

namespace Rounding

section Shape

variable [Scalar α]

theorem sameShape_compact (x y : α) : (Json.real x).SameShape (compact y) := by
  unfold compact
  split
  · trivial
  · trivial

theorem sameShape_roundReal {name : String} {x : α} {w : Json α} (h : roundReal name x = .ok w) :
    (Json.real x).SameShape w := by
  unfold roundReal at h
  split at h
  · cases h
    trivial
  split at h
  · obtain ⟨n, -, rfl⟩ := map_eq_ok.mp h
    trivial
  · obtain ⟨y, -, rfl⟩ := map_eq_ok.mp h
    exact sameShape_compact x y

mutual

/-- **Rounding keeps the shape of a value.** -/
theorem sameShape_roundValue (name : String) (v : Json α) {w : Json α}
    (h : roundValue name v = .ok w) : v.SameShape w := by
  cases v with
  | null =>
    cases h
    trivial
  | bool b =>
    cases h
    rfl
  | int n =>
    cases h
    rfl
  | real x => exact sameShape_roundReal h
  | str s =>
    cases h
    rfl
  | arr items =>
    obtain ⟨ws, hws, rfl⟩ := map_eq_ok.mp h
    exact sameItems_roundItems name items hws
  | obj members =>
    obtain ⟨ws, hws, rfl⟩ := map_eq_ok.mp h
    exact sameMembers_roundFields members hws

theorem sameItems_roundItems (name : String) (vs : List (Json α)) {ws : List (Json α)}
    (h : roundItems name vs = .ok ws) : Json.SameItems vs ws := by
  cases vs with
  | nil =>
    cases h
    trivial
  | cons v vs =>
    obtain ⟨w, ws, hw, hws, rfl⟩ := roundItems_cons_eq_ok.mp h
    exact ⟨sameShape_roundValue name v hw, sameItems_roundItems name vs hws⟩

theorem sameMembers_roundFields (fs : List (String × Json α)) {gs : List (String × Json α)}
    (h : roundFields fs = .ok gs) : Json.SameMembers fs gs := by
  match fs, h with
  | [], h =>
    cases h
    trivial
  | (name, v) :: fs, h =>
    obtain ⟨w, ws, hw, hws, rfl⟩ := roundFields_cons_eq_ok.mp h
    exact ⟨rfl, sameShape_roundValue name v hw, sameMembers_roundFields fs hws⟩

end

end Shape

/-! ## Rounding rationals -/

/-- The nearest multiple of a hundredth, the upper one of two. -/
def rounded (x : ℚ) : ℚ := (round (x * 100) : ℤ) / 100

theorem half_eq : (half : ℚ) = 1 / 2 := by
  unfold half
  rw [Rational.ofDecimal_eq]
  norm_num

theorem hundredths_eq (n : ℤ) : (hundredths n : ℚ) = n / 100 := by
  unfold hundredths
  rw [Rational.ofDecimal_eq]
  dsimp only
  by_cases hn : n < 0
  · have habs : ((n.natAbs : ℕ) : ℚ) = -n := by
      rw [Nat.cast_natAbs, abs_of_neg hn, Int.cast_neg]
    rw [decide_eq_true hn, if_pos rfl, habs]
    norm_num
    ring
  · have habs : ((n.natAbs : ℕ) : ℚ) = n := by
      rw [Nat.cast_natAbs, abs_of_nonneg (not_lt.mp hn)]
    rw [decide_eq_false hn, if_neg Bool.false_ne_true, habs]
    norm_num
    ring

/-- **A rational is always rounded.** -/
theorem roundReal_eq (name : String) (x : ℚ) : roundReal name x =
    .ok (if name ∈ wholeNumbered then .int (round x) else compact (rounded x)) := by
  have htwo : roundToTwo x = .ok (rounded x) := by
    unfold roundToTwo
    rw [half_eq, Rational.ofNat_eq, Nat.cast_ofNat, Rational.floor_eq, ← round_eq]
    exact congrArg Except.ok (hundredths_eq _)
  have hwhole : roundToWhole x = .ok (round x) := by
    unfold roundToWhole
    rw [half_eq, Rational.floor_eq, ← round_eq]
  unfold roundReal
  rw [Rational.isFinite_eq, Bool.not_true, if_neg Bool.false_ne_true, htwo, hwhole]
  by_cases hname : name ∈ wholeNumbered
  · rw [if_pos hname, if_pos (List.contains_iff_mem.mpr hname)]
    rfl
  · rw [if_neg hname, if_neg fun h => hname (List.contains_iff_mem.mp h)]
    rfl

theorem roundsTo_compact (x : ℚ) : RoundsTo (compact (rounded x)) x := by
  intro name hname
  rw [roundReal_eq, if_neg hname]

theorem number?_compact (x : ℚ) : (compact x).number? = some x := by
  unfold compact
  split
  · next n hn => exact congrArg some ((Rational.whole?_eq_some_iff x n).mp hn).symm
  · rfl

/-- **A multiple of a hundredth is rounded to itself.** -/
theorem rounded_rounded (x : ℚ) : rounded (rounded x) = rounded x := by
  unfold rounded
  rw [div_mul_cancel₀ _ (by norm_num : (100 : ℚ) ≠ 0), round_intCast]

/-- What is rounded is off by half a hundredth at most. -/
theorem abs_rounded_sub_le (x : ℚ) : |rounded x - x| ≤ 1 / 200 := by
  have hround := abs_le.mp (abs_sub_round (x * 100))
  rw [abs_le]
  unfold rounded
  constructor
  · linarith
  · linarith

/-! ## Rounding twice -/

theorem roundValue_compact (name : String) (x : ℚ) (hname : name ∉ wholeNumbered) :
    roundValue name (compact (rounded x)) = .ok (compact (rounded x)) := by
  have hreal : roundReal name (rounded x) = .ok (compact (rounded x)) := by
    rw [roundReal_eq, if_neg hname, rounded_rounded]
  unfold compact at hreal ⊢
  split at hreal
  · -- a whole number by now, which rounding leaves alone
    rfl
  · exact hreal

theorem roundValue_roundReal {name : String} {x : ℚ} {w : Json ℚ}
    (h : roundReal name x = .ok w) : roundValue name w = .ok w := by
  rw [roundReal_eq] at h
  cases h
  by_cases hname : name ∈ wholeNumbered
  · rw [if_pos hname]
    rfl
  · rw [if_neg hname]
    exact roundValue_compact name x hname

mutual

/-- **Rounding twice is rounding once**, at every depth. -/
theorem roundValue_roundValue (name : String) (v : Json ℚ) {w : Json ℚ}
    (h : roundValue name v = .ok w) : roundValue name w = .ok w := by
  cases v with
  | null =>
    cases h
    rfl
  | bool b =>
    cases h
    rfl
  | int n =>
    cases h
    rfl
  | real x => exact roundValue_roundReal h
  | str s =>
    cases h
    rfl
  | arr items =>
    obtain ⟨ws, hws, rfl⟩ := map_eq_ok.mp h
    exact map_eq_ok.mpr ⟨ws, roundItems_roundItems name items hws, rfl⟩
  | obj members =>
    obtain ⟨ws, hws, rfl⟩ := map_eq_ok.mp h
    exact map_eq_ok.mpr ⟨ws, roundFields_roundFields members hws, rfl⟩

theorem roundItems_roundItems (name : String) (vs : List (Json ℚ)) {ws : List (Json ℚ)}
    (h : roundItems name vs = .ok ws) : roundItems name ws = .ok ws := by
  cases vs with
  | nil =>
    cases h
    rfl
  | cons v vs =>
    obtain ⟨w, ws, hw, hws, rfl⟩ := roundItems_cons_eq_ok.mp h
    exact roundItems_cons_eq_ok.mpr ⟨w, ws, roundValue_roundValue name v hw,
      roundItems_roundItems name vs hws, rfl⟩

theorem roundFields_roundFields (fs : List (String × Json ℚ)) {gs : List (String × Json ℚ)}
    (h : roundFields fs = .ok gs) : roundFields gs = .ok gs := by
  match fs, h with
  | [], h =>
    cases h
    rfl
  | (name, v) :: fs, h =>
    obtain ⟨w, ws, hw, hws, rfl⟩ := roundFields_cons_eq_ok.mp h
    exact roundFields_cons_eq_ok.mpr ⟨w, ws, roundValue_roundValue name v hw,
      roundFields_roundFields fs hws, rfl⟩

end

theorem exists_roundFields (fs : Fields (Json ℚ)) :
    ∃ gs : Fields (Json ℚ), roundFields fs = .ok gs :=
  (exists_roundFields_iff fs).mpr fun _ _ name x _ => ⟨_, roundReal_eq name x⟩

end Rounding

/-! ## Transforms -/

namespace Numbers

variable {β γ : Type}

/-- All five numbers changed in the same way. -/
def map (f : β → γ) (n : Numbers β) : Numbers γ :=
  ⟨f n.x, f n.y, f n.scaleX, f n.scaleY, f n.rotation⟩

end Numbers

namespace Transform

open Rounding (rounded compact savedPayload roundFields)

/-- The five numbers as they are saved. -/
def saved (n : Numbers ℚ) : Numbers (Json ℚ) := n.map fun x => compact (rounded x)

theorem numbers_transform (n : Numbers ℚ) (filters : Fields (Json ℚ)) :
    (n.transform filters).numbers = n := rfl

theorem saved_rounded (n : Numbers ℚ) : saved (n.map rounded) = saved n := by
  simp only [saved, Numbers.map, Rounding.rounded_rounded]

/-- Whatever the numbers are, saving them keeps the shape of a payload. -/
theorem sameMembers_saved (t : Transform ℚ) (n : Numbers ℚ) {fs : Fields (Json ℚ)}
    (h : Json.SameMembers t.filters fs) :
    Json.SameMembers (t.written.members ++ t.filters) ((saved n).members ++ fs) := by
  have hreal : ∀ x y : ℚ, (Json.real x).SameShape (compact (rounded y)) :=
    fun x y => Rounding.sameShape_compact x _
  exact ⟨rfl, ⟨rfl, hreal _ _, rfl, hreal _ _, trivial⟩, rfl,
    ⟨rfl, hreal _ _, rfl, hreal _ _, trivial⟩, rfl, hreal _ _, h⟩

/-- **What is saved of a transform**: its numbers in the units of the script, rounded, and its
    filters, rounded. -/
theorem Tidy.savedPayload_eq {t : Transform ℚ} (ht : t.Tidy) (ratio : Vec2 ℚ)
    {fs : Fields (Json ℚ)} (hfs : roundFields t.filters = .ok fs) :
    savedPayload ratio t = .ok ((saved (t.placed ratio).numbers).members ++ fs) := by
  rw [Rounding.savedPayload_eq ht.nodup ht.free]
  refine Rounding.roundFields_members_iff.mpr ⟨_, fs, ?_, hfs, rfl⟩
  exact ⟨Rounding.roundsTo_compact _, Rounding.roundsTo_compact _, Rounding.roundsTo_compact _,
    Rounding.roundsTo_compact _, Rounding.roundsTo_compact _⟩

/-- **Reading it back gives the rounded numbers**, and the position in other units again. -/
theorem merge_saved (n : Numbers ℚ) {fs : Fields (Json ℚ)} (hn : fs.keys.Nodup)
    (hf : AreFree fs.keys) (factor : Vec2 ℚ) :
    initial.merge ((saved n).members ++ fs) factor =
      .ok (((n.map rounded).transform fs).placed factor) := by
  have hnumbers : Numbers.Rel (fun (v : Json ℚ) x => v.number? = some x) (saved n)
      (n.map rounded) :=
    ⟨Rounding.number?_compact _, Rounding.number?_compact _, Rounding.number?_compact _,
      Rounding.number?_compact _, Rounding.number?_compact _⟩
  unfold merge
  rw [Update.ofPayload_members hnumbers hf]
  show Except.ok (((n.map rounded).transform (Fields.ofPairs fs)).placed factor) = _
  rw [Fields.ofPairs_of_nodup hn]

/-- Converting back cancels converting. -/
theorem placed_placed_inv (t : Transform ℚ) {ratio : Vec2 ℚ} (hx : ratio.x ≠ 0)
    (hy : ratio.y ≠ 0) : (t.placed ⟨1 / ratio.x, 1 / ratio.y⟩).placed ratio = t := by
  unfold placed
  simp only [mul_assoc, one_div_mul_cancel hx, one_div_mul_cancel hy, mul_one]

/-- A coordinate that was converted, rounded and converted back is off by half a hundredth of a unit
    of the script at most. -/
theorem abs_convert_back_sub_le (x : ℚ) {ratio : ℚ} (hr : 0 < ratio) :
    |rounded (x * ratio) * (1 / ratio) - x| ≤ 1 / (200 * ratio) := by
  have hback : rounded (x * ratio) * (1 / ratio) - x =
      (rounded (x * ratio) - x * ratio) * (1 / ratio) := by
    field_simp
  rw [hback, abs_mul, abs_of_pos (one_div_pos.mpr hr)]
  calc |rounded (x * ratio) - x * ratio| * (1 / ratio)
      ≤ 1 / 200 * (1 / ratio) :=
        mul_le_mul_of_nonneg_right (Rounding.abs_rounded_sub_le _) (one_div_pos.mpr hr).le
    _ = 1 / (200 * ratio) := by rw [one_div_mul_one_div]

/-- **Saving and reading back does not drift.** A transform is saved, in the units of the script, and
    read back. The transform that is then there is saved as the same payload again, its position is
    off by half a hundredth of a unit at most, and the payload has the shape of the transform's own:
    the same names in the same order, and at every depth the same values, but for the reals, each of
    which has become a number. -/
theorem savedPayload_again {t : Transform ℚ} (ht : t.Tidy) {ratio : Vec2 ℚ} (hx : 0 < ratio.x)
    (hy : 0 < ratio.y) :
    ∃ (p : Fields (Json ℚ)) (t' : Transform ℚ),
      savedPayload ratio t = .ok p ∧
      Transform.initial.merge p ⟨1 / ratio.x, 1 / ratio.y⟩ = .ok t' ∧
      savedPayload ratio t' = .ok p ∧
      |t'.position.x - t.position.x| ≤ 1 / (200 * ratio.x) ∧
      |t'.position.y - t.position.y| ≤ 1 / (200 * ratio.y) ∧
      (Json.obj t.payload).SameShape (.obj p) := by
  obtain ⟨fs, hfs⟩ := Rounding.exists_roundFields t.filters
  have hkeys : fs.keys = t.filters.keys := Rounding.keys_roundFields hfs
  have hn : fs.keys.Nodup := hkeys ▸ ht.nodup
  have hf : AreFree fs.keys := hkeys ▸ ht.free
  have hsaved := ht.savedPayload_eq ratio hfs
  refine ⟨_, _, hsaved, merge_saved _ hn hf _, ?_, ?_, ?_, ?_⟩
  · -- in the units of the script the numbers are the rounded ones, which are not rounded again
    have hagain : roundFields fs = .ok fs := Rounding.roundFields_roundFields t.filters hfs
    have htidy : (((t.placed ratio).numbers.map rounded).transform fs |>.placed
        ⟨1 / ratio.x, 1 / ratio.y⟩).Tidy := ⟨hn, hf⟩
    rw [htidy.savedPayload_eq ratio hagain, placed_placed_inv _ hx.ne' hy.ne', numbers_transform,
      saved_rounded]
  · exact abs_convert_back_sub_le t.position.x hx
  · exact abs_convert_back_sub_le t.position.y hy
  · rw [payload_eq ht.nodup ht.free]
    exact sameMembers_saved t (t.placed ratio).numbers
      (Rounding.sameMembers_roundFields t.filters hfs)

/-- A figure between two pixels, with a colour and a list of points, in a script of another
    resolution. -/
theorem savedPayload_again_between :
    let t : Transform ℚ := ⟨⟨100 / 3, -7⟩, ⟨1, 1 / 8⟩, 0,
      [("colorRed", .real (5 / 2)), ("points", .arr [.int 3, .real (1 / 3), .str "end"])]⟩
    let ratio : Vec2 ℚ := ⟨3 / 2, 2⟩
    t.Tidy ∧ 0 < ratio.x ∧ 0 < ratio.y ∧
      ∃ (p : Fields (Json ℚ)) (t' : Transform ℚ),
        savedPayload ratio t = .ok p ∧
        Transform.initial.merge p ⟨1 / ratio.x, 1 / ratio.y⟩ = .ok t' ∧
        savedPayload ratio t' = .ok p ∧
        |t'.position.x - t.position.x| ≤ 1 / (200 * ratio.x) ∧
        |t'.position.y - t.position.y| ≤ 1 / (200 * ratio.y) ∧
        (Json.obj t.payload).SameShape (.obj p) := by
  intro t ratio
  have ht : t.Tidy := by decide
  have hx : 0 < ratio.x := by norm_num [ratio]
  have hy : 0 < ratio.y := by norm_num [ratio]
  exact ⟨ht, hx, hy, savedPayload_again ht hx hy⟩

end Transform
end SceneScript
