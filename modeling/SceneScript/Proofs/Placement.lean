import SceneScript.Placement
import SceneScript.Proofs.Scalar.Rational

/-!
# Where a figure stands

A placed picture is a rectangle about the position, in the size at which it fits. What is said of it
is said about its four edges and those of the stage, in exact rationals.

Two facts about the fitted size carry the rest. **It is not above the stage in any direction**
(`fitted_x_le`, `fitted_y_le`) and **it is the stage's own in one of them** (`fitted_fills`). The
first one makes the two cases of the height one: a picture that is not shorter than the stage is as
high as it, and then it stands on the floor without being let down (`fromTop_of_le`). So every
anchor is left with two equations for the middle of the picture, and the edges follow.
-/

set_option autoImplicit false

namespace SceneScript

/-- The edges of a rectangle, as they count from the middle of the stage. -/
structure Edges where
  left : ℚ
  right : ℚ
  top : ℚ
  bottom : ℚ

namespace Edges

/-- The rectangle of a size about its middle. -/
def around (middle size : Vec2 ℚ) : Edges where
  left := middle.x - size.x / 2
  right := middle.x + size.x / 2
  top := middle.y - size.y / 2
  bottom := middle.y + size.y / 2

/-- The stage, which is about the origin. -/
def stage (size : Vec2 ℚ) : Edges := around ⟨0, 0⟩ size

/-- No part of a rectangle is outside another one. -/
structure Within (inner outer : Edges) : Prop where
  left : outer.left ≤ inner.left
  right : inner.right ≤ outer.right
  top : outer.top ≤ inner.top
  bottom : inner.bottom ≤ outer.bottom

end Edges

namespace Placement

/-- The size of a picture at the greatest scale that fits. -/
def fitted (stage image : Vec2 ℚ) : Vec2 ℚ :=
  let scale := min (stage.x / image.x) (stage.y / image.y)
  ⟨image.x * scale, image.y * scale⟩

/-- What the anchor says about the place of a rectangle on the stage. -/
def Anchored (anchor : Anchor) (stage picture : Edges) : Prop :=
  match anchor with
  | .left => picture.left = stage.left
  | .right => picture.right = stage.right
  | .center => picture.left + picture.right = stage.left + stage.right

/-- A picture of a size stands on the stage with its middle at a position. -/
structure Stands (anchor : Anchor) (stage size middle : Vec2 ℚ) : Prop where
  within : (Edges.around middle size).Within (Edges.stage stage)
  fills : size.x = stage.x ∨ size.y = stage.y
  onFloor : (Edges.around middle size).bottom = (Edges.stage stage).bottom
  anchored : Anchored anchor (Edges.stage stage) (Edges.around middle size)

variable {stage image : Vec2 ℚ}

/-! ## The fitted size -/

theorem fitted_x_le (stage : Vec2 ℚ) (hx : 0 < image.x) : (fitted stage image).x ≤ stage.x := by
  calc image.x * min (stage.x / image.x) (stage.y / image.y)
      ≤ image.x * (stage.x / image.x) := mul_le_mul_of_nonneg_left (min_le_left _ _) hx.le
    _ = stage.x := mul_div_cancel₀ stage.x hx.ne'

theorem fitted_y_le (stage : Vec2 ℚ) (hy : 0 < image.y) : (fitted stage image).y ≤ stage.y := by
  calc image.y * min (stage.x / image.x) (stage.y / image.y)
      ≤ image.y * (stage.y / image.y) := mul_le_mul_of_nonneg_left (min_le_right _ _) hy.le
    _ = stage.y := mul_div_cancel₀ stage.y hy.ne'

/-- **In one direction the fitted picture is as large as the stage**: in that of the smaller
    quotient. -/
theorem fitted_fills (stage : Vec2 ℚ) (hx : 0 < image.x) (hy : 0 < image.y) :
    (fitted stage image).x = stage.x ∨ (fitted stage image).y = stage.y := by
  rcases min_choice (stage.x / image.x) (stage.y / image.y) with h | h
  · left
    simp only [fitted, h]
    exact mul_div_cancel₀ stage.x hx.ne'
  · right
    simp only [fitted, h]
    exact mul_div_cancel₀ stage.y hy.ne'

/-! ## The position -/

@[simp] theorem halved_eq (x : ℚ) : halved x = x / 2 := rfl

/-- A picture that is not higher than the stage has its middle half its height above the floor,
    whether it has to be let down or not. -/
theorem fromTop_of_le {stageHeight height : ℚ} (h : height ≤ stageHeight) :
    fromTop stageHeight height = stageHeight - height / 2 := by
  unfold fromTop
  split
  · rw [halved_eq, halved_eq]
    ring
  · next hlt =>
    have heq : height = stageHeight := le_antisymm h (not_lt.mp hlt)
    rw [heq, halved_eq]
    ring

theorem fit_eq (stage : Vec2 ℚ) (hx : 0 < image.x) (hy : 0 < image.y) :
    fit stage image = .ok (min (stage.x / image.x) (stage.y / image.y)) := by
  unfold fit
  rw [Rational.divide?_of_ne_zero hx.ne', Rational.divide?_of_ne_zero hy.ne']
  simp only [Rational.least_eq]

/-- **Every picture can be placed**, in the middle that the anchor says and on the floor. -/
theorem position_eq (anchor : Anchor) (hsx : 0 < stage.x) (hsy : 0 < stage.y)
    (hix : 0 < image.x) (hiy : 0 < image.y) :
    position anchor stage image =
      .ok ⟨fromLeft anchor stage.x (fitted stage image).x - stage.x / 2,
        stage.y / 2 - (fitted stage image).y / 2⟩ := by
  have hsmallest : ¬ Scalar.least (Scalar.least (Scalar.least stage.x stage.y) image.x) image.y
      ≤ (Scalar.ofNat 0 : ℚ) := by
    simp only [Rational.least_eq, Rational.ofNat_eq, Nat.cast_zero, not_le, lt_min_iff]
    exact ⟨⟨⟨hsx, hsy⟩, hix⟩, hiy⟩
  have hheight : fromTop stage.y (fitted stage image).y - halved stage.y =
      stage.y / 2 - (fitted stage image).y / 2 := by
    rw [fromTop_of_le (fitted_y_le stage hiy), halved_eq]
    ring
  unfold position
  rw [if_neg hsmallest, fit_eq stage hix hiy, ← hheight]
  rfl

/-- **No anchor leads off the stage**: on both sides of the middle there is room for half the
    picture. -/
theorem fromLeft_mem (anchor : Anchor) {stageWidth width : ℚ} (h : width ≤ stageWidth) :
    fromLeft anchor stageWidth width ∈ Set.Icc (width / 2) (stageWidth - width / 2) := by
  cases anchor with
  | left =>
    simp only [fromLeft, halved_eq]
    exact ⟨le_rfl, by linarith⟩
  | center =>
    simp only [fromLeft, halved_eq]
    exact ⟨by linarith, by linarith⟩
  | right =>
    simp only [fromLeft, halved_eq]
    exact ⟨by linarith, le_rfl⟩

/-- The middle of a picture that is not larger than the stage, on the floor and at the anchor, is
    one where it stands. -/
theorem stands_of_le (anchor : Anchor) {size : Vec2 ℚ} (hx : size.x ≤ stage.x)
    (hy : size.y ≤ stage.y) (hfills : size.x = stage.x ∨ size.y = stage.y) :
    Stands anchor stage size
      ⟨fromLeft anchor stage.x size.x - stage.x / 2, stage.y / 2 - size.y / 2⟩ where
  within := by
    obtain ⟨hleft, hright⟩ := fromLeft_mem anchor hx
    constructor
    all_goals
      simp only [Edges.around, Edges.stage]
      linarith
  fills := hfills
  onFloor := by
    simp only [Edges.around, Edges.stage]
    ring
  anchored := by
    cases anchor with
    | left =>
      simp only [Anchored, Edges.around, Edges.stage, fromLeft, halved_eq]
      ring
    | right =>
      simp only [Anchored, Edges.around, Edges.stage, fromLeft, halved_eq]
      ring
    | center =>
      simp only [Anchored, Edges.around, Edges.stage, fromLeft, halved_eq]
      ring

/-- **A figure that is put up stands on the stage, on its floor and at its anchor**, and the
    positions at the left and at the right edge are opposite. -/
theorem stands_of_pos (hsx : 0 < stage.x) (hsy : 0 < stage.y) (hix : 0 < image.x)
    (hiy : 0 < image.y) :
    ∃ place : Anchor → Vec2 ℚ,
      (∀ anchor, position anchor stage image = .ok (place anchor) ∧
        Stands anchor stage (fitted stage image) (place anchor)) ∧
      (place .left).x = -(place .right).x := by
  refine ⟨fun anchor => ⟨fromLeft anchor stage.x (fitted stage image).x - stage.x / 2,
    stage.y / 2 - (fitted stage image).y / 2⟩, fun anchor => ⟨?_, ?_⟩, ?_⟩
  · exact position_eq anchor hsx hsy hix hiy
  · exact stands_of_le anchor (fitted_x_le stage hix) (fitted_y_le stage hiy)
      (fitted_fills stage hix hiy)
  · simp only [fromLeft, halved_eq]
    ring

/-- A tall picture on a wide stage: it is as high as the stage. -/
theorem stands_of_pos_tall :
    (0 : ℚ) < 1280 ∧ (0 : ℚ) < 720 ∧ (0 : ℚ) < 600 ∧ (0 : ℚ) < 1000 ∧
      ∃ place : Anchor → Vec2 ℚ,
        (∀ anchor, position anchor ⟨1280, 720⟩ ⟨600, 1000⟩ = .ok (place anchor) ∧
          Stands anchor ⟨1280, 720⟩ (fitted ⟨1280, 720⟩ ⟨600, 1000⟩) (place anchor)) ∧
        (place .left).x = -(place .right).x := by
  refine ⟨by norm_num, by norm_num, by norm_num, by norm_num, ?_⟩
  exact stands_of_pos (by norm_num) (by norm_num) (by norm_num) (by norm_num)

end Placement
end SceneScript
