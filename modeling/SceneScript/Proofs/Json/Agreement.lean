import SceneScript.Proofs.Fields
import SceneScript.Proofs.Scalar.Lawful
import SceneScript.Proofs.Transform

/-!
# Values that agree

A real that is a whole number is saved as that whole number, so a value that was saved and read is
not the same value. It **agrees** with it: numbers are equal as numbers, whole or not, and
everything else is the same, the names of an object and their order included.
-/

set_option autoImplicit false

namespace SceneScript
namespace Json

variable {α : Type} [Scalar α]

mutual

/-- The values are equal, but that a whole number may stand for a real. -/
def agrees : Json α → Json α → Bool
  | .null, .null => true
  | .bool a, .bool b => a == b
  | .int m, .int n => m == n
  | .int n, .real x => Scalar.whole? x == some n
  | .real x, .int n => Scalar.whole? x == some n
  | .real x, .real y => decide (x ≤ y) && decide (y ≤ x)
  | .str s, .str t => s == t
  | .arr vs, .arr ws => agreeItems vs ws
  | .obj ms, .obj ns => agreeMembers ms ns
  | _, _ => false

/-- The items agree one by one. -/
def agreeItems : List (Json α) → List (Json α) → Bool
  | [], [] => true
  | v :: vs, w :: ws => agrees v w && agreeItems vs ws
  | _, _ => false

/-- The names are the same, in the same order, and the values under them agree. -/
def agreeMembers : List (String × Json α) → List (String × Json α) → Bool
  | [], [] => true
  | (name, v) :: ms, (name', w) :: ns => name == name' && agrees v w && agreeMembers ms ns
  | _, _ => false

end

/-- One value agrees with another. -/
def Agree (v w : Json α) : Prop := v.agrees w = true

instance (v w : Json α) : Decidable (Agree v w) := inferInstanceAs (Decidable (_ = true))

theorem agreeMembers_iff (ms ns : Fields (Json α)) :
    agreeMembers ms ns = true ↔ Fields.Rel Agree ms ns := by
  induction ms generalizing ns with
  | nil =>
    cases ns with
    | nil => exact iff_of_true rfl .nil
    | cons n ns => exact iff_of_false (fun h => nomatch h) (fun h => nomatch h)
  | cons m ms ih =>
    cases ns with
    | nil => exact iff_of_false (fun h => nomatch h) (fun h => nomatch h)
    | cons n ns =>
      obtain ⟨name, v⟩ := m
      obtain ⟨name', w⟩ := n
      unfold agreeMembers
      rw [Bool.and_eq_true, Bool.and_eq_true, ih, beq_iff_eq]
      refine ⟨fun h => .cons h.1 h.2, fun h => ?_⟩
      cases h with
      | cons h hrest => exact ⟨h, hrest⟩

/-- **What agrees with a real is the same number.** -/
theorem Agree.same [Scalar.Lawful α] {v : Json α} {x y : α} (h : Agree v (.real x))
    (hv : v.number? = some y) : Scalar.Same y x := by
  cases v with
  | int n =>
    obtain ⟨z, hz, hs⟩ := Scalar.whole?_eq_some (beq_iff_eq.mp h)
    obtain rfl : z = y := Option.some.inj (hz.symm.trans hv)
    exact hs
  | real z =>
    obtain ⟨h1, h2⟩ := (Bool.and_eq_true _ _).mp h
    unfold number? at hv
    dsimp only at hv
    split at hv
    · obtain rfl := Option.some.inj hv
      exact ⟨of_decide_eq_true h1, of_decide_eq_true h2⟩
    · cases hv
  | null | bool | str | arr | obj => cases hv

end Json

open Json (Agree)

variable {α : Type} [Scalar α]

/-- Payloads agree if their numbers and their filters do. -/
theorem Numbers.agree_of_members {n m : Numbers (Json α)} {fs gs : Fields (Json α)}
    (h : Fields.Rel Agree (n.members ++ fs) (m.members ++ gs)) :
    Numbers.Rel Agree n m ∧ Fields.Rel Agree fs gs := by
  have hpair : ∀ {v w v' w' : Json α},
      Agree (.obj [("x", v), ("y", w)]) (.obj [("x", v'), ("y", w')]) →
        Agree v v' ∧ Agree w w' := by
    intro v w v' w' h
    cases (Json.agreeMembers_iff _ _).mp h with
    | cons hx h =>
      cases h with
      | cons hy h => exact ⟨hx.2, hy.2⟩
  cases h with
  | cons hposition h =>
    cases h with
    | cons hscale h =>
      cases h with
      | cons hrotation h =>
        obtain ⟨hx, hy⟩ := hpair hposition.2
        obtain ⟨hsx, hsy⟩ := hpair hscale.2
        exact ⟨⟨hx, hy, hsx, hsy, hrotation.2⟩, h⟩

end SceneScript
