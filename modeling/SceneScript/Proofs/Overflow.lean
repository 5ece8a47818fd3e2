import SceneScript.Proofs.Rounding
import SceneScript.Proofs.Scalar.Lawful
import SceneScript.Proofs.Scalar.Sum

/-!
# When rounding fails

Rounding goes through a value at every depth and comes to each real with the name that it is under
(`RealAt`). **It succeeds exactly if each of these reals can be rounded** (`exists_roundValue_iff`).

Of doubles those cannot that are finite themselves and no longer are in hundredths (`TooLarge`). A
whole-numbered filter is not taken in hundredths, so no double is too large for it
(`exists_roundReal_iff`).
-/

set_option autoImplicit false

namespace SceneScript
namespace Rounding

open Outcome (exists_both_eq_ok exists_map_eq_ok)

/-! ## Reals in values -/

section Reals

variable {α : Type}

/-- The real stands under the name in a value that is under a name itself. A member of an object is
    under its own name, and the items of a list are under that of the list. -/
inductive RealAt (name : String) (x : α) : String → Json α → Prop
  | here : RealAt name x name (.real x)
  | item {outer : String} {items : List (Json α)} {v : Json α} :
    v ∈ items → RealAt name x outer v → RealAt name x outer (.arr items)
  | member {outer inner : String} {members : List (String × Json α)} {v : Json α} :
    (inner, v) ∈ members → RealAt name x inner v → RealAt name x outer (.obj members)

variable [Scalar α]

/-- Every real in a value can be rounded. -/
def Roundable (outer : String) (v : Json α) : Prop :=
  ∀ name x, RealAt name x outer v → ∃ w, roundReal name x = .ok w

theorem roundable_real (name : String) (x : α) :
    Roundable name (.real x) ↔ ∃ w, roundReal name x = .ok w := by
  constructor
  · exact fun h => h name x .here
  · rintro h _ _ ⟨⟩
    exact h

theorem roundable_arr (outer : String) (items : List (Json α)) :
    Roundable outer (.arr items) ↔ ∀ v ∈ items, Roundable outer v := by
  constructor
  · exact fun h v hv name x hx => h name x (.item hv hx)
  · intro h name x hx
    cases hx with
    | item hv hx => exact h _ hv name x hx

theorem roundable_obj (outer : String) (members : List (String × Json α)) :
    Roundable outer (.obj members) ↔ ∀ f ∈ members, Roundable f.1 f.2 := by
  constructor
  · exact fun h f hf name x hx => h name x (.member hf hx)
  · intro h name x hx
    cases hx with
    | member hv hx => exact h _ hv name x hx

mutual

/-- **A value can be rounded exactly if every real in it can.** -/
theorem exists_roundValue_iff (name : String) (v : Json α) :
    (∃ w, roundValue name v = .ok w) ↔ Roundable name v := by
  cases v with
  | null => exact iff_of_true ⟨_, rfl⟩ fun _ _ h => nomatch h
  | bool b => exact iff_of_true ⟨_, rfl⟩ fun _ _ h => nomatch h
  | int n => exact iff_of_true ⟨_, rfl⟩ fun _ _ h => nomatch h
  | str s => exact iff_of_true ⟨_, rfl⟩ fun _ _ h => nomatch h
  | real x => exact (roundable_real name x).symm
  | arr items =>
    rw [roundValue, exists_map_eq_ok, roundable_arr]
    exact exists_roundItems_iff name items
  | obj members =>
    rw [roundValue, exists_map_eq_ok, roundable_obj]
    exact exists_roundFields_iff members

theorem exists_roundItems_iff (name : String) (vs : List (Json α)) :
    (∃ ws, roundItems name vs = .ok ws) ↔ ∀ v ∈ vs, Roundable name v := by
  cases vs with
  | nil => exact iff_of_true ⟨_, rfl⟩ fun _ h => nomatch h
  | cons v vs =>
    rw [roundItems_cons, exists_both_eq_ok, List.forall_mem_cons]
    exact and_congr (exists_roundValue_iff name v) (exists_roundItems_iff name vs)

theorem exists_roundFields_iff (fs : List (String × Json α)) :
    (∃ gs, roundFields fs = .ok gs) ↔ ∀ f ∈ fs, Roundable f.1 f.2 := by
  match fs with
  | [] => exact iff_of_true ⟨_, rfl⟩ fun _ h => nomatch h
  | (name, v) :: fs =>
    rw [roundFields_cons, exists_both_eq_ok, List.forall_mem_cons]
    exact and_congr (exists_roundValue_iff name v) (exists_roundFields_iff fs)

end

/-- What is rounded of a transform: its payload, with the position converted. -/
def placedPayload (ratio : Vec2 α) (t : Transform α) : Fields (Json α) :=
  t.payload.set "position" (Json.axes (t.position.x * ratio.x) (t.position.y * ratio.y))

end Reals

/-! ## Doubles -/

/-- The double is finite, and in hundredths it is not. -/
def TooLarge (x : Float) : Prop :=
  Scalar.isFinite x = true ∧ Scalar.isFinite (x * Scalar.ofNat 100) = false

instance (x : Float) : Decidable (TooLarge x) :=
  inferInstanceAs (Decidable (_ ∧ _))

theorem exists_floor_iff (x : Float) :
    (∃ n, Scalar.floor x = .ok n) ↔ Scalar.isFinite x = true := by
  unfold Scalar.isFinite
  cases Scalar.floor x with
  | error e => simp
  | ok n => simp

/-- **A double cannot be rounded exactly if it is too large**, and its name is not that of a
    whole-numbered filter. -/
theorem exists_roundReal_iff (name : String) (x : Float) :
    (∃ w, roundReal name x = .ok w) ↔ ¬ (name ∉ wholeNumbered ∧ TooLarge x) := by
  unfold roundReal roundToWhole roundToTwo TooLarge
  by_cases hx : Scalar.isFinite x = true
  · rw [hx, if_neg (by decide)]
    by_cases hname : name ∈ wholeNumbered
    · rw [if_pos (List.contains_iff_mem.mpr hname), exists_map_eq_ok, exists_floor_iff,
        Binary64.isFinite_add_half]
      exact iff_of_true hx fun h => h.1 hname
    · rw [if_neg fun h => hname (List.contains_iff_mem.mp h), exists_map_eq_ok, exists_map_eq_ok,
        exists_floor_iff, Binary64.isFinite_add_half]
      simp [hname]
  · rw [Bool.not_eq_true] at hx
    rw [hx, if_pos (by decide)]
    exact iff_of_true ⟨_, rfl⟩ fun h => nomatch h.2.1

/-- A double of the transform, or of a filter at any depth, is too large to be saved. -/
def Overflows (ratio : Vec2 Float) (t : Transform Float) : Prop :=
  ∃ f ∈ placedPayload ratio t, ∃ name x, RealAt name x f.1 f.2 ∧
    name ∉ wholeNumbered ∧ TooLarge x

/-- **A transform is saved exactly if no double in it is too large.** -/
theorem exists_savedPayload_iff (ratio : Vec2 Float) (t : Transform Float) :
    (∃ payload, savedPayload ratio t = .ok payload) ↔ ¬ Overflows ratio t := by
  refine (exists_roundFields_iff (placedPayload ratio t)).trans ?_
  unfold Roundable Overflows
  simp only [exists_roundReal_iff]
  push Not
  rfl

end Rounding
end SceneScript
