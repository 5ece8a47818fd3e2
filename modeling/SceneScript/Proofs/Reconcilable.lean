import SceneScript.Proofs.Reconciliation

/-!
# When commands can be reconciled

Reconciling merges the payload of each move, and merging reads it with the checks that a line of a
script has to pass. Commands that a caller makes never passed those. So **reconciling succeeds
exactly if the payload of every move of a figure is readable** (`reconcile_returns_iff`), wherever
the move stands and whatever the states before it are.

For most transforms that is a question of their numbers: with filters under free names it is
**readable exactly if all five are finite** (`readable_payload_iff`). A filter under a structural
name stands in the place of that part of the transform, and has to be fit for it.
-/

set_option autoImplicit false

namespace SceneScript

open Outcome (exists_map_eq_ok)

variable {α : Type} [Scalar α]

/-! ## Readable payloads -/

/-- The member is absent or null, or it is a finite number. -/
def Json.GivesNumber (fields : Fields (Json α)) (name : String) : Prop :=
  ∀ v, Json.given? fields name = some v → ∃ x, v.number? = some x

/-- The member is absent or null, or it is an object with a number or nothing for each axis. -/
def Json.GivesPoint (fields : Fields (Json α)) (name : String) : Prop :=
  ∀ v, Json.given? fields name = some v →
    ∃ axes, v = .obj axes ∧ Json.GivesNumber axes "x" ∧ Json.GivesNumber axes "y"

/-- What a payload has to be like for all that is said in it to be taken. -/
structure Readable (payload : Fields (Json α)) : Prop where
  position : Json.GivesPoint payload "position"
  scale : Json.GivesPoint payload "scale"
  rotation : Json.GivesNumber payload "rotation"

namespace Update

theorem exists_number_iff (fields : Fields (Json α)) (name field : String) :
    (∃ found, number fields name field = .ok found) ↔ Json.GivesNumber fields name := by
  unfold number Json.GivesNumber
  cases hg : Json.given? fields name with
  | none => simp
  | some v =>
    cases v with
    | int n =>
      cases hn : Scalar.ofInt? (α := α) n with
      | none => simp [Json.number?, hn]
      | some x => simp [Json.number?, hn]
    | real x =>
      by_cases hx : Scalar.isFinite x
      · simp [Json.number?, hx]
      · simp [Json.number?, hx]
    | null => simp [Json.number?]
    | bool b => simp [Json.number?]
    | str s => simp [Json.number?]
    | arr items => simp [Json.number?]
    | obj ms => simp [Json.number?]

/-- The axes that a payload gives for a point are both numbers. -/
theorem exists_axes_iff (payload : Fields (Json α)) (name fieldX fieldY : String) :
    (∃ axes, members payload name = .ok axes ∧ (∃ x, number axes "x" fieldX = .ok x) ∧
      ∃ y, number axes "y" fieldY = .ok y) ↔ Json.GivesPoint payload name := by
  simp only [exists_number_iff]
  unfold members Json.GivesPoint
  cases hg : Json.given? payload name with
  | none =>
    refine iff_of_true ⟨[], rfl, ?_, ?_⟩ fun v hv => nomatch hv
    · exact fun v hv => nomatch hv
    · exact fun v hv => nomatch hv
  | some v =>
    cases v with
    | obj axes => simp
    | null => simp
    | bool b => simp
    | int n => simp
    | real x => simp
    | str s => simp
    | arr items => simp

/-- **A payload is read exactly if it is readable.** -/
theorem exists_ofPayload_iff (payload : Fields (Json α)) :
    (∃ u, ofPayload payload = .ok u) ↔ Readable payload := by
  simp only [ofPayload_eq_ok_iff]
  constructor
  · rintro ⟨u, ⟨position, hp, hx, hy⟩, ⟨scale, hs, hsx, hsy⟩, hr, -⟩
    exact ⟨(exists_axes_iff _ _ _ _).mp ⟨position, hp, ⟨u.x, hx⟩, u.y, hy⟩,
      (exists_axes_iff _ _ _ _).mp ⟨scale, hs, ⟨u.scaleX, hsx⟩, u.scaleY, hsy⟩,
      (exists_number_iff _ _ _).mp ⟨u.rotation, hr⟩⟩
  · intro h
    obtain ⟨position, hp, ⟨x, hx⟩, y, hy⟩ :=
      (exists_axes_iff _ _ "position.x" "position.y").mpr h.position
    obtain ⟨scale, hs, ⟨scaleX, hsx⟩, scaleY, hsy⟩ :=
      (exists_axes_iff _ _ "scale.x" "scale.y").mpr h.scale
    obtain ⟨rotation, hr⟩ := (exists_number_iff _ _ "rotation").mpr h.rotation
    exact ⟨⟨x, y, scaleX, scaleY, rotation, _⟩, ⟨position, hp, hx, hy⟩, ⟨scale, hs, hsx, hsy⟩, hr,
      rfl⟩

end Update

/-! ## The payloads of transforms -/

theorem Json.givesNumber_real {fields : Fields (Json α)} {name : String} {x : α}
    (h : fields.get? name = some (.real x)) :
    Json.GivesNumber fields name ↔ Scalar.isFinite x = true := by
  unfold GivesNumber given?
  rw [h]
  by_cases hx : Scalar.isFinite x
  · simp [number?, hx]
  · simp [number?, hx]

theorem Json.givesPoint_axes {fields : Fields (Json α)} {name : String} {x y : α}
    (h : fields.get? name = some (.axes x y)) :
    Json.GivesPoint fields name ↔ Scalar.isFinite x = true ∧ Scalar.isFinite y = true := by
  have hx : GivesNumber [("x", Json.real x), ("y", .real y)] "x" ↔ Scalar.isFinite x = true :=
    givesNumber_real rfl
  have hy : GivesNumber [("x", Json.real x), ("y", .real y)] "y" ↔ Scalar.isFinite y = true :=
    givesNumber_real rfl
  unfold GivesPoint given?
  rw [h, ← hx, ← hy]
  simp [axes]

/-- **With filters under free names a payload is readable exactly if the five numbers are
    finite.** -/
theorem readable_payload_iff {t : Transform α} (hn : t.filters.keys.Nodup)
    (hf : AreFree t.filters.keys) :
    Readable t.payload ↔ t.numbers.All fun x => Scalar.isFinite x = true := by
  rw [Transform.payload_eq hn hf]
  set payload := t.written.members ++ t.filters
  have hp : Json.GivesPoint payload "position" ↔
      Scalar.isFinite t.position.x = true ∧ Scalar.isFinite t.position.y = true :=
    Json.givesPoint_axes rfl
  have hs : Json.GivesPoint payload "scale" ↔
      Scalar.isFinite t.scale.x = true ∧ Scalar.isFinite t.scale.y = true :=
    Json.givesPoint_axes rfl
  have hr : Json.GivesNumber payload "rotation" ↔ Scalar.isFinite t.rotation = true :=
    Json.givesNumber_real rfl
  constructor
  · rintro ⟨h1, h2, h3⟩
    exact ⟨(hp.mp h1).1, (hp.mp h1).2, (hs.mp h2).1, (hs.mp h2).2, hr.mp h3⟩
  · rintro ⟨h1, h2, h3, h4, h5⟩
    exact ⟨hp.mpr ⟨h1, h2⟩, hs.mpr ⟨h3, h4⟩, hr.mpr h5⟩

/-! ## Reconciling -/

namespace Reconciliation

/-- What a command has to be like to be reconciled. -/
def Mergeable (c : Command α) : Prop :=
  ∀ m, c = .setTransform m → m.target ≠ backgroundTarget → Readable m.transform.payload

/-- **One command**: whether it goes through does not depend on the running states. -/
theorem exists_step_iff (running : Stage α) (c : Command α) :
    (∃ p, step running c = .ok p) ↔ Mergeable c := by
  obtain hfree | ⟨figure, rfl, -⟩ | ⟨move, rfl, hne⟩ := followed_cases c
  · refine iff_of_true ⟨_, step_passed running hfree⟩ ?_
    rintro m rfl hne
    exact absurd (hfree _ rfl) hne
  · exact iff_of_true ⟨_, rfl⟩ fun m hm => nomatch hm
  · unfold step
    dsimp only
    rw [if_pos ((isFollowed_iff _).mpr hne)]
    rw [exists_map_eq_ok, Transform.merge, exists_map_eq_ok, Update.exists_ofPayload_iff]
    constructor
    · rintro h m hm -
      cases hm
      exact h
    · exact fun h => h move rfl hne

theorem exists_run_cons_iff (running : Stage α) (c : Command α) (commands : List (Command α)) :
    (∃ r, (run running (c :: commands)).1 = .ok r) ↔
      ∃ p, step running c = .ok p ∧ ∃ r, (run p.2 commands).1 = .ok r := by
  rw [run]
  cases hs : step running c with
  | error e => simp
  | ok p => simp [exists_map_eq_ok]

/-- **All commands**: by induction, with the step above. -/
theorem exists_run_iff (running : Stage α) (commands : List (Command α)) :
    (∃ r, (run running commands).1 = .ok r) ↔ ∀ c ∈ commands, Mergeable c := by
  induction commands generalizing running with
  | nil => simp [run]
  | cons c commands ih =>
    rw [exists_run_cons_iff, List.forall_mem_cons, ← exists_step_iff running]
    simp only [ih]
    constructor
    · rintro ⟨p, hp, h⟩
      exact ⟨⟨p, hp⟩, h⟩
    · rintro ⟨⟨p, hp⟩, h⟩
      exact ⟨p, hp, h⟩

/-- **Reconciling returns exactly if the payload of every move of a figure is readable.** -/
theorem reconcile_returns_iff (commands : List (Command α)) :
    (∃ r, reconcile commands = .ok r) ↔
      ∀ m, .setTransform m ∈ commands → m.target ≠ backgroundTarget →
        Readable m.transform.payload := by
  refine (exists_run_iff [] commands).trans ⟨fun h m hm => h _ hm m rfl, ?_⟩
  rintro h c hc m rfl
  exact h m hc

/-- A move to an infinite angle, which a caller can make, is not reconciled. -/
example :
    let turned : Transform Float := ⟨⟨0, 0⟩, ⟨1, 1⟩, Binary64.ofNonFinite .infinity, []⟩
    (reconcile [.setTransform ⟨"f1", 500, .unspecified, turned⟩]).toOption.isNone = true := by
  decide

end Reconciliation
end SceneScript
