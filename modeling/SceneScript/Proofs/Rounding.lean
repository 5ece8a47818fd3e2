import SceneScript.Proofs.Json.Every
import SceneScript.Proofs.Json.LineBreaks
import SceneScript.Proofs.Outcome
import SceneScript.Proofs.Transform
import SceneScript.Rounding

/-!
# What rounding leaves as it is

Rounding replaces reals by reals and by whole numbers, and nothing else: names stay where they are
(`keys_roundFields`), and what holds of every part of a value still does, if it holds of what reals
are rounded to (`every_roundValue`). **A finite real is rounded to a number in range**
(`roundReal_cases`), so a saved payload can be read as an update.
-/

set_option autoImplicit false

namespace SceneScript
namespace Rounding

open Json (Every EveryItem EveryMember)
open Outcome (both_eq_ok map_eq_ok)

variable {α : Type} [Scalar α]

/-! ## Taking a rounding apart -/

theorem roundFields_cons (name : String) (v : Json α) (rest : List (String × Json α)) :
    roundFields ((name, v) :: rest) = roundValue name v >>= fun w => roundFields rest >>= fun ws =>
      .ok ((name, w) :: ws) := by
  rw [roundFields]
  cases roundValue name v with
  | error e => rfl
  | ok w => cases roundFields rest <;> rfl

theorem roundItems_cons (name : String) (v : Json α) (rest : List (Json α)) :
    roundItems name (v :: rest) = roundValue name v >>= fun w => roundItems name rest >>= fun ws =>
      .ok (w :: ws) := by
  rw [roundItems]
  cases roundValue name v with
  | error e => rfl
  | ok w => cases roundItems name rest <;> rfl

theorem roundFields_cons_eq_ok {name : String} {v : Json α} {rest r : List (String × Json α)} :
    roundFields ((name, v) :: rest) = .ok r ↔
      ∃ w ws, roundValue name v = .ok w ∧ roundFields rest = .ok ws ∧ r = (name, w) :: ws := by
  rw [roundFields_cons]
  exact both_eq_ok

theorem roundItems_cons_eq_ok {name : String} {v : Json α} {rest r : List (Json α)} :
    roundItems name (v :: rest) = .ok r ↔
      ∃ w ws, roundValue name v = .ok w ∧ roundItems name rest = .ok ws ∧ r = w :: ws := by
  rw [roundItems_cons]
  exact both_eq_ok

theorem keys_roundFields {fs gs : Fields (Json α)} (h : roundFields fs = .ok gs) :
    gs.keys = fs.keys := by
  induction fs generalizing gs with
  | nil =>
    cases h
    rfl
  | cons f fs ih =>
    obtain ⟨w, ws, -, hr, rfl⟩ := roundFields_cons_eq_ok.mp h
    rw [Fields.keys_cons, Fields.keys_cons, ih hr]

/-! ## Reals -/

/-- **What a real is rounded to**: a whole number in range, or a real. Only a finite real is rounded
    to a finite number. -/
theorem roundReal_cases [Scalar.Lawful α] {name : String} {x : α} {v : Json α}
    (h : roundReal name x = .ok v) :
    (∃ (n : Int) (y : α), v = .int n ∧ Scalar.ofInt? n = some y ∧ Scalar.isFinite x = true) ∨
      ∃ y, v = .real y ∧ Scalar.isFinite y = Scalar.isFinite x := by
  unfold roundReal at h
  split at h
  · cases h
    exact .inr ⟨x, rfl, rfl⟩
  next hx =>
  have hfinite : Scalar.isFinite x = true := by simpa using hx
  split at h
  · obtain ⟨n, hn, rfl⟩ := map_eq_ok.mp h
    obtain ⟨y, hy, -⟩ := Scalar.Lawful.ofInt?_floor hn
    exact .inl ⟨n, y, rfl, hy, hfinite⟩
  · obtain ⟨y, hy, rfl⟩ := map_eq_ok.mp h
    obtain ⟨k, hk, rfl⟩ := map_eq_ok.mp hy
    unfold compact
    split
    · next n hw =>
      obtain ⟨z, hz, -⟩ := Scalar.whole?_eq_some hw
      exact .inl ⟨n, z, rfl, hz, hfinite⟩
    · exact .inr ⟨_, rfl, (Scalar.Lawful.isFinite_hundredths hk).trans hfinite.symm⟩

/-! ## Values -/

section Every

variable {leaf : Json α → Prop} {names : List String → Prop}

/-- What a real is rounded to has the property exactly when the real has. -/
def KeepsReals (leaf : Json α → Prop) (names : List String → Prop) : Prop :=
  ∀ (name : String) (x : α) (v : Json α), roundReal name x = .ok v →
    (v.Every leaf names ↔ leaf (.real x))

mutual

/-- **Rounding keeps what holds everywhere in a value**, and adds nothing that does. -/
theorem every_roundValue (hk : KeepsReals leaf names) (name : String) (v : Json α) {w : Json α}
    (h : roundValue name v = .ok w) : w.Every leaf names ↔ v.Every leaf names := by
  cases v with
  | null =>
    cases h
    exact Iff.rfl
  | bool b =>
    cases h
    exact Iff.rfl
  | int n =>
    cases h
    exact Iff.rfl
  | real x => exact hk name x w h
  | str s =>
    cases h
    exact Iff.rfl
  | arr items =>
    obtain ⟨ws, hws, rfl⟩ := map_eq_ok.mp h
    exact every_roundItems hk name items hws
  | obj members =>
    obtain ⟨ws, hws, rfl⟩ := map_eq_ok.mp h
    have hm := every_roundFields hk members hws
    unfold Every
    rw [keys_roundFields hws, hm]

theorem every_roundItems (hk : KeepsReals leaf names) (name : String) (vs : List (Json α))
    {ws : List (Json α)} (h : roundItems name vs = .ok ws) :
    EveryItem leaf names ws ↔ EveryItem leaf names vs := by
  cases vs with
  | nil =>
    cases h
    exact Iff.rfl
  | cons v vs =>
    obtain ⟨w, ws, hw, hws, rfl⟩ := roundItems_cons_eq_ok.mp h
    exact and_congr (every_roundValue hk name v hw) (every_roundItems hk name vs hws)

theorem every_roundFields (hk : KeepsReals leaf names) (fs : List (String × Json α))
    {gs : List (String × Json α)} (h : roundFields fs = .ok gs) :
    EveryMember leaf names gs ↔ EveryMember leaf names fs := by
  match fs, h with
  | [], h =>
    cases h
    exact Iff.rfl
  | (name, v) :: fs, h =>
    obtain ⟨w, ws, hw, hws, rfl⟩ := roundFields_cons_eq_ok.mp h
    exact and_congr (every_roundValue hk name v hw) (every_roundFields hk fs hws)

end

end Every

/-! ## Payloads -/

/-- What a number of a transform is rounded to. None of their names is that of a whole-numbered
    filter, and such names all do the same. -/
def RoundsTo (v : Json α) (x : α) : Prop :=
  ∀ name, name ∉ wholeNumbered → roundReal name x = .ok v

theorem roundsTo_of_roundReal {name : String} (hname : name ∉ wholeNumbered) {x : α} {v : Json α}
    (h : roundReal name x = .ok v) : RoundsTo v x := by
  intro other hother
  rw [← h]
  unfold roundReal
  rw [if_neg fun hc => hname (List.contains_iff_mem.mp hc),
    if_neg fun hc => hother (List.contains_iff_mem.mp hc)]

/-- **A rounded payload is its rounded numbers and its rounded filters.** -/
theorem roundFields_members_iff {t : Transform α} {filters p : Fields (Json α)} :
    roundFields (t.written.members ++ filters) = .ok p ↔
      ∃ (n : Numbers (Json α)) (fs : Fields (Json α)), Numbers.Rel RoundsTo n t.numbers ∧
        roundFields filters = .ok fs ∧ p = n.members ++ fs := by
  have hx : "x" ∉ wholeNumbered := by decide
  have hy : "y" ∉ wholeNumbered := by decide
  have hrotation : "rotation" ∉ wholeNumbered := by decide
  constructor
  · intro h
    obtain ⟨position, r₁, hposition, h₁, rfl⟩ := roundFields_cons_eq_ok.mp h
    obtain ⟨scale, r₂, hscale, h₂, rfl⟩ := roundFields_cons_eq_ok.mp h₁
    obtain ⟨r, fs, hr, hfs, rfl⟩ := roundFields_cons_eq_ok.mp h₂
    obtain ⟨ps, hps, rfl⟩ := map_eq_ok.mp hposition
    obtain ⟨px, r₃, hpx, hps₁, rfl⟩ := roundFields_cons_eq_ok.mp hps
    obtain ⟨py, r₄, hpy, hps₂, rfl⟩ := roundFields_cons_eq_ok.mp hps₁
    cases hps₂
    obtain ⟨ss, hss, rfl⟩ := map_eq_ok.mp hscale
    obtain ⟨sx, r₅, hsx, hss₁, rfl⟩ := roundFields_cons_eq_ok.mp hss
    obtain ⟨sy, r₆, hsy, hss₂, rfl⟩ := roundFields_cons_eq_ok.mp hss₁
    cases hss₂
    exact ⟨⟨px, py, sx, sy, r⟩, fs,
      ⟨roundsTo_of_roundReal hx hpx, roundsTo_of_roundReal hy hpy, roundsTo_of_roundReal hx hsx,
        roundsTo_of_roundReal hy hsy, roundsTo_of_roundReal hrotation hr⟩, hfs, rfl⟩
  · rintro ⟨n, fs, hn, hfs, rfl⟩
    have haxes : ∀ {v w : Json α} {a b : α}, RoundsTo v a → RoundsTo w b → ∀ name : String,
        roundValue name (Json.axes a b) = .ok (.obj [("x", v), ("y", w)]) := by
      intro v w a b hv hw name
      refine map_eq_ok.mpr ⟨_, roundFields_cons_eq_ok.mpr ⟨v, _, hv "x" hx, ?_, rfl⟩, rfl⟩
      exact roundFields_cons_eq_ok.mpr ⟨w, [], hw "y" hy, rfl, rfl⟩
    refine roundFields_cons_eq_ok.mpr ⟨_, _, haxes hn.x hn.y _, ?_, rfl⟩
    refine roundFields_cons_eq_ok.mpr ⟨_, _, haxes hn.scaleX hn.scaleY _, ?_, rfl⟩
    exact roundFields_cons_eq_ok.mpr ⟨_, _, hn.rotation _ hrotation, hfs, rfl⟩

/-- What is saved of a transform whose filters are in order: the transform with its position
    converted. -/
theorem savedPayload_eq {t : Transform α} (hn : t.filters.keys.Nodup)
    (hf : AreFree t.filters.keys) (ratio : Vec2 α) :
    savedPayload ratio t =
      roundFields ((t.placed ratio).written.members ++ t.filters) := by
  unfold savedPayload
  rw [Transform.payload_eq hn hf]
  rfl

/-! ## What saving relies on -/

variable [Scalar.Lawful α]

theorem keepsReals_inRange : KeepsReals (α := α) Json.NumberInRange List.Nodup := by
  intro name x v h
  rcases roundReal_cases h with ⟨n, y, rfl, hy, -⟩ | ⟨y, rfl, -⟩
  · exact iff_of_true (Option.isSome_of_mem hy) trivial
  · exact Iff.rfl

theorem keepsReals_string (P : String → Prop) :
    KeepsReals (α := α) (Json.LeafString P) fun names => ∀ name ∈ names, P name := by
  intro name x v h
  rcases roundReal_cases h with ⟨n, y, rfl, -⟩ | ⟨y, rfl, -⟩
  · exact Iff.rfl
  · exact Iff.rfl

/-- **Rounding touches no string and no name.** -/
theorem everyString_roundFields (P : String → Prop) {fs gs : Fields (Json α)}
    (h : roundFields fs = .ok gs) :
    Json.EveryString P (.obj gs) ↔ Json.EveryString P (.obj fs) :=
  and_congr (by rw [keys_roundFields h]) (every_roundFields (keepsReals_string P) fs h)

end Rounding
end SceneScript
