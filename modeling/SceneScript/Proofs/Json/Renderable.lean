import SceneScript.Json.Printer
import SceneScript.Proofs.Json.Every
import SceneScript.Proofs.Outcome

/-!
# What has a JSON text

Writing a value fails at its numbers only: **a value has a text exactly when every real in it is
finite and every whole number short enough** (`exists_render_iff`).
-/

set_option autoImplicit false

namespace SceneScript
namespace Json

open Outcome (both_eq_ok exists_both_eq_ok exists_map_eq_ok)

variable {α : Type} [WrittenScalar α]

/-! ## The text of a sequence -/

theorem renderItems_cons (v : Json α) (vs : List (Json α)) :
    renderItems (v :: vs) = render v >>= fun t => renderItems vs >>= fun ts =>
      .ok (if vs.isEmpty then t else t ++ ',' :: ts) := by
  rw [renderItems]
  cases render v with
  | error e => rfl
  | ok t => cases renderItems vs <;> rfl

theorem renderMembers_cons (name : String) (v : Json α) (ms : List (String × Json α)) :
    renderMembers ((name, v) :: ms) = render v >>= fun t => renderMembers ms >>= fun ts =>
      .ok (if ms.isEmpty then renderString name ++ ':' :: t
        else renderString name ++ ':' :: (t ++ ',' :: ts)) := by
  rw [renderMembers]
  cases render v with
  | error e => rfl
  | ok t =>
    cases renderMembers ms with
    | error e => rfl
    | ok ts => cases ms <;> simp [bind, Except.bind]

theorem renderItems_cons_eq_ok {v : Json α} {vs : List (Json α)} {text : List Char} :
    renderItems (v :: vs) = .ok text ↔ ∃ t ts, render v = .ok t ∧ renderItems vs = .ok ts ∧
      text = if vs.isEmpty then t else t ++ ',' :: ts := by
  rw [renderItems_cons]
  exact both_eq_ok

theorem renderMembers_cons_eq_ok {m : String × Json α} {ms : List (String × Json α)}
    {text : List Char} :
    renderMembers (m :: ms) = .ok text ↔ ∃ t ts, render m.2 = .ok t ∧ renderMembers ms = .ok ts ∧
      text = if ms.isEmpty then renderString m.1 ++ ':' :: t
        else renderString m.1 ++ ':' :: (t ++ ',' :: ts) := by
  rw [renderMembers_cons]
  exact both_eq_ok

/-! ## When there is a text -/

/-- A number has a text. -/
def NumberWritable : Json α → Prop
  | .int n => (Nat.toDigits 10 n.natAbs).length ≤ Text.maxDigits
  | .real x => Scalar.isFinite x = true
  | _ => True

/-- Every number in the value has a text. -/
def Renderable (v : Json α) : Prop := v.Every NumberWritable fun _ => True

theorem exists_wholeText_iff (n : Int) :
    (∃ text, wholeText n = .ok text) ↔ (Nat.toDigits 10 n.natAbs).length ≤ Text.maxDigits := by
  unfold wholeText
  dsimp only
  split
  · next h => exact iff_of_true ⟨_, rfl⟩ h
  · next h => exact iff_of_false (fun ⟨_, ht⟩ => nomatch ht) h

theorem exists_realText_iff (x : α) :
    (∃ text, realText x = .ok text) ↔ Scalar.isFinite x = true := by
  unfold realText
  split
  · next h => exact iff_of_true ⟨_, rfl⟩ h
  · next h => exact iff_of_false (fun ⟨_, ht⟩ => nomatch ht) h

mutual

/-- **A value has a text exactly when its numbers have.** -/
theorem exists_render_iff (v : Json α) : (∃ text, render v = .ok text) ↔ v.Renderable := by
  cases v with
  | null => exact iff_of_true ⟨_, rfl⟩ trivial
  | bool b => exact iff_of_true ⟨_, rfl⟩ trivial
  | int n => exact exists_wholeText_iff n
  | real x => exact exists_realText_iff x
  | str s => exact iff_of_true ⟨_, rfl⟩ trivial
  | arr items =>
    rw [render]
    exact exists_map_eq_ok.trans (exists_renderItems_iff items)
  | obj members =>
    rw [render]
    exact exists_map_eq_ok.trans
      ((exists_renderMembers_iff members).trans (and_iff_right trivial).symm)

theorem exists_renderItems_iff (vs : List (Json α)) :
    (∃ text, renderItems vs = .ok text) ↔ EveryItem NumberWritable (fun _ => True) vs := by
  cases vs with
  | nil => exact iff_of_true ⟨_, rfl⟩ trivial
  | cons v vs =>
    rw [renderItems_cons]
    exact exists_both_eq_ok.trans (and_congr (exists_render_iff v) (exists_renderItems_iff vs))

theorem exists_renderMembers_iff (ms : List (String × Json α)) :
    (∃ text, renderMembers ms = .ok text) ↔ EveryMember NumberWritable (fun _ => True) ms := by
  match ms with
  | [] => exact iff_of_true ⟨_, rfl⟩ trivial
  | (name, v) :: ms =>
    rw [renderMembers_cons]
    exact exists_both_eq_ok.trans (and_congr (exists_render_iff v) (exists_renderMembers_iff ms))

end

end Json
end SceneScript
