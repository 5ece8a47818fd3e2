import SceneScript.Proofs.Json.ReadBack
import SceneScript.Proofs.Script.Flags

/-!
# Flags in JSON text

A flag needs a blank, and JSON text is written without one outside its strings. What stands around a
string, its quotes included, is no part of a flag either. So the flags in the text of a value are
those in its strings and names, one by one (`flagless_render`).

A string is searched as it is written: a tab is escaped there and is no blank, but a space is one.
-/

set_option autoImplicit false

namespace SceneScript
namespace Json

open Line (Flagless flag flagless_nil flagless_cons_of_not_blank flagless_append_cons
  flagless_append_of_no_blank)
open Outcome (map_eq_ok)

/-- No flag stands in the string, as it is written. -/
def StringFlagless (s : String) : Prop := Flagless (renderString s)

instance : DecidablePred StringFlagless := fun _ => inferInstanceAs (Decidable (Flagless _))

/-- No string and no name in the value holds a flag. -/
def ValueFlagless {α : Type} (v : Json α) : Prop := v.EveryString StringFlagless

/-- The same for the members of an object. -/
def MembersFlagless {α : Type} (ms : Fields (Json α)) : Prop := ValueFlagless (.obj ms)

instance {α : Type} (ms : Fields (Json α)) : Decidable (MembersFlagless ms) :=
  inferInstanceAs (Decidable ((Json.obj ms).EveryString StringFlagless))

/-! ## What no flag reaches across -/

/-- **Behind the closing quote of a string the search for flags starts again.** -/
theorem flagless_renderString_append (s : String) (rest : List Char) :
    Flagless (renderString s ++ rest) ↔ StringFlagless s ∧ Flagless rest := by
  have hsplit : renderString s ++ rest = ('"' :: s.toList.flatMap escape) ++ '"' :: rest := by
    simp [renderString]
  rw [hsplit, flagless_append_cons (by decide) (by decide)]
  exact Iff.rfl

theorem flagless_append_of_visible {text : List Char} (h : ∀ c ∈ text, Text.Visible c)
    (rest : List Char) : Flagless (text ++ rest) ↔ Flagless rest :=
  flagless_append_of_no_blank (fun c hc => (h c hc).isBlank) rest

/-- Text in brackets, of which the closing one is no part of a flag. -/
theorem flagless_bracketed {o c : Char} (ho : Text.isBlank o = false) {p : Prop}
    {text : List Char} (h : ∀ rest, Flagless (text ++ rest) ↔ p ∧ Flagless rest)
    (hc : Text.isBlank c = false) (rest : List Char) :
    Flagless ((o :: (text ++ [c])) ++ rest) ↔ p ∧ Flagless rest := by
  have hsplit : (o :: (text ++ [c])) ++ rest = o :: (text ++ c :: rest) := by simp
  rw [hsplit, flagless_cons_of_not_blank ho, h, flagless_cons_of_not_blank hc]

/-! ## Values -/

variable {α : Type} [WrittenScalar α]

mutual

/-- **The flags in the text of a value are those in its strings and names**, and it ends where no
    flag reaches across. -/
theorem flagless_render_append [Scalar.Readable α] (v : Json α) {text : List Char}
    (h : render v = .ok text) (rest : List Char) : Flagless (text ++ rest) ↔ ValueFlagless v ∧ Flagless rest := by
  cases v with
  | null =>
    cases h
    rw [flagless_append_of_visible (by simp [Text.Visible])]
    exact (and_iff_right trivial).symm
  | bool b =>
    cases h
    rw [flagless_append_of_visible (by cases b <;> simp [Text.Visible])]
    exact (and_iff_right trivial).symm
  | int n =>
    rw [(wholeText_eq h).1, flagless_append_of_visible (visible_written (wellFormed_wholeParts n))]
    exact (and_iff_right trivial).symm
  | real x =>
    obtain ⟨p, rfl, hp, -⟩ := exists_parts_realText h
    rw [flagless_append_of_visible (visible_written hp)]
    exact (and_iff_right trivial).symm
  | str s =>
    cases h
    exact flagless_renderString_append s rest
  | arr items =>
    obtain ⟨t, ht, rfl⟩ := map_eq_ok.mp h
    exact flagless_bracketed (by decide) (flagless_renderItems_append items ht) (by decide) rest
  | obj members =>
    obtain ⟨t, ht, rfl⟩ := map_eq_ok.mp h
    exact flagless_bracketed (by decide) (flagless_renderMembers_append members ht) (by decide) rest

theorem flagless_renderItems_append [Scalar.Readable α] (vs : List (Json α)) {text : List Char}
    (h : renderItems vs = .ok text) (rest : List Char) :
    Flagless (text ++ rest) ↔ ValueFlagless (.arr vs) ∧ Flagless rest := by
  cases vs with
  | nil =>
    cases h
    exact (and_iff_right trivial).symm
  | cons v vs =>
    obtain ⟨t, ts, ht, hts, rfl⟩ := renderItems_cons_eq_ok.mp h
    have hv := flagless_render_append v ht
    have hvs := flagless_renderItems_append vs hts
    have hsplit : ValueFlagless (.arr (v :: vs)) ↔ ValueFlagless v ∧ ValueFlagless (.arr vs) :=
      everyItem_cons v vs
    rw [hsplit, and_assoc]
    cases vs with
    | nil =>
      show Flagless (t ++ rest) ↔ _
      rw [hv rest]
      exact and_congr_right fun _ => (and_iff_right trivial).symm
    | cons w vs =>
      show Flagless ((t ++ ',' :: ts) ++ rest) ↔ _
      rw [List.append_assoc, hv, List.cons_append, flagless_cons_of_not_blank (by decide), hvs rest]

theorem flagless_renderMembers_append [Scalar.Readable α] (ms : List (String × Json α))
    {text : List Char} (h : renderMembers ms = .ok text) (rest : List Char) :
    Flagless (text ++ rest) ↔ MembersFlagless ms ∧ Flagless rest := by
  cases ms with
  | nil =>
    cases h
    exact (and_iff_right everyString_obj_nil).symm
  | cons m ms =>
    obtain ⟨t, ts, ht, hts, rfl⟩ := renderMembers_cons_eq_ok.mp h
    have hv := flagless_render_append m.2 ht
    have hms := flagless_renderMembers_append ms hts
    have hsplit : MembersFlagless (m :: ms) ↔
        StringFlagless m.1 ∧ ValueFlagless m.2 ∧ MembersFlagless ms := everyString_obj_cons m ms
    rw [hsplit, and_assoc, and_assoc]
    cases ms with
    | nil =>
      show Flagless ((renderString m.1 ++ ':' :: t) ++ rest) ↔ _
      rw [List.append_assoc, flagless_renderString_append, List.cons_append,
        flagless_cons_of_not_blank (by decide), hv rest]
      exact and_congr_right fun _ => and_congr_right fun _ => (and_iff_right everyString_obj_nil).symm
    | cons n ms =>
      show Flagless ((renderString m.1 ++ ':' :: (t ++ ',' :: ts)) ++ rest) ↔ _
      rw [List.append_assoc, flagless_renderString_append, List.cons_append,
        flagless_cons_of_not_blank (by decide), List.append_assoc, hv, List.cons_append,
        flagless_cons_of_not_blank (by decide), hms rest]

end

theorem flagless_render [Scalar.Readable α] {v : Json α} {text : List Char}
    (h : render v = .ok text) : Flagless text ↔ ValueFlagless v := by
  have happend := flagless_render_append v h []
  rwa [List.append_nil, and_iff_left flagless_nil] at happend

end Json
end SceneScript
