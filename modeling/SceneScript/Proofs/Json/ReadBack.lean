import SceneScript.Proofs.Json.Reading
import SceneScript.Proofs.Json.Renderable

/-!
# Reading back what was written

The text that is written of a value is **one of its texts** (`spells_render`), without any space and
with few characters escaped. So the strict reader gives back every value that was written, with what
stands behind it left over (`read_render`), if the value is one that the strict reader can give: its
whole numbers are in range and the names of each object are different (`InRange`). Reals need no
hypothesis, since only finite ones are written at all.
-/

set_option autoImplicit false

namespace SceneScript
namespace Json

open Outcome (map_eq_ok)

/-! ## Strings -/

theorem hexValue?_hexDigit : ∀ n < 16, Text.hexValue? (hexDigit n) = some n := by decide

theorem hexValues?_control {n : Nat} (h : n < 0x20) :
    hexValues? '0' '0' (hexDigit (n / 16)) (hexDigit (n % 16)) = some n := by
  have h0 : Text.hexValue? '0' = some 0 := by decide
  unfold hexValues?
  rw [h0, hexValue?_hexDigit (n / 16) (by omega), hexValue?_hexDigit (n % 16) (by omega)]
  refine congrArg some ?_
  omega

/-- The characters that have an escape of one letter, with the letter. -/
def escapeLetters : List (Char × Char) :=
  [('"', '"'), ('\\', '\\'), ('\n', 'n'), ('\r', 'r'), ('\t', 't'), ('\x0c', 'f'), ('\x08', 'b')]

theorem escape_letter : ∀ p ∈ escapeLetters, escape p.1 = ['\\', p.2] := by decide

/-- **A character is written as its letter, as its number or as itself.** -/
theorem escape_cases (c : Char) :
    (∃ e, (c, e) ∈ escapeLetters ∧ escape c = ['\\', e]) ∨
      (c.toNat < 0x20 ∧
        escape c = ['\\', 'u', '0', '0', hexDigit (c.toNat / 16), hexDigit (c.toNat % 16)]) ∨
      (c ≠ '"' ∧ c ≠ '\\' ∧ 0x20 ≤ c.toNat ∧ escape c = [c]) := by
  by_cases hl : c ∈ escapeLetters.map Prod.fst
  · obtain ⟨⟨_, e⟩, he, rfl⟩ := List.mem_map.mp hl
    exact .inl ⟨e, he, escape_letter _ he⟩
  · obtain ⟨hquote, hslash, hn, hr, ht, hf, hb⟩ : c ≠ '"' ∧ c ≠ '\\' ∧ c ≠ '\n' ∧ c ≠ '\r' ∧
        c ≠ '\t' ∧ c ≠ '\x0c' ∧ c ≠ '\x08' := by
      simpa [escapeLetters] using hl
    unfold escape
    rw [if_neg hquote, if_neg hslash, if_neg hn, if_neg hr, if_neg ht, if_neg hf, if_neg hb]
    by_cases hc : c.toNat < 0x20
    · exact .inr (.inl ⟨hc, if_pos hc⟩)
    · exact .inr (.inr ⟨hquote, hslash, not_lt.mp hc, if_neg hc⟩)

/-- **The escape of a character spells it.** -/
theorem spellsString_escape (c : Char) {t s : List Char} (h : SpellsString t s) :
    SpellsString (escape c ++ t) (c :: s) := by
  have hletters : ∀ p ∈ escapeLetters, unescape? p.2 = some p.1 := by decide
  obtain ⟨e, he, hescape⟩ | ⟨hc, hescape⟩ | ⟨hquote, hslash, hc, hescape⟩ := escape_cases c
  · rw [hescape]
    exact .letter (hletters (c, e) he) h
  · have hhigh : isHighUnit c.toNat = false := by
      unfold isHighUnit
      rw [decide_eq_false (by omega : ¬ 0xD800 ≤ c.toNat)]
      rfl
    have hlow : isLowUnit c.toNat = false := by
      unfold isLowUnit
      rw [decide_eq_false (by omega : ¬ 0xDC00 ≤ c.toNat)]
      rfl
    have hspells := SpellsString.unit (hexValues?_control hc) hhigh hlow h
    rw [Char.ofNat_toNat] at hspells
    rw [hescape]
    exact hspells
  · rw [hescape]
    exact .plain hquote hslash hc h

theorem spellsString_render (s : List Char) : SpellsString (s.flatMap escape) s := by
  induction s with
  | nil => exact .nil
  | cons c s ih => exact spellsString_escape c ih

theorem spellsName_render (name : String) : SpellsName (renderString name) name := by
  have h := SpellsName.quoted allSpace_nil (spellsString_render name.toList) allSpace_nil
  rwa [String.ofList_toList] at h

/-! ## Values -/

section Values

variable {α : Type}

/-- A whole number is in range. -/
def NumberInRange [Scalar α] : Json α → Prop
  | .int n => (Scalar.ofInt? n : Option α).isSome = true
  | _ => True

/-- The value is one that the strict reader gives, apart from its reals: every whole number is in
    range, and the names of each object are different. -/
def InRange [Scalar α] (v : Json α) : Prop := v.Every NumberInRange List.Nodup

variable [WrittenScalar α]

mutual

/-- **What is written of a value spells it**, and the strict reader accepts its numbers. -/
theorem spells_render [Scalar.Readable α] (v : Json α) {text : List Char} (h : render v = .ok text)
    (hv : v.InRange) : SpellsBare text v ∧ v.Accepted .strict := by
  cases v with
  | null =>
    cases h
    exact ⟨.null, trivial⟩
  | bool b =>
    cases h
    cases b
    · exact ⟨.no, trivial⟩
    · exact ⟨.yes, trivial⟩
  | int n =>
    obtain ⟨rfl, hlen⟩ := wholeText_eq h
    exact ⟨.int (signed_natAbs n), hlen, fun _ => hv⟩
  | real x =>
    obtain ⟨p, rfl, hp, hreal, rfl, hx⟩ := exists_parts_realText h
    exact ⟨.real hp hreal (NumberParts.isPowerText_powerText p.power), fun _ => hx⟩
  | str s =>
    cases h
    have hspells := SpellsBare.str (α := α) (spellsString_render s.toList)
    rw [String.ofList_toList] at hspells
    exact ⟨hspells, trivial⟩
  | arr items =>
    obtain ⟨t, ht, rfl⟩ := map_eq_ok.mp h
    cases items with
    | nil =>
      cases ht
      exact ⟨.noItems allSpace_nil, trivial⟩
    | cons v vs =>
      obtain ⟨hspells, ha⟩ := spells_renderItems (v :: vs) (List.cons_ne_nil v vs) ht hv
      exact ⟨.arr hspells, ha⟩
  | obj members =>
    obtain ⟨t, ht, rfl⟩ := map_eq_ok.mp h
    cases members with
    | nil =>
      cases ht
      exact ⟨.noMembers allSpace_nil, trivial, trivial⟩
    | cons m ms =>
      obtain ⟨hspells, ha⟩ := spells_renderMembers (m :: ms) (List.cons_ne_nil m ms) ht hv.2
      exact ⟨.obj hspells, trivial, ha⟩

theorem spells_renderItems [Scalar.Readable α] (vs : List (Json α)) (hne : vs ≠ [])
    {text : List Char} (h : renderItems vs = .ok text)
    (hv : EveryItem NumberInRange List.Nodup vs) :
    SpellsItems text vs ∧ EveryItem (NumberAccepted .strict) (fun _ => True) vs := by
  cases vs with
  | nil => exact absurd rfl hne
  | cons v vs =>
    obtain ⟨t, ts, ht, hts, rfl⟩ := renderItems_cons_eq_ok.mp h
    obtain ⟨hspells, ha⟩ := spells_render v ht hv.1
    cases vs with
    | nil => exact ⟨.last hspells.spells, ha, trivial⟩
    | cons w vs =>
      obtain ⟨hrest, has⟩ := spells_renderItems (w :: vs) (List.cons_ne_nil w vs) hts hv.2
      exact ⟨.more hspells.spells hrest, ha, has⟩

theorem spells_renderMembers [Scalar.Readable α] (ms : List (String × Json α)) (hne : ms ≠ [])
    {text : List Char} (h : renderMembers ms = .ok text)
    (hv : EveryMember NumberInRange List.Nodup ms) :
    SpellsMembers text ms ∧ EveryMember (NumberAccepted .strict) (fun _ => True) ms := by
  match ms, hne, h, hv with
  | [], hne, _, _ => exact absurd rfl hne
  | (name, v) :: ms, _, h, hv =>
    obtain ⟨t, ts, ht, hts, rfl⟩ := renderMembers_cons_eq_ok.mp h
    obtain ⟨hspells, ha⟩ := spells_render v ht hv.1
    cases ms with
    | nil => exact ⟨.last (spellsName_render name) hspells.spells, ha, trivial⟩
    | cons n ms =>
      obtain ⟨hrest, has⟩ := spells_renderMembers (n :: ms) (List.cons_ne_nil n ms) hts hv.2
      exact ⟨.more (spellsName_render name) hspells.spells hrest, ha, has⟩

end

variable [Scalar.Readable α]

/-- **Every value in range is read back from its text.** -/
theorem read_render (v : Json α) {text rest : List Char} (h : render v = .ok text)
    (hv : v.InRange) (hr : EndsNumber rest) : read .strict (text ++ rest) = .ok (v, rest) := by
  obtain ⟨hspells, ha⟩ := spells_render v h hv
  obtain ⟨-, hread⟩ | ⟨hn, -⟩ := yields_read .strict hspells hr
  · rw [hread, distinct_of_nodup v hv]
  · exact absurd ha hn

theorem readAll_render (v : Json α) {text : List Char} (h : render v = .ok text)
    (hv : v.InRange) : readAll .strict text = .ok v := by
  obtain ⟨hspells, ha⟩ := spells_render v h hv
  obtain ⟨-, hread⟩ | ⟨hn, -⟩ := readAll_cases .strict hspells.spells
  · rw [hread, distinct_of_nodup v hv]
  · exact absurd ha hn

end Values

end Json
end SceneScript
