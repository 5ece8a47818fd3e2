import SceneScript.Proofs.Json.Behind
import SceneScript.Proofs.Json.ReadBack
import SceneScript.Proofs.Text.Lines

/-!
# Line breaks in JSON text

JSON text has no line break of its own, and escapes the control characters below the space. Three
line breaks lie beyond ASCII, U+0085, U+2028 and U+2029, and **they are written as themselves**. So
the text of a value is one line exactly when no string in it and no name holds one of the three
(`unbroken_render`).

Any other text of the value may have line feeds and carriage returns between its parts. If it has
none, the three are again the only breaks that it can have (`unbroken_iff_of_spells`), and **what
stands before such a break is no document** (`readDocument_cut`): the break lies within a string.
-/

set_option autoImplicit false

namespace SceneScript
namespace Json

open Outcome (map_eq_ok)
open Text (Unbroken unbroken_nil unbroken_cons unbroken_append)

/-- The line breaks that JSON text holds as themselves. -/
def rawBreaks : List Char := ['\u0085', '\u2028', '\u2029']

/-- None of the three stands in the text. -/
def RawUnbroken (t : List Char) : Prop := ∀ c ∈ t, c ∉ rawBreaks

/-- None of the three stands in the string. -/
def StringUnbroken (s : String) : Prop := ∀ c ∈ s.toList, c ∉ rawBreaks

def LeafUnbroken {α : Type} : Json α → Prop
  | .str s => StringUnbroken s
  | _ => True

def NamesUnbroken (names : List String) : Prop := ∀ name ∈ names, StringUnbroken name

/-- No string and no name in the value holds one of the three. -/
def ValueUnbroken {α : Type} (v : Json α) : Prop := v.Every LeafUnbroken NamesUnbroken

/-- The same for the members of an object. -/
def MembersUnbroken {α : Type} (ms : Fields (Json α)) : Prop := ValueUnbroken (.obj ms)

theorem membersUnbroken_nil {α : Type} : MembersUnbroken ([] : Fields (Json α)) :=
  ⟨fun _ h => (nomatch h), trivial⟩

instance (t : List Char) : Decidable (RawUnbroken t) := List.decidableBAll (· ∉ rawBreaks) t

instance (s : String) : Decidable (StringUnbroken s) :=
  List.decidableBAll (· ∉ rawBreaks) s.toList

instance : DecidablePred NamesUnbroken := fun names =>
  inferInstanceAs (Decidable (∀ name ∈ names, StringUnbroken name))

instance {α : Type} : DecidablePred (LeafUnbroken (α := α))
  | .str s => inferInstanceAs (Decidable (StringUnbroken s))
  | .null | .bool _ | .int _ | .real _ | .arr _ | .obj _ => isTrue trivial

instance {α : Type} (ms : Fields (Json α)) : Decidable (MembersUnbroken ms) :=
  inferInstanceAs (Decidable ((Json.obj ms).Every LeafUnbroken NamesUnbroken))

/-! ## Strings -/

theorem mem_rawBreaks_iff (c : Char) :
    c ∈ rawBreaks ↔ Text.isLineBreak c = true ∧ 0x20 ≤ c.toNat := by
  have hc : ∀ d : Char, c = d ↔ c.toNat = d.toNat := fun d => Char.toNat_inj.symm
  unfold rawBreaks Text.isLineBreak Text.lineBreakRanges Text.Ranges.has
  simp only [List.mem_cons, List.not_mem_nil, or_false, List.any_cons, List.any_nil, Bool.or_false,
    Bool.or_eq_true, Bool.and_eq_true, decide_eq_true_eq, hc]
  have h1 : ('\u0085' : Char).toNat = 0x85 := rfl
  have h2 : ('\u2028' : Char).toNat = 0x2028 := rfl
  have h3 : ('\u2029' : Char).toNat = 0x2029 := rfl
  rw [h1, h2, h3]
  omega

theorem isLineBreak_hexDigit : ∀ n < 16, Text.isLineBreak (hexDigit n) = false := by decide

/-- **An escape is a line break exactly for the three.** -/
theorem unbroken_escape (c : Char) : Unbroken (escape c) ↔ c ∉ rawBreaks := by
  have hletters : ∀ p ∈ escapeLetters,
      Text.isLineBreak p.2 = false ∧ p.1 ∉ rawBreaks := by decide
  obtain ⟨e, he, hescape⟩ | ⟨hc, hescape⟩ | ⟨-, -, hc, hescape⟩ := escape_cases c
  · obtain ⟨hletter, hraw⟩ := hletters (c, e) he
    refine iff_of_true ?_ hraw
    rw [hescape]
    simp only [unbroken_cons, unbroken_nil, hletter, and_true]
    decide
  · refine iff_of_true ?_ fun hm => absurd ((mem_rawBreaks_iff c).mp hm).2 (by omega)
    have hhigh := isLineBreak_hexDigit (c.toNat / 16) (by omega)
    have hlow := isLineBreak_hexDigit (c.toNat % 16) (by omega)
    rw [hescape]
    simp only [unbroken_cons, unbroken_nil, and_true, hhigh, hlow]
    decide
  · rw [hescape, mem_rawBreaks_iff, unbroken_cons, and_iff_left unbroken_nil]
    simp [hc]

theorem unbroken_renderString (s : String) : Unbroken (renderString s) ↔ StringUnbroken s := by
  have hq : Text.isLineBreak '"' = false := by decide
  unfold renderString StringUnbroken
  rw [unbroken_cons, unbroken_append, unbroken_cons, and_iff_right hq, and_iff_right hq,
    and_iff_left unbroken_nil]
  unfold Unbroken
  rw [List.forall_mem_flatMap]
  exact forall₂_congr fun c _ => unbroken_escape c

/-! ## Numbers -/

theorem unbroken_of_visible {s : List Char} (h : ∀ c ∈ s, Text.Visible c) : Unbroken s :=
  fun c hc => (h c hc).isLineBreak

theorem unbroken_of_isDigit {s : List Char} (h : ∀ d ∈ s, d.isDigit = true) : Unbroken s :=
  unbroken_of_visible fun d hd => Text.visible_of_isDigit (h d hd)

/-! ## Values -/

variable {α : Type} [WrittenScalar α]

mutual

/-- **The text of a value is one line exactly when none of the three stands in it.** -/
theorem unbroken_render [Scalar.Readable α] (v : Json α) {text : List Char}
    (h : render v = .ok text) : Unbroken text ↔ ValueUnbroken v := by
  cases v with
  | null =>
    cases h
    exact iff_of_true (by decide) trivial
  | bool b =>
    cases h
    exact iff_of_true (by cases b <;> decide) trivial
  | int n =>
    rw [(wholeText_eq h).1]
    exact iff_of_true (unbroken_of_visible (visible_written (wellFormed_wholeParts n))) trivial
  | real x =>
    obtain ⟨p, rfl, hp, -⟩ := exists_parts_realText h
    exact iff_of_true (unbroken_of_visible (visible_written hp)) trivial
  | str s =>
    cases h
    exact unbroken_renderString s
  | arr items =>
    obtain ⟨t, ht, rfl⟩ := map_eq_ok.mp h
    have h1 : Text.isLineBreak '[' = false := by decide
    have h2 : Text.isLineBreak ']' = false := by decide
    rw [unbroken_cons, unbroken_append, unbroken_cons, and_iff_right h1, and_iff_right h2,
      and_iff_left unbroken_nil]
    exact unbroken_renderItems items ht
  | obj members =>
    obtain ⟨t, ht, rfl⟩ := map_eq_ok.mp h
    have h1 : Text.isLineBreak '\x7b' = false := by decide
    have h2 : Text.isLineBreak '\x7d' = false := by decide
    rw [unbroken_cons, unbroken_append, unbroken_cons, and_iff_right h1, and_iff_right h2,
      and_iff_left unbroken_nil]
    exact unbroken_renderMembers members ht

theorem unbroken_renderItems [Scalar.Readable α] (vs : List (Json α)) {text : List Char}
    (h : renderItems vs = .ok text) :
    Unbroken text ↔ EveryItem LeafUnbroken NamesUnbroken vs := by
  cases vs with
  | nil =>
    cases h
    exact iff_of_true unbroken_nil trivial
  | cons v vs =>
    obtain ⟨t, ts, ht, hts, rfl⟩ := renderItems_cons_eq_ok.mp h
    have hc : Text.isLineBreak ',' = false := by decide
    have hv := unbroken_render v ht
    have hvs := unbroken_renderItems vs hts
    rw [everyItem_cons]
    cases vs with
    | nil => exact hv.trans (and_iff_left trivial).symm
    | cons w vs =>
      show Unbroken (t ++ ',' :: ts) ↔ _
      rw [unbroken_append, unbroken_cons, and_iff_right hc]
      exact and_congr hv hvs

theorem unbroken_renderMembers [Scalar.Readable α] (ms : List (String × Json α))
    {text : List Char} (h : renderMembers ms = .ok text) : Unbroken text ↔ MembersUnbroken ms := by
  cases ms with
  | nil =>
    cases h
    exact iff_of_true unbroken_nil membersUnbroken_nil
  | cons m ms =>
    obtain ⟨t, ts, ht, hts, rfl⟩ := renderMembers_cons_eq_ok.mp h
    have h1 : Text.isLineBreak ':' = false := by decide
    have h2 : Text.isLineBreak ',' = false := by decide
    have hv := unbroken_render m.2 ht
    have hms := unbroken_renderMembers ms hts
    have hsplit : MembersUnbroken (m :: ms) ↔
        StringUnbroken m.1 ∧ ValueUnbroken m.2 ∧ MembersUnbroken ms := by
      unfold MembersUnbroken ValueUnbroken NamesUnbroken
      simp only [Every, everyMember_cons, Fields.keys_cons, List.forall_mem_cons]
      tauto
    rw [hsplit]
    cases ms with
    | nil =>
      show Unbroken (renderString m.1 ++ ':' :: t) ↔ _
      rw [unbroken_append, unbroken_cons, and_iff_right h1, unbroken_renderString, hv]
      exact and_congr_right fun _ => (and_iff_left ⟨fun _ h => (nomatch h), trivial⟩).symm
    | cons n ms =>
      show Unbroken (renderString m.1 ++ ':' :: (t ++ ',' :: ts)) ↔ _
      rw [unbroken_append, unbroken_cons, and_iff_right h1, unbroken_append, unbroken_cons,
        and_iff_right h2, unbroken_renderString, hv, hms]

end

/-! ## Every text of a value

A character of such a text is a space or no control character. -/

/-- The character is a space, or no control character. -/
def Printable (c : Char) : Prop := isSpace c = true ∨ 0x20 ≤ c.toNat

theorem printable_of_visible {c : Char} (h : Text.Visible c) : Printable c := .inr h.1.le

/-- A printable character that breaks a line is a line feed, a carriage return, or one of the
    three. -/
theorem mem_rawBreaks_of_printable {c : Char} (h : Printable c) (hb : Text.isLineBreak c = true)
    (hn : c ≠ '\n') (hr : c ≠ '\r') : c ∈ rawBreaks := by
  rw [mem_rawBreaks_iff]
  refine ⟨hb, h.resolve_left fun hs => ?_⟩
  have hspace : Text.isLineBreak ' ' = false := by decide
  have htab : Text.isLineBreak '\t' = false := by decide
  simp only [isSpace, Bool.or_eq_true, beq_iff_eq, hn, hr, or_false] at hs
  rcases hs with rfl | rfl
  · rw [hspace] at hb
    cases hb
  · rw [htab] at hb
    cases hb

/-- All characters of the text are printable. -/
def AllPrintable (t : List Char) : Prop := ∀ c ∈ t, Printable c

@[simp] theorem allPrintable_nil : AllPrintable [] := List.forall_mem_nil _

@[simp] theorem allPrintable_cons {c : Char} {t : List Char} :
    AllPrintable (c :: t) ↔ Printable c ∧ AllPrintable t := List.forall_mem_cons

@[simp] theorem allPrintable_append {s t : List Char} :
    AllPrintable (s ++ t) ↔ AllPrintable s ∧ AllPrintable t := List.forall_mem_append

theorem AllSpace.allPrintable {s : List Char} (h : AllSpace s) : AllPrintable s :=
  fun c hc => .inl (h c hc)

/-! ### Strings -/

theorem le_of_hexValue? {c : Char} {n : Nat} (h : Text.hexValue? c = some n) : 0x20 ≤ c.toNat := by
  by_contra hc
  have hlt : ∀ d : Char, 0x20 ≤ d.toNat → ¬ d ≤ c := by
    intro d hd hdc
    have hle : d.toNat ≤ c.toNat := hdc
    omega
  unfold Text.hexValue? at h
  rw [if_neg fun hd => hlt _ (by decide) hd.1, if_neg fun hd => hlt _ (by decide) hd.1,
    if_neg fun hd => hlt _ (by decide) hd.1] at h
  cases h

theorem le_of_hexValues? {a b c d : Char} {n : Nat} (h : hexValues? a b c d = some n) :
    ∀ e ∈ [a, b, c, d], 0x20 ≤ e.toNat := by
  unfold hexValues? at h
  obtain ⟨_, ha, h⟩ := Option.bind_eq_some_iff.mp h
  obtain ⟨_, hb, h⟩ := Option.bind_eq_some_iff.mp h
  obtain ⟨_, hc, h⟩ := Option.bind_eq_some_iff.mp h
  obtain ⟨_, hd, -⟩ := Option.bind_eq_some_iff.mp h
  simp [le_of_hexValue? ha, le_of_hexValue? hb, le_of_hexValue? hc, le_of_hexValue? hd]

theorem le_of_unescape? {e d : Char} (h : unescape? e = some d) : 0x20 ≤ e.toNat := by
  by_contra hc
  have hne : ∀ w : Char, 0x20 ≤ w.toNat → e ≠ w := by
    rintro w hw rfl
    exact hc hw
  unfold unescape? at h
  simp [hne '"' (by decide), hne '\\' (by decide), hne '/' (by decide), hne 'b' (by decide),
    hne 'f' (by decide), hne 'n' (by decide), hne 'r' (by decide), hne 't' (by decide)] at h

theorem SpellsString.le {t s : List Char} (h : SpellsString t s) : ∀ c ∈ t, 0x20 ≤ c.toNat := by
  induction h with
  | nil => exact List.forall_mem_nil _
  | plain _ _ hc _ ih => exact List.forall_mem_cons.mpr ⟨hc, ih⟩
  | letter hd _ ih =>
    simp only [List.forall_mem_cons]
    exact ⟨by decide, le_of_unescape? hd, ih⟩
  | unit hn _ _ _ ih =>
    have hfour := le_of_hexValues? hn
    simp only [List.forall_mem_cons] at hfour ⊢
    exact ⟨by decide, by decide, hfour.1, hfour.2.1, hfour.2.2.1, hfour.2.2.2.1, ih⟩
  | pair hh _ hl _ _ ih =>
    have hhigh := le_of_hexValues? hh
    have hlow := le_of_hexValues? hl
    simp only [List.forall_mem_cons] at hhigh hlow ⊢
    exact ⟨by decide, by decide, hhigh.1, hhigh.2.1, hhigh.2.2.1, hhigh.2.2.2.1, by decide,
      by decide, hlow.1, hlow.2.1, hlow.2.2.1, hlow.2.2.2.1, ih⟩

theorem SpellsString.allPrintable {t s : List Char} (h : SpellsString t s) : AllPrintable t :=
  fun c hc => .inr (h.le c hc)

theorem SpellsName.allPrintable {n : List Char} {name : String} (h : SpellsName n name) :
    AllPrintable n := by
  obtain ⟨hb, ht, hbehind⟩ := h
  have hq : Printable '"' := .inr (by decide)
  simp only [allPrintable_append, allPrintable_cons]
  exact ⟨hb.allPrintable, hq, ht.allPrintable, hq, hbehind.allPrintable⟩

/-! ### Values, items and members -/

section Spelled

variable {α : Type} [Scalar α]

mutual

theorem SpellsBare.allPrintable {t : List Char} {v : Json α} (h : SpellsBare t v) :
    AllPrintable t := by
  have hquote : Printable '"' := .inr (by decide)
  have hopen : Printable '[' := .inr (by decide)
  have hclose : Printable ']' := .inr (by decide)
  have hbrace : Printable '\x7b' := .inr (by decide)
  have hend : Printable '\x7d' := .inr (by decide)
  cases h with
  | null => simp [Printable]
  | yes => simp [Printable]
  | no => simp [Printable]
  | int hn =>
    exact fun c hc => printable_of_visible (visible_spelled (wellFormed_signedParts _ _) .none c hc)
  | real hp hreal ht => exact fun c hc => printable_of_visible (visible_spelled hp ht c hc)
  | str ht => simp [hquote, ht.allPrintable]
  | noItems hs => simp [hopen, hclose, hs.allPrintable]
  | arr ht => simp [hopen, hclose, ht.allPrintable]
  | noMembers hs => simp [hbrace, hend, hs.allPrintable]
  | obj ht => simp [hbrace, hend, ht.allPrintable]
termination_by sizeOf v

theorem SpellsItems.allPrintable {t : List Char} {vs : List (Json α)} (h : SpellsItems t vs) :
    AllPrintable t := by
  have hcomma : Printable ',' := .inr (by decide)
  cases h with
  | last hv =>
    obtain ⟨hb, ht, hbehind⟩ := hv
    simp [hb.allPrintable, hbehind.allPrintable, ht.allPrintable]
  | more hv hvs =>
    obtain ⟨hb, ht, hbehind⟩ := hv
    simp [hb.allPrintable, hbehind.allPrintable, ht.allPrintable, hcomma, hvs.allPrintable]
termination_by sizeOf vs

theorem SpellsMembers.allPrintable {t : List Char} {ms : List (String × Json α)}
    (h : SpellsMembers t ms) : AllPrintable t := by
  have hcomma : Printable ',' := .inr (by decide)
  have hcolon : Printable ':' := .inr (by decide)
  cases h with
  | last hn hv =>
    obtain ⟨hb, ht, hbehind⟩ := hv
    simp [hn.allPrintable, hcolon, hb.allPrintable, hbehind.allPrintable, ht.allPrintable]
  | more hn hv hms =>
    obtain ⟨hb, ht, hbehind⟩ := hv
    simp [hn.allPrintable, hcolon, hcomma, hb.allPrintable, hbehind.allPrintable, ht.allPrintable,
      hms.allPrintable]
termination_by sizeOf ms

end

variable {t : List Char} {v : Json α}

theorem Spells.allPrintable (h : Spells t v) : AllPrintable t := by
  obtain ⟨hb, ht, hbehind⟩ := h
  simp [hb.allPrintable, ht.allPrintable, hbehind.allPrintable]

/-- **A text without line feeds and carriage returns is one line exactly if it has none of the
    three.** -/
theorem unbroken_iff_of_spells (h : Spells t v) (hn : '\n' ∉ t) (hr : '\r' ∉ t) :
    Unbroken t ↔ RawUnbroken t := by
  refine forall₂_congr fun c hc => ⟨fun hb hm => ?_, fun hm => ?_⟩
  · rw [((mem_rawBreaks_iff c).mp hm).1] at hb
    cases hb
  · rw [← Bool.not_eq_true]
    exact fun hb => hm (mem_rawBreaks_of_printable (h.allPrintable c hc) hb (ne_of_mem_of_not_mem hc hn)
      (ne_of_mem_of_not_mem hc hr))

/-! ### Where a text is cut -/

/-- The first character of a value's text, behind its space, is seen. -/
theorem skipSpace_spells (h : Spells t v) : ∃ c r, skipSpace t = c :: r ∧ Text.Visible c := by
  obtain ⟨hbefore, ht, hbehind⟩ := h
  rename_i before t behind
  obtain ⟨c, r, rfl, hc, -⟩ := starts_bare ht
  exact ⟨c, r ++ behind, skipSpace_append_cons hbefore (isSpace_of_visible hc) _, hc⟩

theorem rawBreak_apart {b : Char} (hb : b ∈ rawBreaks) :
    ¬ Text.Visible b ∧ isSpace b = false := by
  simp only [rawBreaks, List.mem_cons, List.not_mem_nil, or_false] at hb
  obtain rfl | rfl | rfl := hb
  all_goals decide

variable {p r : List Char} {b : Char}

/-- What stands before one of the three is not blank: the text has begun. -/
theorem skipSpace_cut (h : Spells (p ++ b :: r) v) (hb : b ∈ rawBreaks) :
    ∃ c q, skipSpace p = c :: q ∧ Text.Visible c := by
  obtain ⟨c, q, hs, hc⟩ := skipSpace_spells h
  obtain ⟨hseen, hspace⟩ := rawBreak_apart hb
  cases hp : skipSpace p with
  | nil =>
    -- only space before it: then it is itself the first character behind the space
    have hall : AllSpace p := List.dropWhile_eq_nil_iff.mp hp
    rw [skipSpace_append_cons hall hspace, List.cons.injEq] at hs
    exact absurd hc (hs.1 ▸ hseen)
  | cons d q' =>
    rw [skipSpace_behind hp, List.cons.injEq] at hs
    exact ⟨d, q', rfl, hs.1 ▸ hc⟩

/-- **What stands before one of the three is no document**: read with the rest behind it, the
    value would come out again, with the rest left over. -/
theorem readDocument_cut (h : Spells (p ++ b :: r) v) (hb : b ∈ rawBreaks) (w : Json α) :
    readDocument p ≠ .ok w := by
  intro hw
  obtain ⟨hseen, hspace⟩ := rawBreak_apart hb
  obtain ⟨c, q, hp, -⟩ := skipSpace_cut h hb
  have hall : readAll .lenient p = .ok w := by
    unfold readDocument at hw
    split at hw
    · exact hw
    · split at hw
      · cases hw
      · exact hw
  obtain ⟨left, hread, hleft⟩ : ∃ left, read .lenient (skipSpace p) = .ok (w, left) ∧
      skipSpace left = [] := by
    unfold readAll at hall
    split at hall
    · cases hall
    · next v' left hread =>
      split at hall
      · next hleft =>
        cases hall
        exact ⟨left, hread, hleft⟩
      · cases hall
  -- the break is no character of a value, so the rest does not change what is read before it
  have hbehind : read .lenient (skipSpace (p ++ b :: r)) = .ok (w, left ++ b :: r) := by
    rw [skipSpace_behind hp, ← List.cons_append, ← hp]
    exact read_behind (apart_cons hseen r) hread
  have hextra : readAll (α := α) .lenient (p ++ b :: r) =
      .error (.malformed .extraData (b :: r).length) := by
    unfold readAll
    rw [hbehind]
    dsimp only
    rw [skipSpace_append_cons (List.dropWhile_eq_nil_iff.mp hleft) hspace]
  obtain ⟨-, hx⟩ | ⟨-, fault, hx⟩ := readAll_cases .lenient h
  · rw [hextra] at hx
    cases hx
  · rw [hextra] at hx
    cases hx

end Spelled

end Json
end SceneScript
